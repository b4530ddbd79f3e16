import Chatt.Model.Reference

/-!
# Codes of message references

Decoding inverts encoding, and a code that decodes is the code of its message, written perhaps
with other letters for the same value.
-/

namespace Chatt.MessageFormat

open Lib

/-! ## Letters -/

lemma decodeValue_encodeValue : ∀ v < 32, decodeValue (encodeValue v) = some v := by decide +kernel

lemma encodeValue_of_decodeValue (byte : Fin 256) :
    ∀ v ∈ decodeValue byte, encodeValue v = canonical byte ∧ v < 32 := by
  revert byte
  decide +kernel

lemma mapM_decodeValue {values : List ℕ} (h : ∀ v ∈ values, v < 32) :
    (values.map encodeValue).mapM decodeValue = some values := by
  induction values with
  | nil => rfl
  | cons v values ih =>
    rw [List.forall_mem_cons] at h
    simp [decodeValue_encodeValue v h.1, ih h.2]

lemma map_encodeValue {code : Source} {values : List ℕ} (h : code.mapM decodeValue = some values) :
    values.map encodeValue = code.map canonical ∧ ∀ v ∈ values, v < 32 := by
  induction code generalizing values with
  | nil =>
    cases h
    exact ⟨rfl, nofun⟩
  | cons byte code ih =>
    simp only [List.mapM_cons, Option.bind_eq_bind, Option.bind_eq_some_iff] at h
    obtain ⟨v, hv, values, hvalues, ⟨⟩⟩ := h
    obtain ⟨hletter, hlt⟩ := encodeValue_of_decodeValue byte v hv
    rw [List.map_cons, List.map_cons, (ih hvalues).1, hletter]
    exact ⟨rfl, List.forall_mem_cons.mpr ⟨hlt, (ih hvalues).2⟩⟩

/-! ## LEB128 -/

lemma pushLeb128_lt (v : ℕ) : ∀ b ∈ pushLeb128 v, b < 256 := by
  fun_induction pushLeb128 v with
  | case1 v _ => simp; omega
  | case2 v _ ih => simpa using ⟨by omega, ih⟩

lemma length_pushLeb128 {v k : ℕ} (h : v < 128 ^ (k + 1)) :
    0 < (pushLeb128 v).length ∧ (pushLeb128 v).length ≤ k + 1 := by
  induction k generalizing v with
  | zero =>
    rw [pushLeb128, if_pos (by omega)]
    simp
  | succ k ih =>
    rw [pushLeb128]
    split
    · simp
    · have := ih (Nat.div_lt_of_lt_mul (by rwa [← pow_succ'] : v < 128 * 128 ^ (k + 1)))
      simpa using this.2

variable (rest : List ℕ) {s : BitBuffer}

lemma readLeb128_cons {value shift byte : ℕ} (hvalue : value < 2 ^ shift)
    (hlast : shift = 63 → byte ≤ 1) :
    readLeb128 value shift (byte :: rest) = if byte <
      128 then some (byte % 128 * 2 ^ shift + value, rest)
      else if 63 < shift + 7 then none
      else readLeb128 (byte % 128 * 2 ^ shift + value) (shift + 7) rest := by
  rw [readLeb128, if_neg (by omega), Nat.or_comm, ← Nat.shiftLeft_add_eq_or_of_lt hvalue,
    Nat.shiftLeft_eq]

lemma readLeb128_last {value shift v : ℕ} (hvalue : value < 2 ^ shift) (hv : v < 128)
      (hlast : shift = 63 → v ≤ 1) :
    readLeb128 value shift (pushLeb128 v ++ rest) = some (v * 2 ^ shift + value, rest) := by
  rw [pushLeb128, if_pos (by omega), List.singleton_append, Nat.mod_eq_of_lt hv,
    readLeb128_cons rest hvalue hlast, if_pos hv, Nat.mod_eq_of_lt hv]

/-- The reader with `j` more bytes to come, the last of one bit. -/
lemma readLeb128_pushLeb128 {j value v : ℕ} (hj : j ≤ 9) (hvalue : value < 2 ^ (63 - 7 * j))
      (hv : v < 2 ^ (7 * j + 1)) :
    readLeb128 value (63 - 7 * j) (pushLeb128 v ++ rest) =
      some (v * 2 ^ (63 - 7 * j) + value, rest) := by
  induction j generalizing value v with
  | zero => exact readLeb128_last rest hvalue (by omega) (by omega)
  | succ j ih =>
    by_cases hsmall : v < 128
    · exact readLeb128_last rest hvalue hsmall (by omega)
    have hshift : 63 - 7 * (j + 1) + 7 = 63 - 7 * j := by omega
    have hpow : 2 ^ (63 - 7 * j) = 2 ^ 7 * 2 ^ (63 - 7 * (j + 1)) := by
      rw [← hshift, pow_add, Nat.mul_comm]
    have hvalue' : v % 128 * 2 ^ (63 - 7 * (j + 1)) + value < 2 ^ (63 - 7 * j) := by
      have := Nat.mul_le_mul_right (2 ^ (63 - 7 * (j + 1))) (by omega : v % 128 + 1 ≤ 128)
      rw [Nat.add_mul] at this
      omega
    have hv' : v / 128 < 2 ^ (7 * j + 1) := by
      rw [Nat.mul_succ, Nat.add_right_comm, pow_add] at hv
      omega
    rw [pushLeb128, if_neg (by omega), List.cons_append, readLeb128_cons _ hvalue (by omega),
      if_neg (by omega), if_neg (by omega), Nat.add_mod_right, Nat.mod_mod, hshift,
      ih (by omega) hvalue' hv', hpow]
    congr 2
    conv_rhs => rw [← Nat.div_add_mod v 128]
    ring

/-! ## Base32 -/

lemma pushGroups_holds {n len : ℕ} (h : s.Holds 5 n len) :
    (pushGroups s).Holds 5 n len ∧ (pushGroups s).bits < 5 := by
  fun_induction pushGroups s with
  | case1 s hle ih => exact ih (h.push hle)
  | case2 s hlt => exact ⟨h, by omega⟩

lemma takeValue_holds {n len value : ℕ} (h : s.Holds 8 n len ∧ s.bits < 8)
    (hvalue : value < 2 ^ 5) :
    (takeValue s value).Holds 8 (n * 2 ^ 5 + value) (len + 5) ∧ (takeValue s value).bits < 8 := by
  have htaken := h.1.shiftIn hvalue (by omega)
  have hsum : (s.shiftIn 5 value).bits = s.bits + 5 := rfl
  rw [takeValue]
  split
  · exact ⟨htaken.push ‹_›, show (s.shiftIn 5 value).bits - 8 < 8 by omega⟩
  · exact ⟨htaken, by omega⟩

/-- The values are the bits of the bytes, filled up with zeros. -/
lemma base32Values_digits {bytes : List ℕ} (h : ∀ b ∈ bytes, b < 2 ^ 8) :
    ∃ pad < 5, digitsValue 5 (base32Values bytes) = digitsValue 8 bytes * 2 ^ pad ∧
    5 * (base32Values bytes).length = 8 * bytes.length + pad ∧
      ∀ v ∈ base32Values bytes, v < 2 ^ 5 := by
  have hloop : (bytes.foldl takeByte {}).Holds 5 (digitsValue 8 bytes) (8 * bytes.length) ∧
      (bytes.foldl takeByte {}).bits < 5 :=
    foldl_digits (I := fun n len s => s.Holds 5 n len ∧ s.bits < 5) ⟨.empty, by decide⟩
      (fun hs hd => pushGroups_holds (hs.1.shiftIn hd (by omega))) bytes h
  rw [base32Values]
  generalize bytes.foldl takeByte {} = s at hloop ⊢
  obtain ⟨hholds, hbits⟩ := hloop
  by_cases hzero : s.bits = 0
  · rw [if_neg (by omega)]
    exact ⟨0, by decide, by simpa using hholds.digits hzero⟩
  have hfull : (s.shiftIn (5 - s.bits) 0).bits = 5 := Nat.add_sub_of_le hbits.le
  have hpadded := (hholds.shiftIn (Nat.two_pow_pos _) (by omega)).push hfull.ge
  rw [if_pos (by omega)]
  exact ⟨5 - s.bits, by omega, hpadded.digits (by rw [BitBuffer.push, hfull])⟩

/-- A loop that regroups the values of bytes gives the bytes, and keeps zeros. -/
lemma regroup_base32Values {bytes : List ℕ} (h : ∀ b ∈ bytes, b < 2 ^ 8)
      (hs : s.Holds 8 (digitsValue 5 (base32Values bytes)) (5 * (base32Values bytes).length))
    (hbits : s.bits < 8) : s.out = bytes ∧ s.acc % 2 ^ s.bits = 0 := by
  obtain ⟨pad, hpad, hvalue, hlen, -⟩ := base32Values_digits h
  rw [hvalue, hlen] at hs
  have hout := hs.out_eq (t := ⟨0, pad, bytes⟩) ⟨by simp, rfl, h⟩ hbits (by simp only; omega)
  have hlen' := hs.length_eq
  have hvalue' := hs.value_eq
  rw [hout] at hlen' hvalue'
  obtain rfl : s.bits = pad := Nat.add_left_cancel hlen'
  exact ⟨hout, by simpa using hvalue'⟩

namespace Base32

lemma takeValue_holds {n len value : ℕ} (h : (s.Holds 8 n len ∧ s.bits < 8) ∧ s.acc < 2 ^ s.bits)
      (hvalue : value < 2 ^ 5) :
    ((takeValue s value).Holds 8 (n * 2 ^ 5 + value) (len + 5) ∧ (takeValue s value).bits < 8) ∧
    (takeValue s value).acc < 2 ^ (takeValue s value).bits := by
  obtain ⟨hholds, hbits⟩ := MessageFormat.takeValue_holds h.1 hvalue
  rw [MessageFormat.takeValue] at hholds hbits
  rw [takeValue]
  split
  · rw [if_pos ‹_›] at hholds hbits
    exact ⟨⟨hholds.mask, hbits⟩, Nat.mod_lt _ (by positivity)⟩
  rw [if_neg ‹_›] at hholds hbits
  refine ⟨⟨hholds, hbits⟩, (Nat.mod_le _ _).trans_lt (Nat.or_lt_two_pow ?_ ?_)⟩
  · rw [Nat.shiftLeft_eq]
    exact (Nat.mul_lt_mul_of_pos_right h.2 (by decide)).trans_eq (pow_add 2 _ 5).symm
  · exact hvalue.trans_le (Nat.pow_le_pow_right (by decide) (Nat.le_add_left 5 _))

lemma decode_loop {values : List ℕ} (h : ∀ v ∈ values, v < 2 ^ 5) :
    ((values.foldl takeValue {}).Holds 8 (digitsValue 5 values) (5 * values.length) ∧
      (values.foldl takeValue {}).bits < 8) ∧
      (values.foldl takeValue {}).acc < 2 ^ (values.foldl takeValue {}).bits :=
  foldl_digits (I := fun n len s => (s.Holds 8 n len ∧ s.bits < 8) ∧ s.acc < 2 ^ s.bits)
    ⟨⟨.empty, by decide⟩, by decide⟩ takeValue_holds values h

lemma decode_encode {bytes : List ℕ} (h : ∀ b ∈ bytes, b < 2 ^ 8) :
    decode (encode bytes) = some bytes := by
  obtain ⟨_, -, -, -, hlt⟩ := base32Values_digits h
  obtain ⟨⟨hholds, hbits⟩, hacc⟩ := decode_loop hlt
  obtain ⟨hout, hzero⟩ := regroup_base32Values h hholds hbits
  rw [Nat.mod_eq_of_lt hacc] at hzero
  rw [decode, encode, encodeBase32, mapM_decodeValue hlt]
  simp [hzero, hout]

lemma encode_of_decode {value : Source} {bytes : List ℕ} (h : decode value = some bytes) :
    value.map canonical = encode bytes ++ if 5 ≤ 5 * value.length % 8 then [chr '0'] else [] := by
  simp only [decode, Option.bind_eq_bind, Option.bind_eq_some_iff, Option.guard_eq_some',
    exists_and_left, exists_const] at h
  obtain ⟨values, hvalues, hguard, ⟨⟩⟩ := h
  obtain ⟨hletters, hlt⟩ := map_encodeValue hvalues
  obtain ⟨⟨hloop, hbits⟩, hacc⟩ := decode_loop hlt
  generalize values.foldl takeValue {} = s at hguard hloop hbits hacc ⊢
  obtain ⟨pad, hpad, hvalue, hlen', hlt'⟩ := base32Values_digits hloop.out_lt
  have hlen := hloop.length_eq
  have hrest : 5 * value.length % 8 = s.bits := by
    rw [← value.length_map canonical, ← hletters, List.length_map, ← hlen, Nat.mul_add_mod,
      Nat.mod_eq_of_lt hbits]
  have hzero : s.acc = 0 := by
    by_contra hne
    rw [show s.bits = 0 by omega] at hacc
    omega
  have hread : digitsValue 5 values = digitsValue 8 s.out * 2 ^ s.bits := by
    rw [← hloop.value_eq, hzero, Nat.zero_mod, Nat.add_zero]
  rw [← hletters, hrest, encode, encodeBase32]
  split
  · have hmore : values = base32Values s.out ++ [0] := by
      apply digitsValue_inj (by decide) _ hlt (List.forall_mem_append.mpr ⟨hlt', by simp⟩)
      · rw [digitsValue_concat, hvalue, hread, show s.bits = pad + 5 by omega, pow_add,
          mul_assoc, Nat.add_zero]
      · rw [List.length_append, List.length_singleton]
        omega
    rw [hmore, List.map_append]
    rfl
  · obtain rfl : s.bits = pad := by omega
    rw [digitsValue_inj (by decide) (by omega) hlt hlt' (hread.trans hvalue.symm), List.append_nil]

end Base32

/-- Every byte string decodes from its code; a text that decodes is the code of its bytes up to
the letters it is written with, with one more zero where five bits or more are left over. -/
theorem base32_round_trips :
    (∀ bytes : List ℕ, (∀ b ∈ bytes, b < 2 ^ 8) →
      Base32.decode (Base32.encode bytes) = some bytes) ∧
    ∀ value bytes, Base32.decode value = some bytes → value.map canonical =
      Base32.encode bytes ++ if 5 ≤ 5 * value.length % 8 then [chr '0'] else [] :=
  ⟨fun _ => Base32.decode_encode, fun _ _ => Base32.encode_of_decode⟩

theorem base32_not_canonical :
    Base32.decode (ascii "0") = some [] ∧ Base32.decode [] = some [] := by
  decide +kernel

namespace MessageRef

/-- What `decode` reads of a code before it splits off the checksum. -/
def values (r : MessageRef) : List ℕ := base32Values r.payload ++ [checksum r.payload]

variable (r : MessageRef)

lemma payload_lt : ∀ b ∈ r.payload, b < 2 ^ 8 :=
  List.forall_mem_append.mpr ⟨pushLeb128_lt _, pushLeb128_lt _⟩

lemma encode_eq : r.encode = r.values.map encodeValue := by
  rw [encode, values, encodeBase32, List.map_append, List.map_singleton]

lemma values_lt : ∀ v ∈ r.values, v < 32 := by
  obtain ⟨_, -, -, -, hlt⟩ := base32Values_digits r.payload_lt
  exact List.forall_mem_append.mpr ⟨hlt, List.forall_mem_singleton.mpr (Nat.mod_lt _ (by decide))⟩

lemma length_encode : minCodeLen ≤ r.encode.length ∧ r.encode.length ≤ maxCodeLen := by
  have hroom := @length_pushLeb128 _ 4 (r.roomId.toNat_lt.trans (by decide))
  have hmessage := @length_pushLeb128 _ 9 (r.messageId.toNat_lt.trans (by decide))
  obtain ⟨pad, hpad, -, hlength, -⟩ := base32Values_digits r.payload_lt
  simp only [payload, List.length_append] at hlength
  simp only [encode_eq, values, payload, List.length_map, List.length_append, List.length_singleton,
    minCodeLen, maxCodeLen]
  omega

lemma readLeb128_payload :
    readLeb128 0 0 r.payload = some (r.roomId.toNat, pushLeb128 r.messageId.toNat) ∧
      readLeb128 0 0 (pushLeb128 r.messageId.toNat) = some (r.messageId.toNat, []) := by
  constructor
  · simpa [payload] using
      @readLeb128_pushLeb128 (pushLeb128 r.messageId.toNat) 9 0 _ le_rfl (by decide)
      (r.roomId.toNat_lt.trans (by decide))
  · simpa using @readLeb128_pushLeb128 [] 9 0 _ le_rfl (by decide) r.messageId.toNat_lt

lemma decode_encode : decode r.encode = some r := by
  have hvalues := mapM_decodeValue r.values_lt
  have hinit : decodeBase32 r.values.dropLast = r.payload := by
    obtain ⟨_, -, -, -, hlt⟩ := base32Values_digits r.payload_lt
    obtain ⟨hholds, hbits⟩ := foldl_digits (I := fun n len s => s.Holds 8 n len ∧ s.bits < 8)
      ⟨.empty, by decide⟩ takeValue_holds _ hlt
    rw [values, List.dropLast_concat]
    exact (regroup_base32Values r.payload_lt hholds hbits).1
  rw [← encode_eq] at hvalues
  simp only [decode, Option.bind_eq_bind, Option.bind_eq_some_iff, Option.guard_eq_some',
    Prod.exists, exists_and_left, exists_const]
  refine ⟨r.length_encode, r.values, hvalues, _, List.getLast?_concat .., ?_⟩
  rw [hinit]
  exact ⟨rfl, _, _, r.readLeb128_payload.1, r.roomId.toNat_lt, _, _, r.readLeb128_payload.2, rfl,
    by simpa using r.encode_eq, by simp⟩

lemma encode_of_decode {code : Source} {r : MessageRef} (h : decode code = some r) :
    r.encode = code.map canonical := by
  simp only [decode, Option.bind_eq_bind, Option.bind_eq_some_iff, Option.guard_eq_some',
    Prod.exists, exists_and_left, exists_const] at h
  obtain ⟨-, values, hvalues, -, -, -, roomId, -, -, -, messageId, -, -, -, hcode, ⟨⟩⟩ := h
  rw [hcode, (map_encodeValue hvalues).1]

/-- Decoding inverts encoding, the codes have between 5 and 25 letters, and a code that decodes is
its message's up to the letters it is written with. -/
theorem codes_name_messages :
    (∀ r : MessageRef, decode r.encode = some r ∧ minCodeLen ≤ r.encode.length ∧
      r.encode.length ≤ maxCodeLen) ∧
    (∀ code r, decode code = some r → r.encode = code.map canonical) ∧
    ∀ code code' r, decode code = some r → decode code' = some r →
    code.map canonical = code'.map canonical := by
  refine ⟨fun r => ⟨r.decode_encode, r.length_encode⟩, fun _ _ => encode_of_decode, ?_⟩
  intro code code' r h h'
  rw [← encode_of_decode h, ← encode_of_decode h']

end MessageRef

end Chatt.MessageFormat
