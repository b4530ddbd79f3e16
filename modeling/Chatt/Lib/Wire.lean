import Mathlib
import Chatt.Lib.Checks

/-!
# Fixed-width words in byte strings

Machine integers written little-endian, and read at an offset of a buffer.  A record is a
concatenation of words: `wordAt_putWord` and `wordAt_append` read it field by field,
`putWord_append_drop` puts the fields of a buffer back together.
-/

namespace Chatt.Lib

open List

/-! ## Bytes

The facts about bytes that definitions over them rest on have one name each, for every module. -/

instance neZeroByte : NeZero 256 := ⟨by decide⟩

instance lawfulByte : LawfulBEq (Fin 256) := inferInstance

instance lawfulBytes : LawfulBEq (List (Fin 256)) := inferInstance

instance lawfulBytes16 : LawfulBEq {b : List (Fin 256) // b.length = 16} := inferInstance

instance lawfulBytes32 : LawfulBEq {b : List (Fin 256) // b.length = 32} := inferInstance

/-! ## Integers -/

/-- The `count` low bytes of `value`, least significant first. -/
def leBytes : ℕ → ℕ → List (Fin 256)
  | 0, _ => []
  | count + 1, value => Fin.ofNat 256 value :: leBytes count (value / 256)

/-- The value of a little-endian byte string. -/
def leValue : List (Fin 256) → ℕ
  | [] => 0
  | byte :: rest => byte.val + 256 * leValue rest

@[simp] lemma length_leBytes (count value : ℕ) : (leBytes count value).length = count := by
  induction count generalizing value with
  | zero => rfl
  | succ count ih => simp [leBytes, ih]

lemma leValue_leBytes (count value : ℕ) : leValue (leBytes count value) = value % 256 ^ count := by
  induction count generalizing value with
  | zero => simp [leBytes, leValue, Nat.mod_one]
  | succ count ih =>
    have hbyte : (Fin.ofNat 256 value).val = value % 256 := rfl
    rw [leBytes, leValue, ih, hbyte, Nat.pow_succ', Nat.mod_mul]

/-- A value that fits is read back. -/
lemma leValue_leBytes_of_lt {count value : ℕ} (h : value < 256 ^ count) :
    leValue (leBytes count value) = value := by
  rw [leValue_leBytes, Nat.mod_eq_of_lt h]

variable {bytes : List (Fin 256)}
variable {x y : List (Fin 256)} {start : ℕ}

/-! ## Slices -/

/-- The `len` bytes of a buffer from `start` on. -/
def slice (bytes : List (Fin 256)) (start len : ℕ) : List (Fin 256) := (bytes.drop start).take len

lemma length_slice {len : ℕ} (h : start + len ≤ bytes.length) :
    (slice bytes start len).length = len := by
  simp only [slice, length_take, length_drop]
  omega

lemma slice_append_left {len : ℕ} (h : x.length = len) : slice (x ++ y) 0 len = x := by
  simp [slice, ← h]

lemma drop_append_right (h : x.length ≤ start) :
    (x ++ y).drop start = y.drop (start - x.length) := by
  rw [drop_append, drop_of_length_le h, nil_append]

lemma slice_append_right (h : x.length ≤ start) (len : ℕ) :
    slice (x ++ y) start len = slice y (start - x.length) len := by
  rw [slice, slice, drop_append_right h]

lemma slice_append_drop (bytes : List (Fin 256)) (start len : ℕ) :
    slice bytes start len ++ bytes.drop (start + len) = bytes.drop start := by
  rw [slice, ← drop_drop, take_append_drop]

/-- The byte at an offset that is known to be inside the buffer. -/
def byteAt (bytes : List (Fin 256)) (i : ℕ) : Fin 256 := bytes.getD i 0

@[simp] lemma byteAt_cons_zero (b : Fin 256) (rest : List (Fin 256)) : byteAt (b :: rest) 0 = b :=
  rfl

@[simp] lemma byteAt_cons_succ (b : Fin 256) (rest : List (Fin 256)) (i : ℕ) :
    byteAt (b :: rest) (i + 1) = byteAt rest i := rfl

lemma byteAt_append {i : ℕ} (h : x.length ≤ i) : byteAt (x ++ y) i = byteAt y (i - x.length) := by
  simp only [byteAt, getD_eq_getElem?_getD, getElem?_append_right h]

lemma byteAt_drop (bytes : List (Fin 256)) (start i : ℕ) :
    byteAt (bytes.drop start) i = byteAt bytes (start + i) := by
  simp only [byteAt, getD_eq_getElem?_getD, getElem?_drop]

lemma byteAt_cons_drop {i j : ℕ} (next : j = i + 1) (h : j ≤ bytes.length) :
    byteAt bytes i :: bytes.drop j = bytes.drop i := by
  subst next
  have inside : i < bytes.length := h
  rw [byteAt, getD_eq_getElem?_getD, getElem?_eq_getElem inside, Option.getD_some,
    getElem_cons_drop]

/-! ## Values of whole strings -/

lemma leValue_lt (bytes : List (Fin 256)) : leValue bytes < 256 ^ bytes.length := by
  induction bytes with
  | nil => simp [leValue]
  | cons byte rest ih =>
    rw [leValue, length_cons, Nat.pow_succ']
    omega

lemma leBytes_leValue (bytes : List (Fin 256)) : leBytes bytes.length (leValue bytes) = bytes := by
  induction bytes with
  | nil => rfl
  | cons byte rest ih =>
    have low : Fin.ofNat 256 (byte.val + 256 * leValue rest) = byte := by
      apply Fin.ext
      simp [Fin.ofNat, Nat.mod_eq_of_lt byte.isLt]
    have high : (byte.val + 256 * leValue rest) / 256 = leValue rest := by omega
    rw [length_cons, leValue, leBytes, low, high, ih]

lemma leBytes_leValue_of_length {count : ℕ} (h : bytes.length = count) :
    leBytes count (leValue bytes) = bytes := by
  rw [← h, leBytes_leValue]

lemma leBytes_inj {count a b : ℕ} (ha : a < 256 ^ count) (hb : b < 256 ^ count)
    (h : leBytes count a = leBytes count b) : a = b := by
  rw [← leValue_leBytes_of_lt ha, h, leValue_leBytes_of_lt hb]

/-! ## Words -/

/-- An unsigned machine integer of `width` bytes. -/
class Word (α : Type) where
  width : ℕ
  toNat : α → ℕ
  ofNat : ℕ → α
  toNat_lt : ∀ x, toNat x < 256 ^ width
  ofNat_toNat : ∀ x, ofNat (toNat x) = x
  toNat_ofNat : ∀ n, n < 256 ^ width → toNat (ofNat n) = n

instance wordUInt16 : Word UInt16 where
  width := 2
  toNat := UInt16.toNat
  ofNat := UInt16.ofNat
  toNat_lt x := x.toNat_lt
  ofNat_toNat _ := UInt16.ofNat_toNat
  toNat_ofNat _ h := UInt16.toNat_ofNat_of_lt' h

instance wordUInt32 : Word UInt32 where
  width := 4
  toNat := UInt32.toNat
  ofNat := UInt32.ofNat
  toNat_lt x := x.toNat_lt
  ofNat_toNat _ := UInt32.ofNat_toNat
  toNat_ofNat _ h := UInt32.toNat_ofNat_of_lt' h

instance wordUInt64 : Word UInt64 where
  width := 8
  toNat := UInt64.toNat
  ofNat := UInt64.ofNat
  toNat_lt x := x.toNat_lt
  ofNat_toNat _ := UInt64.ofNat_toNat
  toNat_ofNat _ h := UInt64.toNat_ofNat_of_lt' h

@[simp] lemma width_uint16 : Word.width UInt16 = 2 := rfl

@[simp] lemma width_uint32 : Word.width UInt32 = 4 := rfl

@[simp] lemma width_uint64 : Word.width UInt64 = 8 := rfl

section Words

variable {α : Type} [Word α]

/-- `to_le_bytes` -/
def putWord (x : α) : List (Fin 256) := leBytes (Word.width α) (Word.toNat x)

variable (α) in
/-- `from_le_bytes` of the bytes at `start`. -/
def wordAt (bytes : List (Fin 256)) (start : ℕ) : α :=
  Word.ofNat (leValue (slice bytes start (Word.width α)))

@[simp] lemma length_putWord (x : α) : (putWord x).length = Word.width α := length_leBytes _ _

lemma putWord_inj {x y : α} : putWord x = putWord y ↔ x = y := by
  refine ⟨fun h => ?_, congrArg putWord⟩
  rw [← Word.ofNat_toNat x, ← Word.ofNat_toNat y, leBytes_inj (Word.toNat_lt x) (Word.toNat_lt y) h]

@[simp] lemma wordAt_putWord (x : α) (rest : List (Fin 256)) :
    wordAt α (putWord x ++ rest) 0 = x := by
  rw [wordAt, slice_append_left (length_putWord x), putWord,
    leValue_leBytes_of_lt (Word.toNat_lt x), Word.ofNat_toNat]

@[simp] lemma wordAt_putWord_self (x : α) : wordAt α (putWord x) 0 = x := by
  have h := wordAt_putWord x []
  rwa [append_nil] at h

lemma wordAt_append (h : x.length ≤ start) :
    wordAt α (x ++ y) start = wordAt α y (start - x.length) := by
  rw [wordAt, slice_append_right h, wordAt]

lemma wordAt_cons (b : Fin 256) (y : List (Fin 256)) (start : ℕ) :
    wordAt α (b :: y) (start + 1) = wordAt α y start := rfl

lemma wordAt_drop (bytes : List (Fin 256)) (start i : ℕ) :
    wordAt α (bytes.drop start) i = wordAt α bytes (start + i) := by
  rw [wordAt, wordAt, slice, slice, drop_drop]

lemma wordAt_take {n : ℕ} (h : start + Word.width α ≤ n) :
    wordAt α (bytes.take n) start = wordAt α bytes start := by
  have inside : min (Word.width α) (n - start) = Word.width α := by omega
  rw [wordAt, wordAt, slice, slice, drop_take, take_take, inside]

lemma putWord_wordAt (h : start + Word.width α ≤ bytes.length) :
    putWord (wordAt α bytes start) = slice bytes start (Word.width α) := by
  have len := length_slice h
  have fits : leValue (slice bytes start (Word.width α)) < 256 ^ Word.width α := by
    calc leValue (slice bytes start (Word.width α))
        < 256 ^ (slice bytes start (Word.width α)).length := leValue_lt _
      _ = 256 ^ Word.width α := by rw [len]
  rw [putWord, wordAt, Word.toNat_ofNat _ fits, leBytes_leValue_of_length len]

/-- A word read at `start` and what follows it are the buffer from `start` on. -/
lemma putWord_append_drop {next : ℕ} (stop : next = start + Word.width α)
      (h : next ≤ bytes.length) :
    putWord (wordAt α bytes start) ++ bytes.drop next = bytes.drop start := by
  subst stop
  rw [putWord_wordAt h, slice_append_drop]

lemma putWord_last (h : bytes.length = start + Word.width α) :
    putWord (wordAt α bytes start) = bytes.drop start := by
  have glue := putWord_append_drop (α := α) h le_rfl
  rwa [drop_length, append_nil] at glue

end Words

/-! ## Big-endian words -/

variable {α : Type} [Word α]

/-- `to_be_bytes` -/
def putWordBe (x : α) : List (Fin 256) := (putWord x).reverse

variable (α) in
/-- `from_be_bytes` -/
def wordBe (bytes : List (Fin 256)) : α := Word.ofNat (leValue bytes.reverse)

@[simp] lemma length_putWordBe (x : α) : (putWordBe x).length = Word.width α := by simp [putWordBe]

@[simp] lemma wordBe_putWordBe (x : α) : wordBe α (putWordBe x) = x := by
  rw [wordBe, putWordBe, List.reverse_reverse, putWord, leValue_leBytes_of_lt (Word.toNat_lt x),
    Word.ofNat_toNat]

/-! ## Reading

A reader consumes a front part of the bytes and returns a value, or fails.  `Reads x bytes a`
says that `x` consumes exactly `bytes` and returns `a` whatever follows, and composes along `++`;
`bind_reads` and the `_eq_ok` lemmas read a successful run backwards, one part at a time. -/

abbrev Reader (α : Type) := StateT (List (Fin 256)) (Except String) α

namespace Reader

variable {α β : Type}

/-- The next `len` bytes. -/
def take (ended : String) (len : ℕ) : Reader (List (Fin 256)) := fun bytes =>
  if len ≤ bytes.length then .ok (bytes.take len, bytes.drop len) else .error ended

def byte (ended : String) : Reader (Fin 256) := do
  let bytes ← take ended 1
  return byteAt bytes 0

def word (ended : String) (α : Type) [Word α] : Reader α := do
  let bytes ← take ended (Word.width α)
  return wordAt α bytes 0

/-- Fails with `message` when `bad` holds. -/
def refuse (bad : Prop) [Decidable bad] (message : String) : Reader Unit := fun bytes =>
  if bad then .error message else .ok ((), bytes)

/-- `x` consumes `bytes` and returns `a`, whatever follows. -/
def Reads (x : Reader α) (bytes : List (Fin 256)) (a : α) : Prop :=
  ∀ rest, x (bytes ++ rest) = .ok (a, rest)

/-! ## Reading forwards -/

lemma Reads.pure (a : α) : Reads (pure a : Reader α) [] a := fun _ => rfl

lemma Reads.bind {x : Reader α} {f : α → Reader β} {bytes bytes' : List (Fin 256)} {a : α} {b : β}
    (hx : Reads x bytes a) (hf : Reads (f a) bytes' b) : Reads (x >>= f) (bytes ++ bytes') b := by
  intro rest
  have first := hx (bytes' ++ rest)
  show (x (bytes ++ bytes' ++ rest) >>= fun r => f r.1 r.2) = _
  rw [append_assoc, first]
  exact hf rest

/-- A step that consumes nothing. -/
lemma Reads.bind_nil {x : Reader α} {f : α → Reader β} {bytes : List (Fin 256)} {a : α} {b : β}
    (hx : Reads x [] a) (hf : Reads (f a) bytes b) : Reads (x >>= f) bytes b :=
  Reads.bind hx hf

lemma reads_take (ended : String) {bytes : List (Fin 256)} {len : ℕ} (h : bytes.length = len) :
    Reads (take ended len) bytes bytes := by
  intro rest
  rw [take, if_pos (by rw [length_append]; omega), take_left' h, drop_left' h]

lemma reads_byte (ended : String) (b : Fin 256) : Reads (byte ended) [b] b := by
  have taken : Reads (take ended 1) [b] [b] := reads_take ended rfl
  exact Reads.bind taken (Reads.pure b)

lemma reads_word (ended : String) [Word α] (x : α) : Reads (word ended α) (putWord x) x := by
  have step : Reads (word ended α) (putWord x ++ []) (wordAt α (putWord x) 0) :=
    Reads.bind (reads_take ended (length_putWord x)) (Reads.pure _)
  rwa [append_nil, wordAt_putWord_self] at step

lemma reads_refuse {bad : Prop} [Decidable bad] (message : String) (good : ¬ bad) :
    Reads (refuse bad message) [] () := by
  intro rest
  rw [refuse, if_neg good]
  rfl

/-! ## Reading backwards -/

section

variable {bytes rest : List (Fin 256)}

lemma bind_reads {x : Reader α} {f : α → Reader β} {r : β × List (Fin 256)} :
    (x >>= f) bytes = .ok r ↔ ∃ a rest, x bytes = .ok (a, rest) ∧ f a rest = .ok r := by
  have unfolded : (x >>= f) bytes = (x bytes >>= fun r => f r.1 r.2) := rfl
  rw [unfolded, bind_eq_ok]
  constructor
  · rintro ⟨⟨a, rest⟩, first, second⟩
    exact ⟨a, rest, first, second⟩
  · rintro ⟨a, rest, first, second⟩
    exact ⟨(a, rest), first, second⟩

lemma take_eq_ok {ended : String} {len : ℕ} {front : List (Fin 256)}
    (h : take ended len bytes = .ok (front, rest)) :
    bytes = front ++ rest ∧ front.length = len := by
  rw [take] at h
  split at h
  · next long =>
    cases h
    exact ⟨(take_append_drop len bytes).symm, by rw [length_take, min_eq_left long]⟩
  · cases h

lemma byte_eq_ok {ended : String} {b : Fin 256} (h : byte ended bytes = .ok (b, rest)) :
    bytes = b :: rest := by
  obtain ⟨front, rest', taken, value⟩ := bind_reads.mp h
  cases value
  obtain ⟨rfl, one⟩ := take_eq_ok taken
  obtain ⟨b, rfl⟩ := length_eq_one_iff.mp one
  rfl

lemma word_eq_ok {ended : String} [Word α] {x : α} (h : word ended α bytes = .ok (x, rest)) :
    bytes = putWord x ++ rest := by
  obtain ⟨front, rest', taken, value⟩ := bind_reads.mp h
  cases value
  obtain ⟨rfl, len⟩ := take_eq_ok taken
  rw [putWord_last (by rw [len, Nat.zero_add])]
  rfl

lemma refuse_eq_ok {bad : Prop} [Decidable bad] {message : String} {u : Unit}
    (h : refuse bad message bytes = .ok (u, rest)) : ¬ bad ∧ rest = bytes := by
  rw [refuse] at h
  split at h
  · cases h
  · next good =>
    cases h
    exact ⟨good, rfl⟩

end

end Reader

end Chatt.Lib
