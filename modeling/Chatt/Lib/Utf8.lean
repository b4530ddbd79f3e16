import Mathlib

/-!
# UTF-8

A text is the list of its characters; `utf8` is its bytes, and `fromUtf8` reads bytes that are
well formed.
-/

namespace Chatt.Lib

open List

def utf8 (text : List Char) : List (Fin 256) := (text.flatMap String.utf8EncodeChar).map UInt8.toFin

def fromUtf8 (bytes : List (Fin 256)) : Option (List Char) :=
  (String.fromUTF8? (bytes.map UInt8.ofFin).toByteArray).map String.toList

lemma fromUtf8_utf8 (text : List Char) : fromUtf8 (utf8 text) = some text := by
  have hbytes : ((utf8 text).map UInt8.ofFin).toByteArray = (String.ofList text).toByteArray := by
    rw [String.toByteArray_ofList, List.utf8Encode, utf8, map_map]
    congr 1
    exact map_id _
  rw [fromUtf8, hbytes, String.fromUTF8?, dif_pos (String.ofList text).isValidUTF8]
  exact congrArg some String.toList_ofList

/-! ## Character boundaries -/

/-- A byte `10xxxxxx`. -/
def isContinuation (byte : Fin 256) : Bool := byte.val / 64 == 2

/-- `str::is_char_boundary`. -/
def CharBoundary (bytes : List (Fin 256)) (i : ℕ) : Prop :=
  i = 0 ∨ i = bytes.length ∨ ∃ byte, bytes[i]? = some byte ∧ isContinuation byte = false

lemma CharBoundary.le {bytes : List (Fin 256)} {i : ℕ} (h : CharBoundary bytes i) :
    i ≤ bytes.length := by
  rcases h with h | h | ⟨byte, h, _⟩
  · omega
  · omega
  · exact (List.getElem?_eq_some_iff.mp h).1.le

/-- The bytes of a character beyond the first 128: all above, the first starts a character. -/
def IsLong (bytes : List (Fin 256)) : Prop :=
  ∃ first rest, bytes = first :: rest ∧ isContinuation first = false ∧
    ∀ byte ∈ bytes, 128 ≤ byte.val

lemma isLong_of_lead {first : ℕ} {rest : List ℕ} (hfirst : 192 ≤ first ∧ first < 256)
    (hrest : ∀ n ∈ rest, 128 ≤ n ∧ n < 256) :
    IsLong (((first :: rest).map UInt8.ofNat).map UInt8.toFin) := by
  have hval : ∀ n, (UInt8.ofNat n).toFin.val = n % 256 := fun n => rfl
  refine ⟨_, _, rfl, ?_, ?_⟩
  · rw [isContinuation, hval, beq_eq_false_iff_ne]
    omega
  intro byte hbyte
  simp only [map_map, mem_map, mem_cons, Function.comp_apply] at hbyte
  obtain ⟨n, hn, rfl⟩ := hbyte
  rw [hval]
  rcases hn with rfl | hn
  · omega
  · have hn := hrest n hn
    omega

/-- One character is one byte below 128, or a long one. -/
lemma utf8_char (c : Char) : (∃ byte, utf8 [c] = [byte] ∧ byte.val < 128) ∨ IsLong (utf8 [c]) := by
  have hval : utf8 [c] = (String.utf8EncodeChar c).map UInt8.toFin := by simp [utf8]
  rw [hval]
  unfold String.utf8EncodeChar
  generalize c.val.toNat = v
  dsimp only
  split_ifs with h1 h2 h3
  · left
    refine ⟨_, rfl, ?_⟩
    change v % 256 < 128
    omega
  · right
    refine @isLong_of_lead _ [v % 64 + 128] (by omega) ?_
    intro n hn
    rw [mem_singleton] at hn
    omega
  · right
    refine @isLong_of_lead _ [v / 64 % 64 + 128, v % 64 + 128] (by omega) ?_
    intro n hn
    simp only [mem_cons, not_mem_nil, or_false] at hn
    omega
  · right
    refine @isLong_of_lead _ [v / 4096 % 64 + 128, v / 64 % 64 + 128, v % 64 + 128] (by omega) ?_
    intro n hn
    simp only [mem_cons, not_mem_nil, or_false] at hn
    omega

lemma utf8_cons (c : Char) (text : List Char) : utf8 (c :: text) = utf8 [c] ++ utf8 text := by
  simp [utf8]

lemma utf8_head {text : List Char} {byte : Fin 256} (h : (utf8 text)[0]? = some byte) :
    isContinuation byte = false := by
  cases text with
  | nil => simp [utf8] at h
  | cons c text =>
    rw [utf8_cons] at h
    rcases utf8_char c with ⟨only, honly, hlt⟩ | ⟨first, rest, hlong, hfirst, _⟩
    · rw [honly] at h
      have heq : only = byte := by simpa using h
      rw [isContinuation, beq_eq_false_iff_ne, ← heq]
      omega
    · rw [hlong] at h
      have heq : first = byte := by simpa using h
      rw [← heq]
      exact hfirst

/-- After a byte below 128 a character starts. -/
lemma utf8_after_ascii {text : List Char} {i : ℕ} {byte next : Fin 256}
      (hbyte : (utf8 text)[i]? = some byte)
    (hlt : byte.val < 128) (hnext : (utf8 text)[i + 1]? = some next) :
    isContinuation next = false := by
  induction text generalizing i with
  | nil => simp [utf8] at hbyte
  | cons c text ih =>
    rw [utf8_cons] at hbyte hnext
    by_cases hi : i < (utf8 [c]).length
    · rw [getElem?_append_left hi] at hbyte
      have hmem := mem_of_getElem? hbyte
      rcases utf8_char c with ⟨only, honly, _⟩ | ⟨first, rest, _, _, hall⟩
      · rw [honly] at hi hnext
        have hzero : i = 0 := by simpa using hi
        rw [hzero] at hnext
        exact utf8_head (by simpa using hnext)
      · have hge := hall byte hmem
        omega
    · have hle := Nat.le_of_not_lt hi
      rw [getElem?_append_right hle] at hbyte
      rw [getElem?_append_right (Nat.le_succ_of_le hle), Nat.succ_sub hle] at hnext
      exact ih hbyte hnext

/-- Both sides of a byte below 128 are character boundaries. -/
lemma charBoundary_of_ascii {text : List Char} {i : ℕ} {byte : Fin 256}
      (h : (utf8 text)[i]? = some byte)
    (hlt : byte.val < 128) : CharBoundary (utf8 text) i ∧ CharBoundary (utf8 text) (i + 1) := by
  constructor
  · refine .inr (.inr ⟨byte, h, ?_⟩)
    rw [isContinuation, beq_eq_false_iff_ne]
    omega
  · rcases Option.eq_none_or_eq_some (utf8 text)[i + 1]? with hnone | ⟨next, hnext⟩
    · have hlow := (List.getElem?_eq_some_iff.mp h).1
      have hhigh := List.getElem?_eq_none_iff.mp hnone
      exact .inr (.inl (by omega))
    · exact .inr (.inr ⟨next, hnext, utf8_after_ascii h hlt hnext⟩)

end Chatt.Lib
