import Mathlib

/-!
# Regrouping bits

A buffer takes digits of one width at its low end and pushes digits of another width from its
high end.  Numbers are read with their most significant digit first.
-/

namespace Chatt.Lib

/-- Of `acc`, a `u32`, the low `bits` bits are still to be pushed to `out`. -/
structure BitBuffer where
  acc : ℕ := 0
  bits : ℕ := 0
  out : List ℕ := []

/-- `acc = acc << width | digit; bits += width` -/
def BitBuffer.shiftIn (s : BitBuffer) (width digit : ℕ) : BitBuffer :=
  { s with acc := (s.acc <<< width ||| digit) % 2 ^ 32, bits := s.bits + width }

/-- `bits -= width; out.push(acc >> bits)`, of which the low `width` bits are kept -/
def BitBuffer.push (s : BitBuffer) (width : ℕ) : BitBuffer :=
  { s with bits := s.bits - width, out := s.out ++ [s.acc >>> (s.bits - width) % 2 ^ width] }

def digitsValue (width : ℕ) (digits : List ℕ) : ℕ := Nat.ofDigits (2 ^ width) digits.reverse

lemma digitsValue_concat (width : ℕ) (digits : List ℕ) (d : ℕ) :
    digitsValue width (digits ++ [d]) = digitsValue width digits * 2 ^ width + d := by
  simp only [digitsValue, List.reverse_append, List.reverse_singleton, List.singleton_append,
    Nat.ofDigits_cons]
  ring

lemma digitsValue_inj {width : ℕ} {digits digits' : List ℕ} (hwidth : 0 < width)
      (hlength : digits.length = digits'.length) (hlt : ∀ d ∈ digits, d < 2 ^ width)
    (hlt' : ∀ d ∈ digits', d < 2 ^ width)
    (h : digitsValue width digits = digitsValue width digits') : digits = digits' :=
  List.reverse_injective (Nat.ofDigits_inj_of_len_eq (Nat.one_lt_two_pow hwidth.ne')
    (by simpa using hlength) (by simpa using hlt) (by simpa using hlt') h)

/-- The digits pushed and the bits in the buffer are the `len` bits of `n`. -/
structure BitBuffer.Holds (width n len : ℕ) (s : BitBuffer) : Prop where
  value_eq : digitsValue width s.out * 2 ^ s.bits + s.acc % 2 ^ s.bits = n
  length_eq : width * s.out.length + s.bits = len
  out_lt : ∀ d ∈ s.out, d < 2 ^ width

namespace BitBuffer.Holds

variable {width n len : ℕ} {s t : BitBuffer}

lemma empty : Holds width 0 0 {} := ⟨by simp [digitsValue], rfl, nofun⟩

section

variable (h : s.Holds width n len)

include h

lemma shiftIn {k d : ℕ} (hd : d < 2 ^ k) (hfit : s.bits + k ≤ 32) :
    (s.shiftIn k d).Holds width (n * 2 ^ k + d) (len + k) := by
  have hacc : (s.acc <<< k ||| d) % 2 ^ 32 % 2 ^ (s.bits + k) = s.acc % 2 ^ s.bits * 2 ^ k + d := by
    rw [Nat.mod_mod_of_dvd _ (pow_dvd_pow 2 hfit), ← Nat.shiftLeft_add_eq_or_of_lt hd,
      Nat.shiftLeft_eq, Nat.add_comm s.bits, pow_add, Nat.mod_mul, Nat.mul_add_mod_self_right,
      Nat.mod_eq_of_lt hd, Nat.add_comm d, Nat.mul_comm (2 ^ k), Nat.mul_comm s.acc,
      Nat.mul_add_div (by positivity), Nat.div_eq_of_lt hd, Nat.add_zero]
  refine ⟨?_, ?_, h.out_lt⟩
  · simp only [BitBuffer.shiftIn, hacc, ← h.value_eq]
    ring
  · simp only [BitBuffer.shiftIn, ← h.length_eq]
    omega

lemma push (hle : width ≤ s.bits) : (s.push width).Holds width n len := by
  obtain ⟨rest, hrest⟩ := Nat.exists_eq_add_of_le' hle
  refine ⟨?_, ?_, ?_⟩
  · rw [← h.value_eq]
    simp only [BitBuffer.push, digitsValue_concat, hrest, Nat.add_sub_cancel,
      Nat.shiftRight_eq_div_pow, pow_add, Nat.mod_mul]
    ring
  · simp only [BitBuffer.push, List.length_append, List.length_singleton, ← h.length_eq]
    rw [mul_add]
    omega
  · intro d hd
    rcases List.mem_append.mp hd with hd | hd
    · exact h.out_lt d hd
    · rw [List.mem_singleton.mp hd]
      exact Nat.mod_lt _ (by positivity)

/-- Of `acc` only the bits in the buffer matter. -/
lemma mask : Holds width n len { s with acc := s.acc % 2 ^ s.bits } :=
  ⟨by rw [← h.value_eq, Nat.mod_mod], h.length_eq, h.out_lt⟩

/-- Less than a digit left, the digits are those of any other buffer for the same bits. -/
lemma out_eq (h' : t.Holds width n len) (hs : s.bits < width) (ht : t.bits < width) :
    s.out = t.out := by
  have hlength : s.out.length = t.out.length ∧ s.bits = t.bits := by
    have hlen := h.length_eq.trans h'.length_eq.symm
    have hdiv := congrArg (· / width) hlen
    simp only [Nat.mul_add_div (by omega : 0 < width), Nat.div_eq_of_lt hs, Nat.div_eq_of_lt ht,
      Nat.add_zero] at hdiv
    rw [hdiv] at hlen
    exact ⟨hdiv, by omega⟩
  have hvalue : digitsValue width s.out = digitsValue width t.out := by
    have hdiv := congrArg (· / 2 ^ s.bits) (h.value_eq.trans h'.value_eq.symm)
    have hpos : 0 < 2 ^ t.bits := by positivity
    simpa [hlength.2, Nat.mul_comm _ (2 ^ t.bits), Nat.mul_add_div hpos,
      Nat.div_eq_of_lt (Nat.mod_lt _ hpos)] using hdiv
  exact digitsValue_inj (by omega) hlength.1 h.out_lt h'.out_lt hvalue

/-- Nothing left in the buffer, the digits are the number's. -/
lemma digits (hbits : s.bits = 0) :
    digitsValue width s.out = n ∧ width * s.out.length = len ∧ ∀ d ∈ s.out, d < 2 ^ width := by
  have hvalue := h.value_eq
  rw [hbits, pow_zero, Nat.mod_one, mul_one] at hvalue
  exact ⟨hvalue, by rw [← h.length_eq, hbits, Nat.add_zero], h.out_lt⟩

end

end BitBuffer.Holds

/-- What a loop over digits of `k` bits keeps of the number they are. -/
lemma foldl_digits {k : ℕ} {f : BitBuffer → ℕ → BitBuffer} {I : ℕ → ℕ → BitBuffer → Prop}
      (hempty : I 0 0 {})
    (hf : ∀ {s n len d}, I n len s → d < 2 ^ k → I (n * 2 ^ k + d) (len + k) (f s d))
    (digits : List ℕ)
    (hlt : ∀ d ∈ digits, d < 2 ^ k) :
    I (digitsValue k digits) (k * digits.length) (digits.foldl f {}) := by
  induction digits using List.reverseRecOn with
  | nil => exact hempty
  | append_singleton digits d ih =>
    rw [List.forall_mem_append, List.forall_mem_singleton] at hlt
    rw [List.foldl_concat, digitsValue_concat, List.length_append, mul_add]
    simpa using hf (ih hlt.1) hlt.2

end Chatt.Lib
