import Mathlib

/-!
# Visiting the set bits of a word

The loop that takes the lowest set bit of a word and clears it until the word is zero.  It visits
every set bit once, in at most as many rounds as the word has bits.
-/

namespace Chatt.Lib

/-- The number of zero bits below the lowest set bit of a word of `width` bits. -/
def trailingZeros : ℕ → ℕ → ℕ
  | 0, _ => 0
  | width + 1, word => if word % 2 = 1 then 0 else trailingZeros width (word / 2) + 1

/-- `while word != 0 { visit(word.trailing_zeros()); word &= word - 1; }` for a number of rounds. -/
def scanBits (width : ℕ) : ℕ → ℕ → List ℕ
  | 0, _ => []
  | rounds + 1, word =>
    if word = 0 then []
    else trailingZeros width word :: scanBits width rounds (word &&& (word - 1))

variable {width word : ℕ}

/-- What `word &= word - 1` does: it clears the lowest set bit. -/
lemma testBit_clearLowest (h0 : word ≠ 0) (hw : word < 2 ^ width) (i : ℕ) :
    (word &&& (word - 1)).testBit i =
      (word.testBit i && decide (i ≠ trailingZeros width word)) := by
  induction width generalizing word i with
  | zero => omega
  | succ width ih =>
    rw [Nat.testBit_and]
    by_cases hodd : word % 2 = 1
    · -- only the bit at zero differs
      rw [trailingZeros, if_pos hodd]
      obtain ⟨m, rfl⟩ : ∃ m, word = 2 * m + 1 := ⟨word / 2, by omega⟩
      cases i with
      | zero => simp
      | succ i => simp [Nat.testBit_succ, show (2 * m + 1) / 2 = m by omega]
    · rw [trailingZeros, if_neg hodd]
      obtain ⟨m, rfl⟩ : ∃ m, word = 2 * m := ⟨word / 2, by omega⟩
      have hm : m < 2 ^ width := by rw [Nat.pow_succ] at hw; omega
      cases i with
      | zero => simp
      | succ i =>
        have hih := ih (by omega) hm i
        simpa [Nat.testBit_succ, show (2 * m - 1) / 2 = m - 1 by omega] using hih

lemma testBit_trailingZeros (h0 : word ≠ 0) (hw : word < 2 ^ width) :
    word.testBit (trailingZeros width word) = true := by
  induction width generalizing word with
  | zero => omega
  | succ width ih =>
    rw [trailingZeros]
    split_ifs with hodd
    · simpa using hodd
    · rw [Nat.testBit_succ]
      exact ih (by omega) (by rw [Nat.pow_succ] at hw; omega)

lemma trailingZeros_le {width word i : ℕ} (hi : word.testBit i = true) :
    trailingZeros width word ≤ i := by
  induction width generalizing word i with
  | zero => simp [trailingZeros]
  | succ width ih =>
    rw [trailingZeros]
    split_ifs with hodd
    · exact Nat.zero_le i
    cases i with
    | zero => exact absurd (by simpa using hi) hodd
    | succ i =>
      rw [Nat.testBit_succ] at hi
      exact Nat.succ_le_succ (ih hi)

lemma clearLowest_lt (hw : word < 2 ^ width) : word &&& (word - 1) < 2 ^ width :=
  lt_of_le_of_lt Nat.and_le_left hw

/-- Enough rounds for the bits that are left visit every one of them, each once. -/
lemma scanBits_spec {width rounds word : ℕ} (hw : word < 2 ^ width)
      (hrounds : ∀ i, word.testBit i = true → width ≤ i + rounds) :
    (∀ i, i ∈ scanBits width rounds word ↔ word.testBit i = true) ∧
    (scanBits width rounds word).Nodup := by
  induction rounds generalizing word with
  | zero =>
    have hzero : word = 0 := by
      by_contra h0
      have hbit := testBit_trailingZeros h0 hw
      have hlt : trailingZeros width word < width := by
        by_contra hge
        have hle := Nat.pow_le_pow_right (show 0 < 2 by decide) (not_lt.mp hge)
        rw [Nat.testBit_lt_two_pow (lt_of_lt_of_le hw hle)] at hbit
        exact Bool.false_ne_true hbit
      have := hrounds _ hbit
      omega
    simp [scanBits, hzero]
  | succ rounds ih =>
    by_cases h0 : word = 0
    · simp [scanBits, h0]
    have hclear := testBit_clearLowest h0 hw
    have hrest : ∀ i, (word &&& (word - 1)).testBit i = true → width ≤ i + rounds := by
      intro i hi
      rw [hclear, Bool.and_eq_true, decide_eq_true_eq] at hi
      -- a bit that is left lies above the one that was cleared
      have hlow := hrounds _ (testBit_trailingZeros h0 hw)
      have hle := @trailingZeros_le width _ _ hi.1
      omega
    obtain ⟨hmem, hnodup⟩ := ih (clearLowest_lt hw) hrest
    rw [scanBits, if_neg h0]
    refine ⟨?_, List.nodup_cons.mpr ⟨?_, hnodup⟩⟩
    · intro i
      rw [List.mem_cons, hmem, hclear, Bool.and_eq_true, decide_eq_true_eq]
      constructor
      · rintro (rfl | hi)
        · exact testBit_trailingZeros h0 hw
        · exact hi.1
      · intro hi
        by_cases heq : i = trailingZeros width word
        · exact Or.inl heq
        · exact Or.inr ⟨hi, heq⟩
    · rw [hmem, hclear]
      simp

/-- The scan of a whole word. -/
lemma mem_scanBits (hw : word < 2 ^ width) (i : ℕ) :
    i ∈ scanBits width width word ↔ word.testBit i = true :=
  (scanBits_spec hw fun _ _ => Nat.le_add_left _ _).1 i

lemma nodup_scanBits (hw : word < 2 ^ width) : (scanBits width width word).Nodup :=
  (scanBits_spec hw fun _ _ => Nat.le_add_left _ _).2

end Chatt.Lib
