import Chatt.Model.AntiReplay

/-!
# The replay window stands for a set of counters

The ring keeps one bit for every counter whose word is one of the last 32.  `Represents` ties
those bits to the list of counters accepted so far; one `update` keeps it, so a whole run does.
-/

namespace Chatt.AntiReplay

/-! ## Words and bits -/

/-- The bit the ring keeps for a counter. -/
def marked (bitmap : Vector UInt64 32) (c : UInt64) : Bool :=
  (bitmap.get (slot (c / 64))).toNat.testBit (c.toNat % 64)

lemma slot_val (index : UInt64) : (slot index).val = index.toNat % 32 := by
  show (index &&& 31).toNat = _
  exact Nat.and_two_pow_sub_one_eq_mod index.toNat 5

lemma slot_eq {i j : UInt64} : slot i = slot j ↔ i.toNat % 32 = j.toNat % 32 := by
  rw [← Fin.val_inj, slot_val, slot_val]

@[simp] lemma toNat_word (c : UInt64) : (c / 64).toNat = c.toNat / 64 := by simp [UInt64.toNat_div]

lemma bit_toNat (c : UInt64) : (bit c).toNat = 2 ^ (c.toNat % 64) := by
  have low : (c &&& 63).toNat = c.toNat % 64 := by exact Nat.and_two_pow_sub_one_eq_mod c.toNat 6
  have small : c.toNat % 64 < 64 := Nat.mod_lt _ (by decide)
  have fits : 2 ^ (c.toNat % 64) < 2 ^ 64 := Nat.pow_lt_pow_right (by decide) small
  rw [bit, UInt64.toNat_shiftLeft, low]
  rw [show (1 : UInt64).toNat = 1 from rfl, Nat.mod_eq_of_lt small, Nat.one_shiftLeft,
    Nat.mod_eq_of_lt fits]

lemma testBit_bit (c : UInt64) (i : ℕ) : (bit c).toNat.testBit i = decide (c.toNat % 64 = i) := by
  rw [bit_toNat, Nat.testBit_two_pow]

variable (bitmap : Vector UInt64 32) {c : UInt64}

/-- The test of `check` reads the counter's bit. -/
lemma and_bit_eq_zero (c : UInt64) :
    (bitmap.get (slot (c / 64)) &&& bit c == 0) = !marked bitmap c := by
  have zero : bitmap.get (slot (c / 64)) &&& bit c = 0 ↔ marked bitmap c = false := by
    rw [← UInt64.toNat_inj, UInt64.toNat_and, bit_toNat, Nat.and_two_pow, ← marked]
    cases marked bitmap c <;> simp
  rw [Bool.eq_iff_iff, beq_iff_eq, zero]
  simp

/-- Writing a word changes the bits of that slot only. -/
lemma marked_set (s : Fin 32) (word c : UInt64) :
    marked (bitmap.set s word) c = if slot (c / 64) = s then word.toNat.testBit (c.toNat % 64)
    else marked bitmap c := by
  have read : (bitmap.set s word).get (slot (c / 64)) = if slot (c / 64) = s then word
      else bitmap.get (slot (c / 64)) := by
    simp only [Vector.get_eq_getElem, Vector.getElem_set, Fin.val_inj, eq_comm]
  rw [marked, read]
  split <;> rfl

/-- Two counters share their bit when their words share a slot and their places agree. -/
lemma marked_insert (s : Fin 32) (c d : UInt64) :
    marked (bitmap.set s (bitmap.get s ||| bit c)) d =
      (marked bitmap d || decide (slot (d / 64) = s ∧ c.toNat % 64 = d.toNat % 64)) := by
  rw [marked_set]
  split
  · next same =>
    rw [UInt64.toNat_or, Nat.testBit_or, testBit_bit, marked, same]
    simp
  · next other => simp [other]

/-! ## Sliding -/

/-- Clearing the slots of `count` words after `start`. -/
lemma marked_clear (start : UInt64) (count : ℕ) (c : UInt64) :
    marked ((List.range count).foldl (fun bitmap i =>
      bitmap.set (slot (start + UInt64.ofNat i + 1)) 0) bitmap) c =
      (marked bitmap c && decide (∀ i < count,
        slot (c / 64) ≠ slot (start + UInt64.ofNat i + 1))) := by
  induction count with
  | zero => simp
  | succ count ih =>
    rw [List.range_succ, List.foldl_append, List.foldl_cons, List.foldl_nil, marked_set, ih]
    have peel : (∀ i < count + 1, slot (c / 64) ≠ slot (start + UInt64.ofNat i + 1)) ↔
        (∀ i < count, slot (c / 64) ≠ slot (start + UInt64.ofNat i + 1)) ∧
        slot (c / 64) ≠ slot (start + UInt64.ofNat count + 1) := by
      refine ⟨fun all => ⟨fun i hi => all i (by omega), all count (by omega)⟩, ?_⟩
      rintro ⟨before, here⟩ i hi
      rcases Nat.lt_succ_iff_lt_or_eq.mp hi with lt | rfl
      · exact before i lt
      · exact here
    simp only [peel]
    split
    · next same => simp [same]
    · next other => simp [other]

/-- The word that is cleared in round `i`. -/
lemma toNat_cleared {start : UInt64} {i : ℕ} (fits : start.toNat + i + 1 < 2 ^ 64) :
    (start + UInt64.ofNat i + 1).toNat = start.toNat + i + 1 := by
  rw [UInt64.toNat_add, UInt64.toNat_add, UInt64.toNat_ofNat']
  simp only [UInt64.reduceToNat]
  omega

/-- After a slide a counter of the new window keeps its bit if its word was in the window
before, and has none otherwise. -/
lemma marked_slide {r : AntiReplay} {d : UInt64} (later : r.last < c)
      (upper : d.toNat / 64 ≤ c.toNat / 64) (lower : c.toNat / 64 < d.toNat / 64 + 32) :
    marked (r.slide c).bitmap d =
      (marked r.bitmap d && decide (d.toNat / 64 ≤ r.last.toNat / 64)) := by
  have ordered : r.last.toNat < c.toNat := UInt64.lt_iff_toNat_lt.mp later
  have words : r.last.toNat / 64 ≤ c.toNat / 64 := Nat.div_le_div_right ordered.le
  have bound : c.toNat < 2 ^ 64 := c.toNat_lt
  have diff : (c / 64 - r.last / 64).toNat = c.toNat / 64 - r.last.toNat / 64 := by
    rw [UInt64.toNat_sub_of_le _ _ (by rw [UInt64.le_iff_toNat_le]; simpa using words)]
    simp
  by_cases far : c / 64 - r.last / 64 ≥ 32
  · -- the whole ring is new
    have apart : 32 ≤ c.toNat / 64 - r.last.toNat / 64 := by
      rw [← diff]
      exact UInt64.le_iff_toNat_le.mp far
    have after : ¬ d.toNat / 64 ≤ r.last.toNat / 64 := by omega
    have blank : marked (Vector.replicate 32 0) d = false := by simp [marked]
    simp only [slide, if_pos far, after, decide_false, Bool.and_false, blank]
  · simp only [slide, if_neg far, marked_clear, diff]
    congr 1
    rw [decide_eq_decide]
    constructor
    · intro kept
      by_contra new
      -- the word of `d` is cleared in the round that reaches it
      have round := kept (d.toNat / 64 - r.last.toNat / 64 - 1) (by omega)
      rw [ne_eq, slot_eq, toNat_cleared (by simp only [toNat_word]; omega), toNat_word,
        toNat_word] at round
      omega
    · intro old i hi
      rw [ne_eq, slot_eq, toNat_cleared (by simp only [toNat_word]; omega), toNat_word, toNat_word]
      omega

/-! ## What the window stands for -/

/-- The window stands for the counters `seen`: `last` is the largest of them (zero if there is
none) and every counter of the last 32 words has its bit exactly when it was seen. -/
structure Represents (r : AntiReplay) (seen : List UInt64) : Prop where
  le_last : ∀ c ∈ seen, c ≤ r.last
  last_mem : seen ≠ [] → r.last ∈ seen
  last_zero : seen = [] → r.last = 0
  marks : ∀ c : UInt64, c.toNat / 64 ≤ r.last.toNat / 64 → r.last.toNat / 64 < c.toNat / 64 + 32 →
    (marked r.bitmap c = true ↔ c ∈ seen)

lemma represents_new : Represents new [] where
  le_last := by simp
  last_mem := by simp
  last_zero := fun _ => rfl
  marks := by simp [marked, new]

/-- The counters that are accepted: never seen, and at most 1984 below the largest one seen. -/
def Fresh (seen : List UInt64) (c : UInt64) : Prop :=
  c ∉ seen ∧ ∀ a ∈ seen, a.toNat ≤ c.toNat + 1984

namespace Represents

variable {r : AntiReplay} {seen : List UInt64}

lemma not_mem_of_gt (h : Represents r seen) (later : r.last < c) : c ∉ seen :=
  fun mem => absurd (h.le_last c mem) (UInt64.not_le.mpr later)

lemma within_iff (h : Represents r seen) (c : UInt64) :
    (∀ a ∈ seen, a.toNat ≤ c.toNat + 1984) ↔ r.last.toNat ≤ c.toNat + 1984 := by
  constructor
  · intro all
    by_cases none : seen = []
    · simp [h.last_zero none]
    · exact all _ (h.last_mem none)
  · intro last a mem
    exact (UInt64.le_iff_toNat_le.mp (h.le_last a mem)).trans last

lemma check_iff (h : Represents r seen) (c : UInt64) : r.check c = true ↔ Fresh seen c := by
  rw [Fresh, h.within_iff, check]
  split
  · next later =>
    have := UInt64.lt_iff_toNat_lt.mp later
    exact iff_of_true rfl ⟨h.not_mem_of_gt later, by omega⟩
  next early =>
  have ordered : c ≤ r.last := UInt64.not_lt.mp early
  have ordered' := UInt64.le_iff_toNat_le.mp ordered
  have gap : r.last - c > replayWindowSize ↔ 1984 < r.last.toNat - c.toNat := by
    rw [gt_iff_lt, UInt64.lt_iff_toNat_lt, UInt64.toNat_sub_of_le _ _ ordered]
    rfl
  split
  · next old =>
    have := gap.mp old
    refine iff_of_false (by simp) ?_
    rintro ⟨-, inside⟩
    omega
  · next inside =>
    rw [gap] at inside
    show (r.bitmap.get (slot (c / 64)) &&& bit c == 0) = true ↔ _
    rw [and_bit_eq_zero, Bool.not_eq_true', ← Bool.not_eq_true, h.marks c (by omega) (by omega)]
    exact ⟨fun absent => ⟨absent, by omega⟩, And.left⟩

lemma verdict_iff (h : Represents r seen) (c : UInt64) : (r.update c).2 = true ↔ Fresh seen c := by
  rw [← h.check_iff c, update]
  split <;> simp_all

/-- Within one window two counters share a bit only if they are the same. -/
lemma same_bit {d top : UInt64} (cUpper : c.toNat / 64 ≤ top.toNat / 64)
      (cLower : top.toNat / 64 < c.toNat / 64 + 32) (dUpper : d.toNat / 64 ≤ top.toNat / 64)
    (dLower : top.toNat / 64 < d.toNat / 64 + 32) :
    (slot (d / 64) = slot (c / 64) ∧ c.toNat % 64 = d.toNat % 64) ↔ d = c := by
  rw [slot_eq, toNat_word, toNat_word, ← UInt64.toNat_inj]
  omega

/-- Setting the bit of a counter of the window adds that counter. -/
lemma insert_marks {bitmap : Vector UInt64 32} {top : UInt64} {s : Fin 32}
      (hslot : s = slot (c / 64))
    (marks : ∀ d : UInt64, d.toNat / 64 ≤ top.toNat / 64 → top.toNat / 64 < d.toNat / 64 + 32 →
      (marked bitmap d = true ↔ d ∈ seen))
    (upper : c.toNat / 64 ≤ top.toNat / 64) (lower : top.toNat / 64 < c.toNat / 64 + 32)
    (d : UInt64) (dUpper : d.toNat / 64 ≤ top.toNat / 64)
    (dLower : top.toNat / 64 < d.toNat / 64 + 32) :
    marked (bitmap.set s (bitmap.get s ||| bit c)) d = true ↔ d ∈ c :: seen := by
  rw [marked_insert, hslot, Bool.or_eq_true, marks d dUpper dLower, decide_eq_true_iff,
    same_bit upper lower dUpper dLower, List.mem_cons]
  exact or_comm

lemma slide_marks (h : Represents r seen) (later : r.last < c) (d : UInt64)
      (upper : d.toNat / 64 ≤ c.toNat / 64)
    (lower : c.toNat / 64 < d.toNat / 64 + 32) : marked (r.slide c).bitmap d = true ↔ d ∈ seen := by
  have ordered := UInt64.lt_iff_toNat_lt.mp later
  rw [marked_slide later upper lower, Bool.and_eq_true, decide_eq_true_iff]
  constructor
  · rintro ⟨bit, old⟩
    exact (h.marks d old (by omega)).mp bit
  · intro mem
    have old := UInt64.le_iff_toNat_le.mp (h.le_last d mem)
    have old' : d.toNat / 64 ≤ r.last.toNat / 64 := Nat.div_le_div_right old
    exact ⟨(h.marks d old' (by omega)).mpr mem, old'⟩

lemma update_accepted (h : Represents r seen) (fresh : Fresh seen c) :
    Represents (r.update c).1 (c :: seen) := by
  have inside := (h.within_iff c).mp fresh.2
  have checked : ¬ r.check c = false := by rw [(h.check_iff c).mpr fresh]; simp
  rw [update, if_neg checked]
  by_cases later : c > r.last
  · simp only [if_pos later]
    refine ⟨?_, fun _ => List.mem_cons_self, by simp, ?_⟩
    · intro a mem
      rcases List.mem_cons.mp mem with rfl | mem
      · exact UInt64.le_refl _
      · exact UInt64.le_trans (h.le_last a mem) (UInt64.le_of_lt later)
    · exact insert_marks rfl (h.slide_marks later) le_rfl (Nat.lt_add_of_pos_right (by decide))
  · simp only [if_neg later]
    have ordered : c ≤ r.last := UInt64.not_lt.mp later
    have ordered' := UInt64.le_iff_toNat_le.mp ordered
    refine ⟨?_, ?_, by simp, ?_⟩
    · exact List.forall_mem_cons.mpr ⟨ordered, h.le_last⟩
    · intro _
      by_cases none : seen = []
      · have zero := h.last_zero none
        have : c = r.last := by
          apply UInt64.toNat_inj.mp
          rw [zero] at ordered' ⊢
          simpa using ordered'
        exact List.mem_cons.mpr (Or.inl this.symm)
      · exact List.mem_cons_of_mem _ (h.last_mem none)
    · have upper : c.toNat / 64 ≤ r.last.toNat / 64 := Nat.div_le_div_right ordered'
      have lower : r.last.toNat / 64 < c.toNat / 64 + 32 := by omega
      exact insert_marks rfl h.marks upper lower

end Represents

/-- A rejected counter leaves the window as it was. -/
lemma update_rejected {r : AntiReplay} (rejected : (r.update c).2 = false) :
    (r.update c).1 = r := by
  rw [update] at rejected ⊢
  split
  · rfl
  · next accepted => simp [accepted] at rejected

lemma check_eq_verdict (r : AntiReplay) (c : UInt64) : r.check c = (r.update c).2 := by
  rw [update]
  split <;> simp_all

/-! ## Runs -/

/-- The window after a sequence of updates, with the counters accepted on the way, latest first. -/
def run (fed : List UInt64) : AntiReplay × List UInt64 :=
  fed.foldl (fun s c => ((s.1.update c).1, if (s.1.update c).2 then c :: s.2 else s.2)) (new, [])

lemma run_snoc (fed : List UInt64) (c : UInt64) :
    run (fed ++ [c]) = (((run fed).1.update c).1, if ((run fed).1.update c).2 then c :: (run fed).2
      else (run fed).2) := by
  rw [run, List.foldl_append]
  rfl

lemma run_represents (fed : List UInt64) :
    Represents (run fed).1 (run fed).2 ∧ (run fed).2.Nodup := by
  induction fed using List.reverseRecOn with
  | nil => exact ⟨represents_new, List.nodup_nil⟩
  | append_singleton fed c ih =>
    obtain ⟨window, distinct⟩ := ih
    rw [run_snoc]
    by_cases accepted : ((run fed).1.update c).2 = true
    · have fresh := (window.verdict_iff c).mp accepted
      simp only [accepted, if_true]
      exact ⟨window.update_accepted fresh, List.nodup_cons.mpr ⟨fresh.1, distinct⟩⟩
    · rw [if_neg accepted, update_rejected (Bool.not_eq_true _ ▸ accepted)]
      exact ⟨window, distinct⟩

/-- After any sequence of counters the window accepts exactly the counters that were never
accepted and are at most 1984 below the largest accepted one; `check` gives the same verdict; and
no counter was accepted twice. -/
theorem refines_seen_counters (fed : List UInt64) :
    (∀ c, ((run fed).1.update c).2 = true ↔ c ∉ (run fed).2 ∧
      ∀ a ∈ (run fed).2, a.toNat ≤ c.toNat + 1984) ∧
      (∀ c, (run fed).1.check c = ((run fed).1.update c).2) ∧
      (run fed).2.Nodup :=
  ⟨(run_represents fed).1.verdict_iff, check_eq_verdict _, (run_represents fed).2⟩

end Chatt.AntiReplay
