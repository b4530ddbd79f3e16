import Chatt.Model.SampleRing

/-!
# The two sides of the sample ring

Sample `i` of the run lives in slot `i % capacity` from when it is copied until it is released.
-/

namespace Chatt.SampleRing

open Lib List

lemma slotOf_eq {capacity index count k : ℕ} (hk : k < count) (hcount : count ≤ capacity) :
    slotOf capacity index count k = (index + k) % capacity := by
  have hstart := Nat.mod_lt index (show 0 < capacity by omega)
  rw [slotOf, ← Nat.mod_add_mod]
  generalize index % capacity = start at hstart ⊢
  rcases lt_or_ge (start + k) capacity with hlt | hge
  · rw [if_pos (by omega), Nat.mod_eq_of_lt hlt]
  · rw [if_neg (by omega), Nat.mod_eq_sub_mod hge, Nat.mod_eq_of_lt (by omega)]
    omega

/-- Samples less than a capacity apart do not share a slot. -/
lemma mod_ne {capacity i j : ℕ} (hlt : i < j) (hj : j < i + capacity) :
    j % capacity ≠ i % capacity := by
  intro heq
  have hzero := Nat.sub_mod_eq_zero_of_mod_eq heq
  rw [Nat.mod_eq_of_lt (by omega)] at hzero
  omega

variable {α : Type} {r t : Ring α} {src : List α} {capacity write read count copied depth k : ℕ}

/-- The samples copied so far are in place, past those published. -/
def Producer.Ok (r : Ring α) : Producer α → Prop
  | .idle => True
  | .loaded _ write => write = r.write
  | .copying src write count copied =>
    write = r.write ∧ count ≤ src.length ∧ r.write + count ≤ r.read + r.buf.length ∧
      copied ≤ count ∧ ∀ k < copied, r.buf[(r.write + k) % r.buf.length]? = src[k]?

/-- The span is published. -/
def Consumer.Ok (r : Ring α) : Consumer α → Prop
  | .idle => True
  | .loaded write => r.read ≤ write ∧ write ≤ r.write
  | .holding read depth => read = r.read ∧ r.read + depth ≤ r.write
  | .advancing read taken => read = r.read ∧ taken <+: r.accepted.drop r.read

structure RingInv (capacity : ℕ) (r : Ring α) : Prop where
  length_buf : r.buf.length = capacity
  read_le : r.read ≤ r.write
  write_le : r.write ≤ r.read + r.buf.length
  length_accepted : r.accepted.length = r.write
  stored : ∀ i, r.read ≤ i → i < r.write → r.buf[i % r.buf.length]? = r.accepted[i]?
  consumed_eq : r.consumed = r.accepted.take r.read
  producer : r.producer.Ok r
  consumer : r.consumer.Ok r

namespace RingInv

lemma initial (capacity : ℕ) (zero : α) : RingInv capacity (.withCapacity capacity zero) :=
  ⟨length_replicate, le_rfl, Nat.zero_le _, rfl, fun _ _ hi => absurd hi (Nat.not_lt_zero _), rfl,
    trivial, trivial⟩

section

variable (h : RingInv capacity r)

include h

/-- A span shows the published samples after those released. -/
lemma get_eq (hspan : r.read + depth ≤ r.write) (hk : k < depth) :
    r.get r.read depth k = r.accepted[r.read + k]? := by
  have hle := h.write_le
  rw [Ring.get, if_pos hk, slotOf_eq hk (by omega), h.stored _ (by omega) (by omega)]

lemma filterMap_get (hspan : r.read + depth ≤ r.write) (hcount : count ≤ depth) :
    (range count).filterMap (r.get r.read depth) = (r.accepted.drop r.read).take count := by
  induction count with
  | zero => simp
  | succ count ih =>
    have hlength := h.length_accepted
    rw [range_succ, filterMap_append, ih (by omega), take_add_one, getElem?_drop, filterMap_cons,
      h.get_eq hspan (by omega), getElem?_eq_getElem (by omega)]
    rfl

lemma loadRead (hproducer : r.producer = .loaded src write)
      (hcount : count = min src.length (r.buf.length - (write - r.read))) :
    RingInv capacity { r with
      producer := if count = 0 then .idle else .copying src write count 0 } := by
  obtain rfl : write = r.write := by
    have hwrite := h.producer
    rwa [hproducer] at hwrite
  refine { h with producer := ?_ }
  split_ifs
  · trivial
  · exact ⟨rfl, by omega, show r.write + count ≤ r.read + r.buf.length by omega, Nat.zero_le _,
      fun k hk => absurd hk (Nat.not_lt_zero k)⟩

lemma copy {sample : α} (hproducer : r.producer = .copying src write count copied)
      (hcopied : copied < count)
    (hsample : src[copied]? = some sample) :
    RingInv capacity (r.copy src write count copied sample) := by
  have hok := h.producer
  have hread := h.read_le
  rw [hproducer] at hok
  obtain ⟨rfl, hcount, hroom, -, hplaced⟩ := hok
  have hslot := Nat.mod_lt (r.write + copied) (show 0 < r.buf.length by omega)
  unfold Ring.copy
  rw [slotOf_eq hcopied (by omega)]
  refine { h with
    length_buf := length_set.trans h.length_buf, write_le := ?_, stored := ?_
    producer := ⟨rfl, hcount, ?_, hcopied, ?_⟩ }
  · simpa using h.write_le
  · intro i hi hlt
    have hlt : i < r.write := hlt
    rw [length_set, getElem?_set_ne (mod_ne (by omega) (by simp at hi; omega))]
    exact h.stored i hi hlt
  · simpa using hroom
  · intro k hk
    simp only [length_set]
    rcases Nat.lt_succ_iff_lt_or_eq.1 hk with hlt | rfl
    · rw [getElem?_set_ne (mod_ne (by omega) (by omega)), hplaced k hlt]
    · rw [getElem?_set_self hslot, hsample]

lemma publish (hproducer : r.producer = .copying src write count count) :
    RingInv capacity (r.publish src write count) := by
  have hok := h.producer
  have hlength := h.length_accepted
  have hread := h.read_le
  rw [hproducer] at hok
  obtain ⟨rfl, hcount, hroom, -, hplaced⟩ := hok
  refine { h with
    read_le := hread.trans (Nat.le_add_right _ _), write_le := hroom, length_accepted := ?_
    stored := ?_, consumed_eq := ?_, producer := trivial, consumer := ?_ }
  · simp [Ring.publish, hlength, hcount]
  · intro i hi hlast
    rcases lt_or_ge i r.write with hold | hnew
    · exact (h.stored i hi hold).trans (getElem?_append_left (by omega)).symm
    obtain ⟨k, rfl⟩ := Nat.exists_eq_add_of_le hnew
    have hk : k < count := Nat.lt_of_add_lt_add_left hlast
    rw [Ring.publish, getElem?_append_right (by omega), hlength, Nat.add_sub_cancel_left,
      getElem?_take_of_lt hk]
    exact hplaced k hk
  · exact h.consumed_eq.trans (take_append_of_le_length (by omega)).symm
  · have hconsumer := h.consumer
    have hle : r.write ≤ r.write + count := Nat.le_add_right _ _
    unfold Ring.publish
    revert hconsumer
    rcases r.consumer with _ | _ | _ | _
    · exact id
    · exact And.imp_right hle.trans'
    · exact And.imp_right hle.trans'
    · exact And.imp_right fun htaken => htaken.trans ((prefix_append _ _).drop _)

lemma release {taken : List α} (hconsumer : r.consumer = .advancing read taken) :
    RingInv capacity (r.release read taken) := by
  have hok := h.consumer
  have hle := h.write_le
  have hread := h.read_le
  rw [hconsumer] at hok
  obtain ⟨rfl, htaken⟩ := hok
  have hlength := htaken.length_le
  rw [length_drop, h.length_accepted] at hlength
  have hwrite : r.write ≤ r.read + taken.length + r.buf.length := by omega
  refine { h with
    read_le := show r.read + taken.length ≤ r.write by omega, write_le := hwrite
    stored := fun i hi => h.stored i ((Nat.le_add_right _ _).trans hi), consumed_eq := ?_
    producer := ?_, consumer := trivial }
  · rw [Ring.release, take_add, ← h.consumed_eq, ← prefix_iff_eq_take.1 htaken]
  · have hproducer := h.producer
    unfold Ring.release
    revert hproducer
    rcases r.producer with _ | _ | ⟨src, write, count, copied⟩
    · exact id
    · exact id
    · rintro ⟨hsame, hcount, hroom, hplaced⟩
      exact ⟨hsame, hcount, hroom.trans (by simp only; omega), hplaced⟩

/-- Every step of either side keeps the invariant. -/
lemma next {a : Action α} (hnext : r.next a = some t) : RingInv capacity t := by
  have hconsumer := h.consumer
  cases a <;> simp only [Ring.next] at hnext <;> split at hnext <;> try cases hnext
  · exact { h with producer := rfl }
  next heq => exact h.loadRead heq rfl
  next heq =>
    obtain ⟨hcopied, hmap⟩ := Option.ite_none_right_eq_some.1 hnext
    obtain ⟨sample, hsample, rfl⟩ := Option.map_eq_some_iff.1 hmap
    exact h.copy heq hcopied hsample
  next heq =>
    obtain ⟨rfl, hpublish⟩ := Option.ite_none_right_eq_some.1 hnext
    exact Option.some.inj hpublish ▸ h.publish heq
  · exact { h with consumer := ⟨h.read_le, le_rfl⟩ }
  next heq =>
    rw [heq] at hconsumer
    exact { h with
      consumer := ⟨rfl, (Nat.add_sub_cancel' hconsumer.1).trans_le hconsumer.2⟩ }
  next heq =>
    obtain ⟨hcount, hadvance⟩ := Option.ite_none_right_eq_some.1 hnext
    cases hadvance
    rw [heq] at hconsumer
    obtain ⟨rfl, hspan⟩ := hconsumer
    exact { h with
      consumer := ⟨rfl, (h.filterMap_get hspan hcount).symm ▸ take_prefix _ _⟩ }
  next heq => exact h.release heq

end

end RingInv

/-- Whatever the interleaving, the samples read are a prefix of those accepted, the span held shows
the next of them, the sample being copied goes to a slot outside it, and the ring holds no more than
its capacity. -/
theorem ring_reads_what_it_accepted {zero : α}
      (h : Reachable Ring.next (fun _ _ => True) (.withCapacity capacity zero) r) :
    r.consumed <+: r.accepted ∧
    (∀ read depth, r.consumer = .holding read depth →
      ∀ k < depth, r.get read depth k = r.accepted[r.consumed.length + k]?) ∧
    (∀ src write count copied read depth, r.producer = .copying src write count copied →
      r.consumer = .holding read depth → copied < count → ∀ k < depth,
      slotOf capacity write count copied ≠ slotOf capacity read depth k) ∧
    r.read ≤ r.write ∧ r.write - r.read ≤ capacity := by
  have hinv := h.invariant (RingInv.initial capacity zero) fun h _ hnext => h.next hnext
  have hwrite := hinv.write_le
  have hread := hinv.read_le
  have hconsumer := hinv.consumer
  have hproducer := hinv.producer
  have hlength : r.consumed.length = r.read := by
    rw [hinv.consumed_eq, length_take_of_le (hread.trans_eq hinv.length_accepted.symm)]
  rw [← hinv.length_buf]
  refine ⟨hinv.consumed_eq ▸ take_prefix _ _, ?_, ?_, hread, by omega⟩
  · intro read depth hholding k hk
    rw [hholding] at hconsumer
    obtain ⟨rfl, hspan⟩ := hconsumer
    rw [hlength, hinv.get_eq hspan hk]
  · intro src write count copied read depth hcopying hholding hcopied k hk
    rw [hholding] at hconsumer
    rw [hcopying] at hproducer
    obtain ⟨rfl, hspan⟩ := hconsumer
    obtain ⟨rfl, -, hroom, -⟩ := hproducer
    rw [slotOf_eq hcopied (by omega), slotOf_eq hk (by omega)]
    exact mod_ne (by omega) (by omega)

/-- Of three samples offered to a ring of two, two are taken; one is read, and a later sample is to
be
copied over it while the span of the other is held. -/
theorem ring_reads_what_it_accepted_two : ∃ r : Ring ℕ, r.consumed = [7] ∧
    r.consumed <+: r.accepted ∧ r.get 1 1 0 = r.accepted[1]? ∧
    slotOf 2 2 1 0 ≠ slotOf 2 1 1 0 ∧ r.write - r.read ≤ 2 := by
  have h := ring_reads_what_it_accepted (@reachable_after _ _ Ring.next (fun _ _ =>
      True) (.withCapacity 2 0)
    [.writeSamples [7, 8, 9], .loadRead, .copySample, .copySample, .storeWrite, .readableSpan,
      .loadOwnRead, .advanceRead 1, .storeRead, .readableSpan, .writeSamples [9], .loadRead,
      .loadOwnRead] (by decide))
  exact ⟨_, rfl, h.1, h.2.1 1 1 rfl 0 one_pos, h.2.2.1 [9] 2 1 0 1 1 rfl rfl one_pos 0 one_pos,
    h.2.2.2.2⟩

end Chatt.SampleRing
