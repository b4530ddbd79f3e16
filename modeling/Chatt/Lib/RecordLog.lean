import Chatt.Lib.Wire

/-!
# Logs of self-delimiting records

A log is the concatenation of its records.  A reader takes one record off the front, and nothing
off a record that is not complete, so a log that was cut anywhere reads back as the records that
were complete before the cut.
-/

namespace Chatt.Lib

open List

variable {α σ ε : Type}

/-- Reads records and hands them to `step`; the answer is the last state and what is left.
`fuel` bounds the number of records. -/
def foldRecords (read : List (Fin 256) → Option (α × List (Fin 256)))
    (step : σ → α → Except ε σ) : ℕ → List (Fin 256) → σ → Except ε (σ × List (Fin 256))
  | 0, bytes, s => .ok (s, bytes)
  | fuel + 1, bytes, s =>
    match read bytes with
    | none => .ok (s, bytes)
    | some (record, rest) =>
      match step s record with
      | .error error => .error error
      | .ok s => foldRecords read step fuel rest s

/-- The records that are complete in the first `n` bytes. -/
def complete (write : α → List (Fin 256)) : List α → ℕ → List α
  | [], _ => []
  | record :: rest, n =>
    if (write record).length ≤ n then record :: complete write rest (n - (write record).length)
    else []

/-- The reader takes off what the writer wrote, and nothing less. -/
structure ReadsBack (write : α → List (Fin 256))
    (read : List (Fin 256) → Option (α × List (Fin 256))) (ok : α → Prop) : Prop where
  whole : ∀ record rest, ok record → read (write record ++ rest) = some (record, rest)
  torn : ∀ record n, ok record → n < (write record).length → read ((write record).take n) = none
  nothing : read [] = none

variable {write : α → List (Fin 256)} {read : List (Fin 256) → Option (α × List (Fin 256))}
  {ok : α → Prop} {step : σ → α → Except ε σ}

lemma complete_isPrefix (records : List α) (n : ℕ) : complete write records n <+: records := by
  induction records generalizing n with
  | nil => exact List.prefix_refl _
  | cons record rest ih =>
    unfold complete
    split_ifs
    · exact List.cons_prefix_cons.mpr ⟨rfl, ih _⟩
    · exact List.nil_prefix

/-- A log that is cut ends in a record that cannot be read. -/
lemma ReadsBack.take_flatMap (h : ReadsBack write read ok) {records : List α}
      (hok : ∀ record ∈ records, ok record) (n : ℕ) :
    ∃ tail, (records.flatMap write).take n = (complete write records n).flatMap write ++ tail ∧
    read tail = none := by
  induction records generalizing n with
  | nil => exact ⟨[], by simp [complete], h.nothing⟩
  | cons record rest ih =>
    rw [flatMap_cons, complete]
    split_ifs with hwhole
    · obtain ⟨tail, htail, hread⟩ := ih (fun r hr => hok r (mem_cons_of_mem _ hr))
        (n - (write record).length)
      refine ⟨tail, ?_, hread⟩
      rw [take_append, take_of_length_le hwhole, htail, flatMap_cons, append_assoc]
    · refine ⟨(write record).take n, ?_, h.torn record n (hok record mem_cons_self)
        (not_le.mp hwhole)⟩
      rw [take_append_of_le_length (le_of_not_ge hwhole)]
      rfl

/-- A log reads back as its records, with a tail that cannot be read left over. -/
lemma ReadsBack.foldRecords (h : ReadsBack write read ok) {records : List α}
      (hok : ∀ record ∈ records, ok record)
    {tail : List (Fin 256)} (htail : read tail = none) {fuel : ℕ}
    (hfuel : records.length ≤ fuel) (s : σ) :
    Lib.foldRecords read step fuel (records.flatMap write ++ tail) s =
      (records.foldlM step s).map fun s => (s, tail) := by
  induction records generalizing fuel s with
  | nil =>
    cases fuel with
    | zero => rfl
    | succ fuel =>
      simp only [flatMap_nil, nil_append, Lib.foldRecords, htail]
      rfl
  | cons record rest ih =>
    obtain ⟨fuel, rfl⟩ : ∃ n, fuel = n + 1 := ⟨fuel - 1, by
      rw [length_cons] at hfuel
      omega⟩
    have hread := h.whole record (rest.flatMap write ++ tail) (hok record mem_cons_self)
    rw [flatMap_cons, append_assoc, foldlM_cons]
    cases hstep : step s record with
    | error error =>
      simp only [Lib.foldRecords, hread, hstep]
      rfl
    | ok t =>
      simp only [Lib.foldRecords, hread, hstep]
      exact ih (fun r hr => hok r (mem_cons_of_mem _ hr)) (Nat.le_of_succ_le_succ hfuel) t

end Chatt.Lib
