import Mathlib

/-!
# Tables of slots

An array of fixed length whose entries are free (`none`) or taken.
-/

namespace Chatt.Lib

variable {α : Type} {n : ℕ}

/-- Writes one entry. -/
def put (table : Vector α n) (index : Fin n) (value : α) : Vector α n :=
  table.set index.val value index.isLt

/-- The first entry that is free. -/
def firstFree (table : Vector (Option α) n) : Option (Fin n) :=
  (List.finRange n).find? fun index => (table.get index).isNone

lemma get_put (table : Vector α n) (index other : Fin n) (value : α) :
    (put table index value).get other = if other = index then value else table.get other := by
  simp only [put, Vector.get_eq_getElem, Vector.getElem_set, Fin.val_inj, eq_comm]

lemma get_firstFree {table : Vector (Option α) n} {index : Fin n}
    (h : firstFree table = some index) : table.get index = none := by
  simpa using List.find?_some h

end Chatt.Lib
