import Mathlib

/-!
# Maps that records overwrite

A record `d` writes some keys of a map and leaves the others alone.  What a list of records leaves
under a key is the value of the map before them, or it does not depend on that map at all.
-/

namespace Chatt.Lib

open List

variable {δ κ ν : Type} (write : δ → κ → Option ν)

/-- The map after one record. -/
def overwrite (f : κ → ν) (d : δ) (k : κ) : ν := (write d k).getD (f k)

/-- The map after a list of records. -/
def overwriteAll (f : κ → ν) (ds : List δ) : κ → ν := ds.foldl (overwrite write) f

variable {write} {f g : κ → ν} {d : δ} {k : κ}

/-- A record that does not write the key keeps its value. -/
lemma overwrite_of_none (h : write d k = none) : overwrite write f d k = f k := by
  rw [overwrite, h, Option.getD_none]

/-- A record that writes the key sets its value. -/
lemma overwrite_of_some {v : ν} (h : write d k = some v) : overwrite write f d k = v := by
  rw [overwrite, h, Option.getD_some]

@[simp] lemma overwriteAll_nil : overwriteAll write f [] = f := rfl

@[simp] lemma overwriteAll_cons (ds : List δ) :
    overwriteAll write f (d :: ds) = overwriteAll write (overwrite write f d) ds := rfl

lemma overwriteAll_append (ds es : List δ) :
    overwriteAll write f (ds ++ es) = overwriteAll write (overwriteAll write f ds) es :=
  foldl_append

/-- What the records leave under a key depends on the map through the value under that key. -/
lemma overwriteAll_congr (ds : List δ) (h : f k = g k) :
    overwriteAll write f ds k = overwriteAll write g ds k := by
  induction ds generalizing f g with
  | nil => exact h
  | cons d ds ih =>
    refine ih ?_
    unfold overwrite
    rw [h]

/-- The records leave the key alone, or the map before them does not matter. -/
lemma overwriteAll_cases (write : δ → κ → Option ν) (ds : List δ) (k : κ) :
    (∀ f, overwriteAll write f ds k = f k) ∨
      ∀ f g, overwriteAll write f ds k = overwriteAll write g ds k := by
  induction ds with
  | nil => exact Or.inl fun _ => rfl
  | cons d ds ih =>
    rcases ih with hkept | hset
    · cases hwrite : write d k with
      | none => exact Or.inl fun f => (hkept _).trans (overwrite_of_none hwrite)
      | some v =>
        refine Or.inr fun f g => ?_
        rw [overwriteAll_cons, overwriteAll_cons, hkept, hkept, overwrite_of_some hwrite,
          overwrite_of_some hwrite]
    · exact Or.inr fun f g => hset _ _

end Chatt.Lib
