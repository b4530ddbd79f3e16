import Mathlib

/-!
# Runs of a system of guarded actions

A system is a partial function `next : σ → α → Option σ`; `ok x a` says which actions its
environment may take in which state.
-/

namespace Chatt.Lib

variable {σ α : Type} (next : σ → α → Option σ) (ok : σ → α → Prop)

/-- One allowed action leads from `x` to `y`. -/
def Step (x y : σ) : Prop := ∃ a, ok x a ∧ next x a = some y

/-- Allowed actions lead from `x` to `y`. -/
def Reachable (x y : σ) : Prop := Relation.ReflTransGen (Step next ok) x y

/-- Every action of the list is possible and allowed when its turn comes. -/
def Allowed (x : σ) : List α → Prop
  | [] => True
  | a :: rest =>
    ok x a ∧ match next x a with
      | none => False
      | some y => Allowed y rest

instance decidableAllowed [∀ x a, Decidable (ok x a)] :
    (x : σ) → (l : List α) → Decidable (Allowed next ok x l)
  | _, [] => inferInstanceAs (Decidable True)
  | x, a :: rest =>
    match h : next x a with
    | none => isFalse (by simp [Allowed, h])
    | some y =>
      have := decidableAllowed y rest
      decidable_of_iff (ok x a ∧ Allowed next ok y rest) (by simp [Allowed, h])

/-- The state after the actions, `x` itself where they are not possible. -/
def after (x : σ) : List α → σ
  | [] => x
  | a :: rest => after ((next x a).getD x) rest

variable {next ok}

lemma Reachable.refl (x : σ) : Reachable next ok x x := Relation.ReflTransGen.refl

/-- What holds initially and is kept by every allowed action holds in every run. -/
lemma Reachable.invariant {Inv : σ → Prop} {x y : σ} (h : Reachable next ok x y) (hx : Inv x)
    (hstep : ∀ {x y a}, Inv x → ok x a → next x a = some y → Inv y) : Inv y := by
  induction h with
  | refl => exact hx
  | tail _ hlast ih =>
    obtain ⟨a, hok, hnext⟩ := hlast
    exact hstep ih hok hnext

/-- The state after a list of allowed actions is reachable. -/
lemma reachable_after {x : σ} {l : List α} (h : Allowed next ok x l) :
    Reachable next ok x (after next x l) := by
  induction l generalizing x with
  | nil => exact Reachable.refl x
  | cons a rest ih =>
    obtain ⟨hok, hrest⟩ := h
    unfold after
    cases hnext : next x a with
    | none =>
      rw [hnext] at hrest
      exact hrest.elim
    | some y =>
      rw [hnext] at hrest
      exact Relation.ReflTransGen.head ⟨a, hok, hnext⟩ (ih hrest)

/-- Each action of an allowed list is a step. -/
lemma Allowed.step_take {x : σ} {l : List α} (h : Allowed next ok x l) {n : ℕ} (hn : n < l.length) :
    Step next ok (after next x (l.take n)) (after next x (l.take (n + 1))) := by
  induction l generalizing x n with
  | nil => cases hn
  | cons a rest ih =>
    obtain ⟨hok, hrest⟩ := h
    cases hnext : next x a with
    | none =>
      rw [hnext] at hrest
      exact hrest.elim
    | some y =>
      rw [hnext] at hrest
      cases n with
      | zero => exact ⟨a, hok, by simp [after, hnext]⟩
      | succ n =>
        have hlater := ih hrest (Nat.lt_of_succ_lt_succ hn)
        simpa [after, hnext] using hlater

/-- A measure that no step of a trace raises, and that is lowered by a kind of step that comes
again and again until the goal is met, runs out. -/
lemma exists_goal_of_measure {ι : Type} [Preorder ι] [WellFoundedLT ι] {trace : ℕ → σ}
      (Inv Goal : σ → Prop)
    (Acts : σ → σ → Prop) (measure : σ → ι) (hinit : Inv (trace 0))
    (hstep : ∀ n, Inv (trace n) → ¬ Goal (trace n) → Inv (trace (n + 1)) ∧
      measure (trace (n + 1)) ≤ measure (trace n) ∧
      (Acts (trace n) (trace (n + 1)) → measure (trace (n + 1)) < measure (trace n)))
    (hfair : ∀ n, ¬ Goal (trace n) → ∃ m ≥ n, Acts (trace m) (trace (m + 1))) :
    ∃ n, Goal (trace n) := by
  by_contra hnever
  rw [not_exists] at hnever
  have hinv : ∀ n, Inv (trace n) := by
    intro n
    induction n with
    | zero => exact hinit
    | succ n ih => exact (hstep n ih (hnever n)).1
  have hanti : Antitone fun n => measure (trace n) := antitone_nat_of_succ_le fun n =>
      (hstep n (hinv n) (hnever n)).2.1
  -- at a least value of the measure, a later acting step would lower it
  obtain ⟨_, ⟨n, rfl⟩, hleast⟩ := (wellFounded_lt : WellFounded ((· < ·) : ι → ι → Prop)).has_min
    (Set.range fun n => measure (trace n)) (Set.range_nonempty _)
  obtain ⟨m, hm, hacts⟩ := hfair n (hnever n)
  have hlt := (hstep m (hinv m) (hnever m)).2.2 hacts
  exact hleast _ ⟨m + 1, rfl⟩ (hlt.trans_le (hanti hm))

/-- What never rises in a well-founded order is constant from some time on. -/
lemma exists_const_of_antitone {ι : Type} [PartialOrder ι] [WellFoundedLT ι] {f : ℕ → ι}
    (hf : Antitone f) : ∃ n, ∀ m ≥ n, f m = f n := by
  obtain ⟨_, ⟨n, rfl⟩, hleast⟩ := (wellFounded_lt : WellFounded ((· < ·) : ι → ι → Prop)).has_min
    (Set.range f) (Set.range_nonempty _)
  refine ⟨n, fun m hm => ?_⟩
  exact ((hf hm).lt_or_eq).resolve_left (hleast (f m) ⟨m, rfl⟩)

end Chatt.Lib
