import Mathlib

/-!
# Checks that stop at the first failure

A validation in the style of a sequence of early returns: `reject bad message` fails when
`bad` holds, and checks are chained in `Except`.  What a passed validation has shown is read
off by `bind_eq_ok`, `reject_eq_ok` and `forM_eq_ok`, one conjunct for each check.
-/

namespace Chatt.Lib

variable {ε α β : Type} {x : Except ε α}

/-- Fails with `message` when `bad` holds. -/
def reject (bad : Prop) [Decidable bad] (message : ε) : Except ε Unit :=
  if bad then .error message else .ok ()

/-- The value of an optional result, or `message`. -/
def require (value : Option α) (message : ε) : Except ε α :=
  match value with
  | none => .error message
  | some value => .ok value

@[simp] lemma reject_eq_ok {bad : Prop} [Decidable bad] {message : ε} {u : Unit} :
    reject bad message = .ok u ↔ ¬ bad := by
  unfold reject
  split_ifs with h <;> simp [h]

@[simp] lemma require_eq_ok {value : Option α} {message : ε} {a : α} :
    require value message = .ok a ↔ value = some a := by
  cases value <;> simp [require]

/-- One early return. -/
lemma error_else_eq_ok {bad : Prop} [Decidable bad] {message : ε} {a : α} :
    (if bad then .error message else x) = .ok a ↔ ¬ bad ∧ x = .ok a := by
  split_ifs with h <;> simp [h]

@[simp] lemma pure_eq_ok (a : α) : (pure a : Except ε α) = .ok a := rfl

lemma exists_of_isOk (h : x.isOk = true) : ∃ a, x = .ok a := by
  cases x with
  | error e => cases h
  | ok a => exact ⟨a, rfl⟩

lemma bind_eq_ok {f : α → Except ε β} {b : β} :
    (x >>= f) = .ok b ↔ ∃ a, x = .ok a ∧ f a = .ok b := by
  cases x with
  | error e | ok a => simp [Bind.bind, Except.bind]

/-- A loop that maps every element answers the list of the answers. -/
lemma exists_mapM_eq_ok {γ : Type} {f : α → Except ε β} {g : β → γ} {k : α → γ} {l : List α}
    (h : ∀ a ∈ l, ∃ b, f a = .ok b ∧ g b = k a) :
    ∃ bs, l.mapM f = .ok bs ∧ bs.map g = l.map k := by
  induction l with
  | nil => exact ⟨[], rfl, rfl⟩
  | cons a rest ih =>
    obtain ⟨b, hb, hkey⟩ := h a List.mem_cons_self
    obtain ⟨bs, hbs, hkeys⟩ := ih fun a ha => h a (List.mem_cons_of_mem _ ha)
    refine ⟨b :: bs, ?_, ?_⟩
    · rw [List.mapM_cons, hb, hbs]
      rfl
    · rw [List.map_cons, List.map_cons, hkey, hkeys]

/-- A loop of checks passes when the check passes on every element. -/
lemma forM_eq_ok {f : α → Except ε Unit} {l : List α} {u : Unit} :
    l.forM f = .ok u ↔ ∀ a ∈ l, f a = .ok () := by
  induction l with
  | nil => simp [pure, Except.pure]
  | cons a rest ih =>
    have step : (a :: rest).forM f = (f a >>= fun _ => rest.forM f) := rfl
    rw [step, bind_eq_ok]
    simp only [ih, List.mem_cons, forall_eq_or_imp]
    constructor
    · rintro ⟨_, head, tail⟩
      exact ⟨head, tail⟩
    · rintro ⟨head, tail⟩
      exact ⟨(), head, tail⟩

end Chatt.Lib
