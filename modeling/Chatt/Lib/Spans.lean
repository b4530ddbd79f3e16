import Mathlib

/-!
# Spans of a sequence

A span is a half-open range of positions. Spans that are laid end to end cover the positions
between their ends, each position once.
-/

namespace Chatt.Lib

open List

structure Span where
  start : ℕ
  stop : ℕ
deriving DecidableEq, Repr

namespace Span

def Holds (span : Span) (i : ℕ) : Prop := span.start ≤ i ∧ i < span.stop

/-- `span` lies wholly before `other` and starts before it. -/
def Before (span other : Span) : Prop := span.start < other.start ∧ span.stop ≤ other.start

end Span

section Tiles

variable {α : Type*} (range : α → Span)

/-- The ranges of the items run end to end from `a` to `b`. -/
def Tiles (a b : ℕ) : List α → Prop
  | [] => a = b
  | item :: rest =>
    (range item).start = a ∧ (range item).start ≤ (range item).stop ∧ Tiles (range item).stop b rest

namespace Tiles

variable {range} {a b c : ℕ} {items others : List α}

section

variable (h : Tiles range a b items)

include h

lemma le : a ≤ b := by
  induction items generalizing a with
  | nil => exact Nat.le_of_eq h
  | cons item rest ih =>
    obtain ⟨hstart, hle, hrest⟩ := h
    have hstop := ih hrest
    omega

lemma append (h' : Tiles range b c others) : Tiles range a c (items ++ others) := by
  induction items generalizing a with
  | nil =>
    have hab : a = b := h
    rw [hab]
    exact h'
  | cons item rest ih =>
    obtain ⟨hstart, hle, hrest⟩ := h
    exact ⟨hstart, hle, ih hrest⟩

lemma bounds {item : α} (hmem : item ∈ items) : a ≤ (range item).start ∧ (range item).stop ≤ b := by
  induction items generalizing a with
  | nil => simp at hmem
  | cons first rest ih =>
    obtain ⟨hstart, hle, hrest⟩ := h
    have hstop := hrest.le
    rcases mem_cons.mp hmem with rfl | hmem
    · exact ⟨Nat.le_of_eq hstart.symm, hstop⟩
    · have hin := ih hrest hmem
      omega

/-- Each position between the ends lies in one item, and in no other. -/
lemma existsUnique_holds {i : ℕ} (hlow : a ≤ i) (hhigh : i < b) :
    ∃! item, item ∈ items ∧ (range item).Holds i := by
  induction items generalizing a with
  | nil =>
    have hab : a = b := h
    omega
  | cons first rest ih =>
    obtain ⟨hstart, hle, hrest⟩ := h
    by_cases hi : i < (range first).stop
    · refine ⟨first, ⟨mem_cons_self, by omega, hi⟩, ?_⟩
      rintro other ⟨hmem, hother⟩
      rcases mem_cons.mp hmem with rfl | hmem
      · rfl
      · have hin := (bounds hrest hmem).1
        have hge := hother.1
        omega
    · obtain ⟨item, ⟨hmem, hitem⟩, hunique⟩ := ih hrest (by omega)
      refine ⟨item, ⟨mem_cons_of_mem first hmem, hitem⟩, ?_⟩
      rintro other ⟨hmem', hother⟩
      rcases mem_cons.mp hmem' with rfl | hmem'
      · exact absurd hother.2 hi
      · exact hunique other ⟨hmem', hother⟩

end

end Tiles

end Tiles

/-! ## Parts of a list -/

section Between

variable {α : Type*}

/-- `items[a..b]`. -/
def between (items : List α) (a b : ℕ) : List α := (items.drop a).take (b - a)

/-- `while pos < stop && p(items[pos]) { pos += 1 }`. -/
def skipWhile (p : α → Bool) (items : List α) (pos stop : ℕ) : ℕ :=
  pos + ((between items pos stop).takeWhile p).length

lemma length_between (items : List α) (a b : ℕ) :
    (between items a b).length = min (b - a) (items.length - a) := by
  simp [between]

lemma getElem?_between (items : List α) (a b i : ℕ) :
    (between items a b)[i]? = if i < b - a then items[a + i]? else none := by
  rw [between, getElem?_take]
  simp [getElem?_drop]

/-- The items of `between items a b`, by their positions in `items`. -/
lemma mem_between_iff {items : List α} {a b : ℕ} {item : α} :
    item ∈ between items a b ↔ ∃ i, a ≤ i ∧ i < b ∧ items[i]? = some item := by
  rw [mem_iff_getElem?]
  constructor
  · rintro ⟨i, hi⟩
    rw [getElem?_between] at hi
    split at hi
    · exact ⟨a + i, by omega, by omega, hi⟩
    · simp at hi
  · rintro ⟨i, hlow, hhigh, hi⟩
    refine ⟨i - a, ?_⟩
    rw [getElem?_between, if_pos (by omega), Nat.add_sub_cancel' hlow]
    exact hi

lemma between_self (items : List α) (a : ℕ) : between items a a = [] := by simp [between]

lemma between_append (items : List α) {a b c : ℕ} (hab : a ≤ b) (hbc : b ≤ c) :
    between items a c = between items a b ++ between items b c := by
  have hdrop : items.drop b = (items.drop a).drop (b - a) := by
    rw [drop_drop, Nat.add_sub_cancel' hab]
  rw [between, between, between, hdrop, ← take_add]
  congr 1
  omega

/-- A part of the list is read item by item. -/
lemma between_eq_iff {items pattern : List α} {a : ℕ} :
    between items a (a + pattern.length) = pattern ↔
    ∀ k < pattern.length, items[a + k]? = pattern[k]? := by
  constructor
  · intro h k hk
    have hget := getElem?_between items a (a + pattern.length) k
    rw [h, if_pos (by omega)] at hget
    exact hget.symm
  · intro h
    apply ext_getElem?
    intro k
    rw [getElem?_between]
    by_cases hk : k < pattern.length
    · rw [if_pos (by omega)]
      exact h k hk
    · rw [if_neg (by omega)]
      exact (getElem?_eq_none (Nat.le_of_not_lt hk)).symm

lemma between_one {items : List α} {i : ℕ} {item : α} (h : items[i]? = some item) :
    between items i (i + 1) = [item] := by
  refine (@between_eq_iff _ items [item] i).mpr ?_
  intro k hk
  obtain rfl : k = 0 := by simpa using hk
  exact h

lemma le_skipWhile (p : α → Bool) (items : List α) (pos stop : ℕ) :
    pos ≤ skipWhile p items pos stop := Nat.le_add_right _ _

lemma skipWhile_le (p : α → Bool) (items : List α) {pos stop : ℕ} (h : pos ≤ stop) :
    skipWhile p items pos stop ≤ stop := by
  have hlen := (takeWhile_sublist p (l := between items pos stop)).length_le
  rw [length_between] at hlen
  rw [skipWhile]
  omega

/-- What a scan has passed satisfies its test. -/
lemma skipWhile_passed {p : α → Bool} {items : List α} {pos stop i : ℕ} {item : α} (hlow : pos ≤ i)
    (hhigh : i < skipWhile p items pos stop) (hi : items[i]? = some item) : p item = true := by
  have hlt : i - pos < ((between items pos stop).takeWhile p).length := by
    rw [skipWhile] at hhigh
    omega
  have hlen := (takeWhile_sublist p (l := between items pos stop)).length_le
  rw [length_between] at hlen
  have hpre := (List.takeWhile_prefix p (l := between items pos stop)).getElem hlt
  have hitem : (between items pos stop)[i - pos]? = some item := by
    rw [getElem?_between, if_pos (by omega), Nat.add_sub_cancel' hlow]
    exact hi
  have heq : ((between items pos stop).takeWhile p)[i - pos] = item := by
    rw [hpre]
    exact (List.getElem?_eq_some_iff.mp hitem).2
  rw [← heq]
  exact mem_takeWhile_imp (getElem_mem hlt)

/-- Where a scan stops short of its bound stands an item that fails its test. -/
lemma skipWhile_stopped {p : α → Bool} {items : List α} {pos stop : ℕ} (hlen : stop ≤ items.length)
    (h : skipWhile p items pos stop < stop) :
    ∃ item, items[skipWhile p items pos stop]? = some item ∧ p item = false := by
  have hsplit := takeWhile_append_dropWhile (p := p) (l := between items pos stop)
  have hlt : ((between items pos stop).takeWhile p).length < stop - pos := by
    rw [skipWhile] at h
    omega
  have hrest : (between items pos stop).dropWhile p ≠ [] := by
    intro hnil
    rw [hnil, append_nil] at hsplit
    have hall := congrArg List.length hsplit
    rw [length_between] at hall
    omega
  refine ⟨_, ?_, head_dropWhile_not p hrest⟩
  have hget := getElem?_between items pos stop ((between items pos stop).takeWhile p).length
  rw [if_pos hlt] at hget
  rw [skipWhile, ← hget]
  nth_rewrite 1 [← hsplit]
  rw [getElem?_append_right (Nat.le_refl _), Nat.sub_self, ← List.head?_eq_getElem?]
  exact head?_eq_some_head hrest

end Between

/-! ## Brackets

`closeScopes` reads marks against the stack of open scopes: the last opened is closed first. -/

/-- What an item does to the scopes around it. -/
inductive Mark (σ : Type) where
  | opens (scope : σ)
  | closes (scope : σ)
  | flat
deriving DecidableEq, Repr

variable {σ : Type} [DecidableEq σ]

/-- The scopes that stay open, innermost first, or `none` at a mark that closes another scope
than the innermost. -/
def closeScopes : List σ → List (Mark σ) → Option (List σ)
  | stack, [] => some stack
  | stack, .opens scope :: rest => closeScopes (scope :: stack) rest
  | [], .closes _ :: _ => none
  | top :: stack, .closes scope :: rest => if top = scope then closeScopes stack rest else none
  | stack, .flat :: rest => closeScopes stack rest

/-- Every scope is closed by its own mark, in stack order. -/
def WellNested (marks : List (Mark σ)) : Prop := closeScopes [] marks = some []

/-- The second half of a sequence goes on from the scopes the first leaves open. -/
lemma closeScopes_append {stack middle : List σ} {marks : List (Mark σ)}
      (h : closeScopes stack marks = some middle)
    (rest : List (Mark σ)) : closeScopes stack (marks ++ rest) = closeScopes middle rest := by
  fun_induction closeScopes stack marks with
  | case1 stack =>
    rw [Option.some.inj h]
    rfl
  | case2 stack scope marks ih => exact ih h
  | case3 => simp at h
  | case4 stack scope marks ih =>
    rw [List.cons_append, closeScopes, if_pos rfl]
    exact ih h
  | case5 => simp at h
  | case6 stack marks ih => exact ih h

end Chatt.Lib
