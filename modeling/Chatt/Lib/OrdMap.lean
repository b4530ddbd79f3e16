import Mathlib

/-!
# Ordered maps

A map is the list of its entries in strictly increasing key order, so that the order in
which an ordered tree visits its entries is part of the value and two maps with the same
lookups are equal (`OrdMap.ext_get?`).  A set is a map to `Unit`.

Everything a client needs about an operation is its lookup equation (`get?_insert`,
`get?_erase`, `get?_retain`); the entry list is only opened where a program walks a map
in order, and there `mem_entries` and `mem_range` turn membership back into lookups.
-/

namespace Chatt.Lib

open List

variable {κ ν : Type}

/-- A finite map with linearly ordered keys: its entries, strictly sorted by key. -/
structure OrdMap (κ ν : Type) [LinearOrder κ] where
  entries : List (κ × ν)
  sorted : entries.Pairwise (fun a b => a.1 < b.1)

/-- A finite set of linearly ordered elements. -/
abbrev OrdSet (κ : Type) [LinearOrder κ] := OrdMap κ Unit

namespace OrdMap

variable [LinearOrder κ]

instance [DecidableEq ν] : DecidableEq (OrdMap κ ν) :=
  fun a b => decidable_of_iff (a.entries = b.entries) (by cases a; cases b; simp)

/-- The map without entries. -/
def empty : OrdMap κ ν := ⟨[], List.Pairwise.nil⟩

instance : Inhabited (OrdMap κ ν) := ⟨empty⟩

/-- The value stored under `k`. -/
def get? (m : OrdMap κ ν) (k : κ) : Option ν := m.entries.lookup k

/-- Whether `k` has a value. -/
def contains (m : OrdMap κ ν) (k : κ) : Bool := (m.get? k).isSome

/-- Insertion into a sorted entry list, replacing the entry of an equal key. -/
def insertEntry (k : κ) (v : ν) : List (κ × ν) → List (κ × ν)
  | [] => [(k, v)]
  | e :: rest =>
    if k < e.1 then (k, v) :: e :: rest
    else if k = e.1 then (k, v) :: rest
    else e :: insertEntry k v rest

variable {k : κ} {l : List (κ × ν)} {v : ν}

lemma mem_insertEntry {e : κ × ν} (h : e ∈ insertEntry k v l) : e = (k, v) ∨ e ∈ l := by
  induction l with
  | nil => simpa [insertEntry] using h
  | cons f rest ih =>
    simp only [insertEntry] at h
    split_ifs at h with h1 h2
    · simpa using h
    · rcases mem_cons.mp h with h | h
      · exact Or.inl h
      · exact Or.inr (mem_cons_of_mem _ h)
    · rcases mem_cons.mp h with h | h
      · exact Or.inr (by simp [h])
      · exact (ih h).imp_right (mem_cons_of_mem _)

lemma pairwise_insertEntry (k : κ) (v : ν) (h : l.Pairwise (fun a b => a.1 < b.1)) :
    (insertEntry k v l).Pairwise (fun a b => a.1 < b.1) := by
  induction l with
  | nil => simp [insertEntry]
  | cons f rest ih =>
    rw [pairwise_cons] at h
    simp only [insertEntry]
    split_ifs with h1 h2
    · refine pairwise_cons.mpr ⟨?_, pairwise_cons.mpr h⟩
      intro e he
      rcases mem_cons.mp he with rfl | he
      · exact h1
      · exact h1.trans (h.1 e he)
    · subst h2
      exact pairwise_cons.mpr ⟨h.1, h.2⟩
    · refine pairwise_cons.mpr ⟨?_, ih h.2⟩
      intro e he
      rcases mem_insertEntry he with rfl | he
      · exact lt_of_le_of_ne (not_lt.mp h1) (Ne.symm h2)
      · exact h.1 e he

lemma lookup_cons_ite (k : κ) (e : κ × ν) (l : List (κ × ν)) :
    (e :: l).lookup k = if k = e.1 then some e.2 else l.lookup k := by
  rw [lookup_cons]
  by_cases h : k = e.1
  · simp [h]
  · have hne : (k == e.1) = false := by simpa using h
    simp [hne, h]

lemma lookup_insertEntry (k k' : κ) (v : ν) (l : List (κ × ν)) :
    (insertEntry k v l).lookup k' = if k' = k then some v else l.lookup k' := by
  induction l with
  | nil => simp [insertEntry, lookup_cons_ite]
  | cons f rest ih =>
    simp only [insertEntry]
    split_ifs with h1 h2 h3 h3 h3 <;> simp_all [lookup_cons_ite]

/-- Sets the value of `k`. -/
def insert (m : OrdMap κ ν) (k : κ) (v : ν) : OrdMap κ ν :=
  ⟨insertEntry k v m.entries, pairwise_insertEntry k v m.sorted⟩

/-- Keeps the entries that `p` admits. -/
def retain (m : OrdMap κ ν) (p : κ → ν → Bool) : OrdMap κ ν :=
  ⟨m.entries.filter (fun e => p e.1 e.2), m.sorted.filter _⟩

/-- Removes the entry of `k`. -/
def erase (m : OrdMap κ ν) (k : κ) : OrdMap κ ν := m.retain fun k' _ => k' ≠ k

/-- The keys in increasing order. -/
def keys (m : OrdMap κ ν) : List κ := m.entries.map Prod.fst

/-- The values in key order. -/
def values (m : OrdMap κ ν) : List ν := m.entries.map Prod.snd

/-- The number of entries. -/
def size (m : OrdMap κ ν) : ℕ := m.entries.length

/-- The entries with a key between `lo` and `hi`, both included, in key order. -/
def range (m : OrdMap κ ν) (lo hi : κ) : List (κ × ν) :=
  m.entries.filter fun e => lo ≤ e.1 ∧ e.1 ≤ hi

/-- The map with every value replaced. -/
def mapValues {μ : Type} (m : OrdMap κ ν) (f : ν → μ) : OrdMap κ μ :=
  ⟨m.entries.map fun e => (e.1, f e.2), pairwise_map.mpr m.sorted⟩

/-- A loop that inserts the entry of every element and stops at the first key that is
already there. -/
def insertAll {α ε : Type} (entry : α → Except ε (κ × ν)) (duplicate : ε) :
    List α → OrdMap κ ν → Except ε (OrdMap κ ν)
  | [], m => .ok m
  | a :: rest, m =>
    match entry a with
    | .error e => .error e
    | .ok (k, v) =>
      if m.contains k then .error duplicate
      else insertAll entry duplicate rest (m.insert k v)

/-! ## Entries and lookups -/

variable (m : OrdMap κ ν)

lemma nodup_keys : m.keys.Nodup := pairwise_map.mpr (m.sorted.imp fun h => ne_of_lt h)

lemma lookup_eq_some_iff (h : l.Pairwise (fun a b => a.1 < b.1)) :
    l.lookup k = some v ↔ (k, v) ∈ l := by
  induction l with
  | nil => simp
  | cons f rest ih =>
    rw [pairwise_cons] at h
    rw [lookup_cons_ite, mem_cons]
    by_cases hk : k = f.1
    · subst hk
      simp only [if_true, Option.some.injEq]
      constructor
      · rintro rfl
        exact Or.inl rfl
      · rintro (hf | hm)
        · exact (congrArg Prod.snd hf).symm
        · exact absurd (h.1 _ hm) (lt_irrefl _)
    · simp only [hk, if_false, ih h.2]
      constructor
      · exact Or.inr
      · rintro (hf | hm)
        · exact absurd (congrArg Prod.fst hf) hk
        · exact hm

lemma mem_entries {m : OrdMap κ ν} : (k, v) ∈ m.entries ↔ m.get? k = some v :=
  (lookup_eq_some_iff m.sorted).symm

/-- Two maps with the same lookups are equal. -/
lemma ext_get? {a b : OrdMap κ ν} (h : ∀ k, a.get? k = b.get? k) : a = b := by
  obtain ⟨la, ha⟩ := a
  obtain ⟨lb, hb⟩ := b
  have hnodup : ∀ {l : List (κ × ν)}, l.Pairwise (fun a b => a.1 < b.1) →
      l.Nodup := fun h => h.imp fun hlt he => absurd (congrArg Prod.fst he) (ne_of_lt hlt)
  have hperm : la.Perm lb := by
    refine (perm_ext_iff_of_nodup (hnodup ha) (hnodup hb)).mpr fun e => ?_
    rw [← lookup_eq_some_iff ha, ← lookup_eq_some_iff hb]
    exact iff_of_eq (congrArg (· = some e.2) (h e.1))
  have : la = lb := hperm.eq_of_pairwise (fun x y _ _ hxy hyx => absurd hxy (lt_asymm hyx)) ha hb
  subst this
  rfl

@[simp] lemma get?_empty (k : κ) : (empty : OrdMap κ ν).get? k = none := rfl

lemma get?_insert (k k' : κ) (v : ν) :
    (m.insert k v).get? k' = if k' = k then some v else m.get? k' :=
  lookup_insertEntry k k' v m.entries

@[simp] lemma get?_insert_self (k : κ) (v : ν) : (m.insert k v).get? k = some v := by
  simp [get?_insert]

lemma get?_insert_ne {k k' : κ} (v : ν) (h : k' ≠ k) : (m.insert k v).get? k' = m.get? k' := by
  simp [get?_insert, h]

lemma get?_insert_eq_some {m : OrdMap κ ν} {k k' : κ} {v w : ν} :
    (m.insert k v).get? k' = some w ↔ k' = k ∧ v = w ∨ k' ≠ k ∧ m.get? k' = some w := by
  by_cases h : k' = k <;> simp [get?_insert, h]

lemma get?_retain (p : κ → ν → Bool) (k : κ) : (m.retain p).get? k = (m.get? k).filter (p k) := by
  ext v
  rw [← mem_entries, Option.filter_eq_some_iff, ← mem_entries]
  simp [retain]

lemma get?_erase (k k' : κ) : (m.erase k).get? k' = if k' = k then none else m.get? k' := by
  rw [erase, get?_retain]
  by_cases h : k' = k
  · subst h
    cases m.get? k' <;> simp
  · cases m.get? k' <;> simp [h]

@[simp] lemma get?_erase_self (k : κ) : (m.erase k).get? k = none := by simp [get?_erase]

lemma get?_erase_ne {k k' : κ} (h : k' ≠ k) : (m.erase k).get? k' = m.get? k' := by
  simp [get?_erase, h]

lemma get?_erase_eq_some {m : OrdMap κ ν} {k k' : κ} :
    (m.erase k).get? k' = some v ↔ k' ≠ k ∧ m.get? k' = some v := by
  simp [get?_erase]

lemma erase_eq_self {m : OrdMap κ ν} (h : m.get? k = none) : m.erase k = m := by
  refine ext_get? fun k' => ?_
  rw [get?_erase]
  split_ifs with hk
  · rw [hk, h]
  · rfl

lemma insert_eq_self {m : OrdMap κ ν} (h : m.get? k = some v) : m.insert k v = m := by
  refine ext_get? fun k' => ?_
  rw [get?_insert]
  split_ifs with hk
  · rw [hk, h]
  · rfl

lemma contains_iff {m : OrdMap κ ν} : m.contains k = true ↔ ∃ v, m.get? k = some v := by
  rw [contains, Option.isSome_iff_exists]

lemma contains_eq_false_iff {m : OrdMap κ ν} : m.contains k = false ↔ m.get? k = none := by
  rw [contains, Option.isSome_eq_false_iff, Option.isNone_iff_eq_none]

lemma mem_keys {m : OrdMap κ ν} : k ∈ m.keys ↔ ∃ v, m.get? k = some v := by simp [keys, mem_entries]

lemma mem_values {m : OrdMap κ ν} : v ∈ m.values ↔ ∃ k, m.get? k = some v := by
  simp [values, mem_entries]

lemma mem_range {m : OrdMap κ ν} {lo hi k : κ} :
    (k, v) ∈ m.range lo hi ↔ m.get? k = some v ∧ lo ≤ k ∧ k ≤ hi := by
  simp [range, mem_entries]

lemma range_sorted (lo hi : κ) : (m.range lo hi).Pairwise (fun a b => a.1 < b.1) :=
  m.sorted.filter _

lemma get?_mapValues {μ : Type} (f : ν → μ) (k : κ) :
    (m.mapValues f).get? k = (m.get? k).map f := by
  show (m.entries.map fun e => (e.1, f e.2)).lookup k = (m.entries.lookup k).map f
  generalize m.entries = l
  induction l with
  | nil => rfl
  | cons e rest ih =>
    rw [map_cons, lookup_cons_ite, lookup_cons_ite, ih]
    split_ifs <;> rfl

/-- Inserting the entries of a map in order rebuilds it, whatever its elements were read
from. -/
lemma insertAll_entries {α ε : Type} {entry : α → Except ε (κ × ν)} {duplicate : ε} {rows : List α}
    (done : List (κ × ν)) {m : OrdMap κ ν}
    (hrows : List.Forall₂ (fun a e => entry a = .ok e) rows l)
    (hsorted : (done ++ l).Pairwise (fun a b => a.1 < b.1))
    (hm : ∀ k v, m.get? k = some v ↔ (k, v) ∈ done) :
    ∃ result, insertAll entry duplicate rows m = .ok result ∧ ∀ k v, result.get? k = some v ↔
    (k, v) ∈ done ++ l := by
  -- The invariant of the loop: the map holds exactly the entries already read.
  induction hrows generalizing done m with
  | nil => exact ⟨m, rfl, by simpa using hm⟩
  | @cons a e rows l ha _ ih =>
    have hnew : m.get? e.1 = none := by
      rw [Option.eq_none_iff_forall_ne_some]
      intro v hv
      have hlt := (pairwise_append.mp hsorted).2.2 _ ((hm _ _).mp hv) e mem_cons_self
      exact lt_irrefl _ hlt
    rw [append_cons] at hsorted ⊢
    obtain ⟨result, hresult, hget⟩ := ih (done ++ [e]) (m := m.insert e.1 e.2) hsorted (by
      intro k v
      rw [get?_insert, mem_append, mem_singleton]
      by_cases hk : k = e.1
      · subst hk
        rw [if_pos rfl, Option.some.injEq]
        constructor
        · rintro rfl
          exact Or.inr rfl
        · rintro (hmem | heq)
          · rw [(hm _ _).mpr hmem] at hnew
            cases hnew
          · rw [← heq]
      · rw [if_neg hk, hm]
        constructor
        · exact Or.inl
        · rintro (hmem | heq)
          · exact hmem
          · exact absurd (congrArg Prod.fst heq) hk)
    refine ⟨result, ?_, hget⟩
    unfold insertAll
    rw [ha]
    simp only [contains, hnew, Option.isSome_none, Bool.false_eq_true, if_false]
    exact hresult

lemma insertAll_empty {α ε : Type} {entry : α → Except ε (κ × ν)} {duplicate : ε} {rows : List α}
      {m : OrdMap κ ν}
    (hrows : List.Forall₂ (fun a e => entry a = .ok e) rows m.entries) :
    insertAll entry duplicate rows empty = .ok m := by
  have hempty : ∀ (k : κ) (v : ν), (empty : OrdMap κ ν).get? k = some v ↔ (k, v) ∈ [] := by
    intro k v
    simp
  obtain ⟨result, hresult, hget⟩ := insertAll_entries [] hrows m.sorted hempty
  rw [hresult]
  refine congrArg Except.ok (ext_get? fun k => Option.ext fun v => ?_)
  rw [hget k v, nil_append, mem_entries]

/-! ## The set of keys -/

/-- The keys as a finite set. -/
def keySet (m : OrdMap κ ν) : Finset κ := ⟨m.keys, m.nodup_keys⟩

lemma mem_keySet {m : OrdMap κ ν} : k ∈ m.keySet ↔ ∃ v, m.get? k = some v := mem_keys

lemma card_keySet : m.keySet.card = m.size := by simp [keySet, size, keys]

lemma keySet_erase (k : κ) : (m.erase k).keySet = m.keySet.erase k := by
  ext k'
  rw [Finset.mem_erase, mem_keySet, mem_keySet, get?_erase]
  by_cases h : k' = k <;> simp [h]

lemma card_filter_keySet_erase (k : κ) (p : κ → Prop) [DecidablePred p] :
    ((m.erase k).keySet.filter p).card = if p k ∧
    m.contains k = true then (m.keySet.filter p).card - 1 else (m.keySet.filter p).card := by
  rw [keySet_erase, Finset.filter_erase]
  split_ifs with h
  · refine Finset.card_erase_of_mem ?_
    rw [Finset.mem_filter, mem_keySet]
    exact ⟨contains_iff.mp h.2, h.1⟩
  · refine congrArg Finset.card (Finset.erase_eq_of_notMem ?_)
    rw [Finset.mem_filter, mem_keySet, ← contains_iff]
    rintro ⟨hmem, hp⟩
    exact h ⟨hp, hmem⟩

/-! ## Loops of insertions and removals -/

section Loops

variable {α : Type} (key : α → κ) (val : α → ν)

/-- The value that a loop of insertions leaves under `k`, if it writes there at all. -/
def lastWrite (l : List α) (k : κ) : Option ν := (l.reverse.find? (fun a => key a = k)).map val

/-- Whether some element of the list has the key `k`. -/
def touches (l : List α) (k : κ) : Bool := l.any fun a => key a = k

variable {key val} {l : List α}

lemma touches_iff {k : κ} : touches key l k = true ↔ ∃ a ∈ l, key a = k := by simp [touches]

@[simp] lemma touches_nil (k : κ) : touches key [] k = false := rfl

@[simp] lemma lastWrite_nil (k : κ) : lastWrite key val [] k = none := rfl

lemma lastWrite_singleton (a : α) (k : κ) :
    lastWrite key val [a] k = if key a = k then some (val a) else none := by
  by_cases hk : key a = k <;> simp [lastWrite, hk]

lemma lastWrite_append (l l' : List α) (k : κ) :
    lastWrite key val (l ++ l') k = (lastWrite key val l' k).or (lastWrite key val l k) := by
  rw [lastWrite, reverse_append, find?_append, lastWrite, lastWrite]
  cases l'.reverse.find? (fun a => key a = k) <;> simp

lemma lastWrite_cons (a : α) (l : List α) (k : κ) :
    lastWrite key val (a :: l) k = (lastWrite key val l k).or (if key a = k then some (val a)
      else none) := by
  rw [← singleton_append, lastWrite_append, lastWrite_singleton]

lemma lastWrite_eq_some {k : κ} {v : ν} (h : lastWrite key val l k = some v) :
    ∃ a ∈ l, key a = k ∧ val a = v := by
  obtain ⟨a, hfind, hval⟩ := Option.map_eq_some_iff.mp h
  have hkey := find?_some hfind
  exact ⟨a, mem_reverse.mp (mem_of_find?_eq_some hfind), by simpa using hkey, hval⟩

lemma lastWrite_eq_none {k : κ} : lastWrite key val l k = none ↔ ∀ a ∈ l, key a ≠ k := by
  simp [lastWrite]

variable (val) in
/-- Without a repeated key, every element's write is the last one. -/
lemma lastWrite_of_nodup (hnodup : (l.map key).Nodup) {a : α} (ha : a ∈ l) :
    lastWrite key val l (key a) = some (val a) := by
  cases h : lastWrite key val l (key a) with
  | none => exact absurd rfl (lastWrite_eq_none.mp h a ha)
  | some v =>
    obtain ⟨b, hb, hkey, hval⟩ := lastWrite_eq_some h
    rw [inj_on_of_nodup_map hnodup hb ha hkey] at hval
    rw [hval]

variable (key val) in
/-- A loop of insertions: the last one for a key decides it. -/
lemma get?_foldl_insert (l : List α) (m : OrdMap κ ν) (k : κ) :
    (l.foldl (fun m a => m.insert (key a) (val a)) m).get? k =
      (lastWrite key val l k).or (m.get? k) := by
  induction l generalizing m with
  | nil => simp
  | cons a rest ih =>
    rw [foldl_cons, ih, lastWrite_cons, get?_insert]
    by_cases hk : key a = k
    · cases lastWrite key val rest k <;> simp [hk]
    · cases lastWrite key val rest k <;> simp [hk, Ne.symm hk]

variable (key) in
/-- A loop of removals. -/
lemma get?_foldl_erase (l : List α) (m : OrdMap κ ν) (k : κ) :
    (l.foldl (fun m a => m.erase (key a)) m).get? k = if touches key l k = true then none
    else m.get? k := by
  induction l generalizing m with
  | nil => simp
  | cons a rest ih =>
    rw [foldl_cons, ih, get?_erase]
    by_cases hk : key a = k
    · simp [touches, hk]
    · simp [touches, hk, Ne.symm hk]

end Loops

end OrdMap

/-! ## Rows of a map with paired keys -/

namespace OrdMap

variable {α : Type} [LinearOrder α]

lemma lex_between {r r' : α} {lo hi q : ℕ} :
    toLex (r, lo) ≤ toLex (r', q) ∧ toLex (r', q) ≤ toLex (r, hi) ↔ r' = r ∧ lo ≤ q ∧ q ≤ hi := by
  rw [Prod.Lex.toLex_le_toLex, Prod.Lex.toLex_le_toLex]
  constructor
  · rintro ⟨hlo | ⟨h, hlo⟩, hhi⟩
    · rcases hhi with hhi | ⟨h, -⟩
      · exact absurd hlo (lt_asymm hhi)
      · exact absurd hlo (not_lt_of_ge (le_of_eq h))
    · rcases hhi with hhi | ⟨-, hhi⟩
      · exact absurd hhi (not_lt_of_ge (le_of_eq h))
      · exact ⟨h.symm, hlo, hhi⟩
  · rintro ⟨rfl, hlo, hhi⟩
    exact ⟨Or.inr ⟨rfl, hlo⟩, Or.inr ⟨rfl, hhi⟩⟩

lemma mem_row {m : OrdMap (α ×ₗ ℕ) ν} {r r' : α} {lo hi q : ℕ} {v : ν} :
    (toLex (r', q), v) ∈ m.range (toLex (r, lo))
    (toLex (r, hi)) ↔ r' = r ∧ lo ≤ q ∧ q ≤ hi ∧ m.get? (toLex (r, q)) = some v := by
  rw [mem_range, lex_between]
  constructor
  · rintro ⟨h, rfl, hlo, hhi⟩
    exact ⟨rfl, hlo, hhi, h⟩
  · rintro ⟨rfl, hlo, hhi, h⟩
    exact ⟨h, rfl, hlo, hhi⟩

/-- A range without holes inside one row lists consecutive keys. -/
lemma row_keys {m : OrdMap (α ×ₗ ℕ) ν} {r : α} {lo hi top : ℕ} (full : ∀ q, lo ≤ q → q ≤ hi →
      ∃ v, m.get? (toLex (r, q)) = some v)
    (above : ∀ q v, m.get? (toLex (r, q)) = some v → lo ≤ q → q ≤ top → q ≤ hi) (htop : hi ≤ top) :
    (m.range (toLex (r, lo)) (toLex (r, top))).map Prod.fst =
      (List.range' lo (hi + 1 - lo)).map (fun q => toLex (r, q)) := by
  have hsorted : ((m.range (toLex (r, lo)) (toLex (r, top))).map Prod.fst).Pairwise (· < ·) :=
    pairwise_map.mpr (m.range_sorted _ _)
  have hsorted' : ((List.range' lo (hi + 1 - lo)).map (fun q => toLex (r, q))).Pairwise (· < ·) :=
    by
    refine pairwise_map.mpr ((pairwise_lt_range' 1).imp ?_)
    intro a b hab
    exact Prod.Lex.toLex_lt_toLex.mpr (Or.inr ⟨rfl, hab⟩)
  refine List.Perm.eq_of_pairwise (fun x y _ _ hxy hyx => absurd hxy (lt_asymm hyx))
    hsorted hsorted' ?_
  refine (perm_ext_iff_of_nodup (hsorted.imp ne_of_lt) (hsorted'.imp ne_of_lt)).mpr ?_
  intro k
  rw [mem_map, mem_map]
  constructor
  · rintro ⟨⟨k, v⟩, hmem, rfl⟩
    obtain ⟨⟨r', q⟩, rfl⟩ := toLex.surjective k
    obtain ⟨rfl, hlo, htop, hv⟩ := mem_row.mp hmem
    have hhi := above q v hv hlo htop
    exact ⟨q, by rw [mem_range'_1]; omega, rfl⟩
  · rintro ⟨q, hq, rfl⟩
    rw [mem_range'_1] at hq
    obtain ⟨v, hv⟩ := full q (by omega) (by omega)
    exact ⟨(toLex (r, q), v), mem_row.mpr ⟨rfl, by omega, by omega, hv⟩, rfl⟩

end OrdMap

end Chatt.Lib
