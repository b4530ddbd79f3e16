import Mathlib

/-!
# Counters under keys

A slot owns a key and counts up under it; each count is a use of the pair of key and number.  Keys
are drawn fresh, a record of a key may be held for its owner when its slot is gone, and a slot may
be set up again from such a record as long as the key has not been used.  Then no pair is ever used
twice.
-/

namespace Chatt.Lib

open List

/-- A slot: its key, who owns it, and the next number. -/
structure KeySlot (κ ω : Type) where
  key : κ
  owner : ω
  next : ℕ

variable {κ ω : Type}

/-- The state of keys: the `slots`, the records `held`, all keys `drawn`, all pairs `used`. -/
structure KeysCounted (slots : List (KeySlot κ ω)) (held : List (κ × ω)) (drawn : List κ)
    (used : List (κ × ℕ)) : Prop where
  slot_drawn : ∀ s ∈ slots, s.key ∈ drawn
  held_drawn : ∀ h ∈ held, h.1 ∈ drawn
  used_drawn : ∀ u ∈ used, u.1 ∈ drawn
  slot_owner : ∀ s ∈ slots, ∀ h ∈ held, s.key = h.1 → s.owner = h.2
  held_owner : ∀ h ∈ held, ∀ h' ∈ held, h.1 = h'.1 → h.2 = h'.2
  distinct : (slots.map KeySlot.key).Nodup
  ahead : ∀ s ∈ slots, ∀ u ∈ used, u.1 = s.key → u.2 < s.next
  once : used.Nodup

namespace KeysCounted

variable {slots : List (KeySlot κ ω)} {held : List (κ × ω)} {drawn : List κ}
  {used : List (κ × ℕ)}

lemma empty : KeysCounted ([] : List (KeySlot κ ω)) [] [] [] := by constructor <;> simp

section

variable (h : KeysCounted slots held drawn used)

include h

/-- Slots may go, records may go and be repeated, keys may be drawn and not given out. -/
lemma mono {slots' : List (KeySlot κ ω)} {held' : List (κ × ω)} {drawn' : List κ}
      (hslots : slots'.Sublist slots) (hheld : held' ⊆ held) (hdrawn : drawn ⊆ drawn') :
    KeysCounted slots' held' drawn' used where
  slot_drawn s hs := hdrawn (h.slot_drawn s (hslots.subset hs))
  held_drawn r hr := hdrawn (h.held_drawn r (hheld hr))
  used_drawn u hu := hdrawn (h.used_drawn u hu)
  slot_owner s hs r hr := h.slot_owner s (hslots.subset hs) r (hheld hr)
  held_owner r hr r' hr' := h.held_owner r (hheld hr) r' (hheld hr')
  distinct := h.distinct.sublist (hslots.map KeySlot.key)
  ahead s hs := h.ahead s (hslots.subset hs)
  once := h.once

/-- A fresh key is recorded for an owner. -/
lemma record {key : κ} (hkey : key ∉ drawn) (owner : ω) :
    KeysCounted slots (held ++ [(key, owner)]) (key :: drawn) used := by
  have hslot : ∀ s ∈ slots, s.key ≠ key := fun s hs heq => hkey (heq ▸ h.slot_drawn s hs)
  have hheld : ∀ r ∈ held, r.1 ≠ key := fun r hr heq => hkey (heq ▸ h.held_drawn r hr)
  constructor
  · exact fun s hs => mem_cons_of_mem _ (h.slot_drawn s hs)
  · intro r hr
    rcases mem_append.mp hr with hr | hr
    · exact mem_cons_of_mem _ (h.held_drawn r hr)
    · simp [mem_singleton.mp hr]
  · exact fun u hu => mem_cons_of_mem _ (h.used_drawn u hu)
  · intro s hs r hr heq
    rcases mem_append.mp hr with hr | hr
    · exact h.slot_owner s hs r hr heq
    · exact absurd (heq.trans (by rw [mem_singleton.mp hr])) (hslot s hs)
  · intro r hr r' hr' heq
    rcases mem_append.mp hr with hr | hr <;> rcases mem_append.mp hr' with hr' | hr'
    · exact h.held_owner r hr r' hr' heq
    · exact absurd (heq.trans (by rw [mem_singleton.mp hr'])) (hheld r hr)
    · exact absurd (heq.symm.trans (by rw [mem_singleton.mp hr])) (hheld r' hr')
    · rw [mem_singleton.mp hr, mem_singleton.mp hr']
  · exact h.distinct
  · exact h.ahead
  · exact h.once

/-- A slot is set up from a record whose key no slot has and nothing has used. -/
lemma attach {key : κ} {owner : ω} (hheld : (key, owner) ∈ held) (hslot : ∀ s ∈ slots, s.key ≠ key)
    (hunused : ∀ u ∈ used, u.1 ≠ key) :
    KeysCounted (slots ++ [⟨key, owner, 0⟩]) held drawn used := by
  constructor
  · exact forall_mem_append.mpr ⟨h.slot_drawn, forall_mem_singleton.mpr (h.held_drawn _ hheld)⟩
  · exact h.held_drawn
  · exact h.used_drawn
  · intro s hs r hr heq
    rcases mem_append.mp hs with hs | hs
    · exact h.slot_owner s hs r hr heq
    · rw [mem_singleton.mp hs] at heq ⊢
      exact h.held_owner _ hheld r hr heq
  · exact h.held_owner
  · rw [map_append, nodup_append]
    refine ⟨h.distinct, nodup_singleton _, ?_⟩
    intro a ha b hb heq
    obtain ⟨s, hs, rfl⟩ := mem_map.mp ha
    rw [map_singleton, mem_singleton] at hb
    exact hslot s hs (heq.trans hb)
  · intro s hs u hu heq
    rcases mem_append.mp hs with hs | hs
    · exact h.ahead s hs u hu heq
    · exact absurd (heq.trans (by rw [mem_singleton.mp hs])) (hunused u hu)
  · exact h.once

/-- A fresh key is given to a new slot, and recorded. -/
lemma grant {key : κ} (hkey : key ∉ drawn) (owner : ω) :
    KeysCounted (slots ++ [⟨key, owner, 0⟩]) (held ++ [(key, owner)]) (key :: drawn) used := by
  apply (h.record hkey owner).attach
  · simp
  · exact fun s hs heq => hkey (heq ▸ h.slot_drawn s hs)
  · exact fun u hu heq => hkey (heq ▸ h.used_drawn u hu)

/-- A slot is set up again from a record, for an owner without a slot and a key without a use. -/
lemma regrant {key : κ} {owner : ω} (hheld : (key, owner) ∈ held)
      (howner : ∀ s ∈ slots, s.owner ≠ owner)
    (hunused : ∀ u ∈ used, u.1 ≠ key) :
    KeysCounted (slots ++ [⟨key, owner, 0⟩]) held drawn used := by
  apply h.attach hheld _ hunused
  exact fun s hs heq => howner s hs (h.slot_owner s hs _ hheld heq)

end

/-- Before the first use, a key without a slot or a record is as good as fresh. -/
lemma redrawn (h : KeysCounted slots held drawn []) :
    KeysCounted slots held (slots.map KeySlot.key ++ held.map Prod.fst) [] :=
  { h with
    slot_drawn := fun _ hs => mem_append_left _ (mem_map_of_mem hs)
    held_drawn := fun _ hr => mem_append_right _ (mem_map_of_mem hr)
    used_drawn := nofun }

/-- A slot uses its next number. -/
lemma use {slot : KeySlot κ ω} (h : KeysCounted (slot :: slots) held drawn used) :
    KeysCounted ({ slot with next := slot.next + 1 } :: slots) held drawn
      ((slot.key, slot.next) :: used) := by
  have hhead : slot ∈ slot :: slots := mem_cons_self
  constructor
  · intro s hs
    rcases mem_cons.mp hs with rfl | hs
    · exact h.slot_drawn slot hhead
    · exact h.slot_drawn s (mem_cons_of_mem _ hs)
  · exact h.held_drawn
  · exact forall_mem_cons.mpr ⟨h.slot_drawn slot hhead, h.used_drawn⟩
  · intro s hs r hr heq
    rcases mem_cons.mp hs with rfl | hs
    · exact h.slot_owner slot hhead r hr heq
    · exact h.slot_owner s (mem_cons_of_mem _ hs) r hr heq
  · exact h.held_owner
  · exact h.distinct
  · have hdistinct := h.distinct
    rw [map_cons, nodup_cons] at hdistinct
    intro s hs u hu heq
    rcases mem_cons.mp hs with rfl | hs <;> rcases mem_cons.mp hu with rfl | hu
    · exact Nat.lt_succ_self _
    · exact Nat.lt_succ_of_lt (h.ahead slot hhead u hu heq)
    · have hkey : slot.key = s.key := heq
      exact absurd (hkey ▸ mem_map_of_mem hs) hdistinct.1
    · exact h.ahead s (mem_cons_of_mem _ hs) u hu heq
  · refine nodup_cons.mpr ⟨fun hmem => ?_, h.once⟩
    exact absurd (h.ahead slot hhead _ hmem rfl) (lt_irrefl _)

end KeysCounted

end Chatt.Lib
