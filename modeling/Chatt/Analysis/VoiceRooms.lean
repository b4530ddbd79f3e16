import Chatt.Interface.VoiceRun

/-!
# The member bitsets of voice rooms

A room is the set of the slots whose bits are set: `has_insert`, `has_remove`, `isEmpty_iff` and
`mem_slots` say what each operation does to that set.
-/

namespace Chatt.VoiceRelay.VoiceRoom

open Lib

variable (room : VoiceRoom) (slot other : Slot) {place : ℕ}

lemma mod_lt : slot.val % 64 < 64 := Nat.mod_lt _ (by decide)

lemma bit_toNat : (bit slot).toNat = 2 ^ (slot.val % 64) := by
  have hsmall := mod_lt slot
  have hfits : 2 ^ (slot.val % 64) < 2 ^ 64 := Nat.pow_lt_pow_right (by decide) hsmall
  have hword : (UInt64.ofNat (slot.val % 64)).toNat = slot.val % 64 := by
    rw [UInt64.toNat_ofNat', Nat.mod_eq_of_lt (by omega)]
  rw [bit, UInt64.toNat_shiftLeft, hword]
  rw [show (1 : UInt64).toNat = 1 from rfl, Nat.mod_eq_of_lt hsmall, Nat.one_shiftLeft,
    Nat.mod_eq_of_lt hfits]

/-- Two slots with one word and one bit are the same slot. -/
lemma eq_of_word_bit (hword : word other = word slot) (hbit : other.val % 64 = slot.val % 64) :
    other = slot := by
  have hdiv : other.val / 64 = slot.val / 64 := congrArg Fin.val hword
  apply Fin.ext
  omega

lemma has_put (value : UInt64) :
    has { members := put room.members (word slot) value } other = if word other =
      word slot then value.toNat.testBit (other.val % 64) else room.has other := by
  rw [has, get_put]
  split <;> rfl

lemma has_empty : empty.has slot = false := by simp [has, empty]

lemma has_insert : (room.insert slot).has other = (room.has other || decide (other = slot)) := by
  rw [insert, has_put]
  split
  · next hword =>
    rw [UInt64.toNat_or, Nat.testBit_or, bit_toNat, Nat.testBit_two_pow, has, hword]
    congr 1
    rw [decide_eq_decide]
    constructor
    · intro hbit
      exact eq_of_word_bit slot other hword hbit.symm
    · rintro rfl
      rfl
  · next hword =>
    have hne : other ≠ slot := by
      rintro rfl
      exact hword rfl
    simp [hne]

lemma has_remove : (room.remove slot).has other = (room.has other && decide (other ≠ slot)) := by
  rw [remove, has_put]
  split
  · next hword =>
    have hclear : (~~~bit slot).toNat.testBit (other.val % 64) =
        decide (slot.val % 64 ≠ other.val % 64) := by
      rw [← UInt64.toNat_toBitVec, BitVec.testBit_toNat, UInt64.toBitVec_not, BitVec.getLsbD_not,
        ← BitVec.testBit_toNat, UInt64.toNat_toBitVec, bit_toNat, Nat.testBit_two_pow]
      simp [mod_lt other]
    rw [UInt64.toNat_and, Nat.testBit_and, hclear, has, hword]
    congr 1
    rw [decide_eq_decide]
    constructor
    · rintro hbit rfl
      exact hbit rfl
    · intro hne hbit
      exact hne (eq_of_word_bit slot other hword hbit.symm)
  · next hword =>
    have hne : other ≠ slot := by
      rintro rfl
      exact hword rfl
    simp [hne]

lemma slot_lt (index : Fin sessionWords) (h : place < 64) :
    index.val * 64 + place < maxSessions := by
  have := index.isLt
  unfold sessionWords maxSessions at this
  unfold maxSessions
  omega

/-- Every bit of every word is the bit of a slot. -/
lemma has_mk (index : Fin sessionWords) (h : place < 64) :
    room.has ⟨index.val * 64 + place, slot_lt index h⟩ =
      (room.members.get index).toNat.testBit place := by
  have hword : word ⟨index.val * 64 + place, slot_lt index h⟩ = index := by
    apply Fin.ext
    show (index.val * 64 + place) / 64 = index.val
    omega
  have hplace : (index.val * 64 + place) % 64 = place := by omega
  rw [has, hword]
  simp only [hplace]

lemma place_lt {value : UInt64} (h : value.toNat.testBit place = true) : place < 64 := by
  by_contra hge
  have hpow := Nat.pow_le_pow_right (show 0 < 2 by decide) (not_lt.mp hge)
  rw [Nat.testBit_lt_two_pow (lt_of_lt_of_le (UInt64.toNat_lt _) hpow)] at h
  exact Bool.false_ne_true h

lemma isEmpty_iff : room.isEmpty = true ↔ ∀ slot, room.has slot = false := by
  rw [isEmpty, Vector.all_eq_true]
  constructor
  · intro h slot
    have hzero := h (word slot).val (word slot).isLt
    rw [beq_iff_eq] at hzero
    rw [has, Vector.get_eq_getElem, hzero]
    simp
  · intro h index hindex
    rw [beq_iff_eq, ← UInt64.toNat_inj]
    apply Nat.eq_of_testBit_eq
    intro place
    by_cases hplace : place < 64
    · have hbit := room.has_mk ⟨index, hindex⟩ hplace
      rw [h, Vector.get_eq_getElem] at hbit
      simpa using hbit.symm
    · have hbit : ¬(room.members[index].toNat.testBit place = true) := fun h => hplace (place_lt h)
      simpa using hbit

lemma mem_slots (n : ℕ) : n ∈ room.slots ↔ ∃ slot : Slot, slot.val = n ∧ room.has slot = true := by
  simp only [slots, List.mem_flatMap, List.mem_map, List.mem_finRange, true_and]
  constructor
  · rintro ⟨index, place, hplace, rfl⟩
    have hbit := (mem_scanBits (UInt64.toNat_lt _) place).mp hplace
    have hlt := place_lt hbit
    exact ⟨⟨index.val * 64 + place, slot_lt index hlt⟩, rfl, (room.has_mk index hlt).trans hbit⟩
  · rintro ⟨slot, rfl, hhas⟩
    refine ⟨word slot, slot.val % 64, (mem_scanBits (UInt64.toNat_lt _) _).mpr hhas, ?_⟩
    show slot.val / 64 * 64 + slot.val % 64 = slot.val
    omega

lemma nodup_slots : room.slots.Nodup := by
  apply List.nodup_flatMap.mpr
  refine ⟨?_, ?_⟩
  · intro index _
    apply (nodup_scanBits (UInt64.toNat_lt _)).map
    intro a b hab
    simpa using hab
  · -- the slots of different words differ in their quotient by 64
    apply (List.nodup_finRange sessionWords).imp
    intro a b hab n hna hnb
    simp only [List.mem_map] at hna hnb
    obtain ⟨x, hx, rfl⟩ := hna
    obtain ⟨y, hy, hxy⟩ := hnb
    have hxlt := place_lt ((mem_scanBits (UInt64.toNat_lt _) x).mp hx)
    have hylt := place_lt ((mem_scanBits (UInt64.toNat_lt _) y).mp hy)
    apply hab
    apply Fin.ext
    omega

end Chatt.VoiceRelay.VoiceRoom
