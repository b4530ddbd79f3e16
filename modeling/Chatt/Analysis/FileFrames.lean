import Chatt.Interface.IdealCrypto
import Chatt.Model.FileWire

/-!
# The frames of a sealed transfer

A frame is sealed below the limit of the index, under the key it was asked for.  The padding of a
stream rounds its length up to a multiple of a power of two.
-/

namespace Chatt.FileTransfer

open Lib

variable {aead : Aead} {index : UInt64}

/-- A frame that was sealed has an index below the limit, and its call is under the key and the
index that were asked for. -/
lemma sealFileChunk_eq_ok {fileKey : ByteArr 32} {scope : FileChunkScope} {payload frame : Bytes}
    {padLen : ℕ} {call : SealCall}
    (h : sealFileChunk aead fileKey scope index payload padLen = .ok (frame, call)) :
    index < rejectAfterMessages ∧ call.fileKey = fileKey ∧ call.index = index := by
  obtain ⟨_, hrun, hresult⟩ := bind_eq_ok.mp h
  cases hresult
  refine ⟨?_, rfl, rfl⟩
  by_contra hlimit
  rw [SealCall.run, Media.sealInPlaceAppendTag, if_pos (UInt64.not_lt.mp hlimit)] at hrun
  cases hrun

lemma toNat_succ_of_lt (h : index < rejectAfterMessages) : (index + 1).toNat = index.toNat + 1 := by
  have hlt : index.toNat < 18446744073709551599 := UInt64.lt_iff_toNat_lt.mp h
  exact Nat.mod_eq_of_lt (by simpa using by omega)

/-! ## Padding -/

section Padding

variable {n m : ℕ}

/-- The number of low bits that the padding of a length clears. -/
def padShift (len : ℕ) : ℕ := len.log2 - (len.log2.log2 + 1)

lemma padmeLen_of_le (h : 2 ≤ n) :
    padmeLen n = (n + (2 ^ padShift n - 1)) / 2 ^ padShift n * 2 ^ padShift n :=
  if_neg (by omega)

/-- The padded length is the least multiple of its unit that is not below the length. -/
lemma padmeLen_le_iff (h : 2 ≤ n) (hm : 2 ^ padShift n ∣ m) : padmeLen n ≤ m ↔ n ≤ m := by
  obtain ⟨c, rfl⟩ := hm
  have hpos := Nat.two_pow_pos (padShift n)
  rw [padmeLen_of_le h, Nat.mul_comm, Nat.mul_le_mul_left_iff hpos,
    Nat.div_le_iff_le_mul_add_pred hpos]
  omega

lemma dvd_padmeLen (h : 2 ≤ n) : 2 ^ padShift n ∣ padmeLen n := by
  rw [padmeLen_of_le h]
  exact Nat.dvd_mul_left _ _

lemma le_padmeLen (n : ℕ) : n ≤ padmeLen n := by
  by_cases h : 2 ≤ n
  · exact (padmeLen_le_iff h (dvd_padmeLen h)).mp le_rfl
  · exact (if_pos (by omega)).ge

lemma padmeLen_le_two_pow {e : ℕ} (h : n ≤ 2 ^ e) : padmeLen n ≤ 2 ^ e := by
  by_cases hn : 2 ≤ n
  · have hlog : n.log2 < e + 1 :=
      (Nat.log2_lt (by omega)).mpr (h.trans_lt (Nat.pow_lt_pow_right one_lt_two e.lt_succ_self))
    exact (padmeLen_le_iff hn (Nat.pow_dvd_pow 2 (by unfold padShift; omega))).mpr h
  · rwa [padmeLen, if_pos (by omega)]

lemma log2_le_log2 (hn : 2 ≤ n) (hle : n ≤ m) : n.log2 ≤ m.log2 :=
  (Nat.le_log2 (by omega)).mpr ((Nat.log2_self_le (by omega)).trans hle)

lemma padmeLen_mono : Monotone padmeLen := by
  intro n m hle
  by_cases hn : 2 ≤ n
  · by_cases hlog : n.log2 = m.log2
    · refine (padmeLen_le_iff hn ?_).mpr (hle.trans (le_padmeLen m))
      rw [padShift, hlog]
      exact dvd_padmeLen (hn.trans hle)
    · have hlt : n < 2 ^ m.log2 :=
        (Nat.log2_lt (by omega)).mp (lt_of_le_of_ne (log2_le_log2 hn hle) hlog)
      exact (padmeLen_le_two_pow hlt.le).trans
        ((Nat.log2_self_le (by omega)).trans (le_padmeLen m))
  · rw [padmeLen, if_pos (by omega)]
    exact hle.trans (le_padmeLen m)

lemma padmeLen_idem (n : ℕ) : padmeLen (padmeLen n) = padmeLen n := by
  by_cases hn : 2 ≤ n
  · have hle := le_padmeLen n
    refine le_antisymm ((padmeLen_le_iff (hn.trans hle) ?_).mpr le_rfl) (le_padmeLen _)
    by_cases hlog : (padmeLen n).log2 = n.log2
    · rw [padShift, hlog]
      exact dvd_padmeLen hn
    -- rounding up reached the next power of two
    have hlt := lt_of_le_of_ne (log2_le_log2 hn hle) (Ne.symm hlog)
    have hpow : 2 ^ (padmeLen n).log2 = padmeLen n :=
      le_antisymm (Nat.log2_self_le (by omega))
        ((padmeLen_le_two_pow Nat.lt_log2_self.le).trans (Nat.pow_le_pow_right two_pos hlt))
    exact (Nat.pow_dvd_pow 2 (Nat.sub_le _ _)).trans hpow.dvd
  · have h : padmeLen n = n := if_pos (by omega)
    rw [h, h]

lemma log2_log2_lt (h : 2 ≤ n) : n.log2.log2 < n.log2 := by
  have hpos : 1 ≤ n.log2 := (Nat.le_log2 (by omega)).mpr (by omega)
  exact (Nat.log2_lt (by omega)).mpr Nat.lt_two_pow_self

lemma log2_mul_padding_le (h : 2 ≤ n) : n.log2 * (padmeLen n - n) ≤ n := by
  have hpad : padmeLen n - n ≤ 2 ^ padShift n := by
    rw [padmeLen_of_le h, Nat.sub_le_iff_le_add']
    exact (Nat.div_mul_le_self _ _).trans (Nat.add_le_add_left (Nat.sub_le _ 1) n)
  calc n.log2 * (padmeLen n - n)
    _ ≤ 2 ^ (n.log2.log2 + 1) * 2 ^ padShift n := Nat.mul_le_mul Nat.lt_log2_self.le hpad
    _ = 2 ^ n.log2 := by rw [← Nat.pow_add, padShift, Nat.add_sub_cancel' (log2_log2_lt h)]
    _ ≤ n := Nat.log2_self_le (by omega)

lemma toNat_sub_leadingZeros {word : UInt64} (h : word ≠ 0) :
    (63 - leadingZeros word).toNat = word.toNat.log2 := by
  rw [leadingZeros, if_neg h, sub_sub_cancel]
  rfl

lemma toNat_and_not_mask {word mask : UInt64} {k : ℕ} (h : mask.toNat = 2 ^ k - 1) :
    (word &&& ~~~mask).toNat = word.toNat / 2 ^ k * 2 ^ k := by
  rw [← Nat.shiftRight_eq_div_pow, ← Nat.shiftLeft_eq]
  apply Nat.eq_of_testBit_eq
  intro i
  have hmask : mask.toBitVec.getLsbD i = decide (i < k) := by
    rw [← BitVec.testBit_toNat, ← Nat.testBit_two_pow_sub_one, ← h]
    rfl
  have hand : (word &&& ~~~mask).toNat.testBit i = (word.toBitVec &&& ~~~mask.toBitVec).getLsbD i :=
    BitVec.testBit_toNat _
  rw [hand, BitVec.getLsbD_and, BitVec.getLsbD_not, hmask, Nat.testBit_shiftLeft,
    Nat.testBit_shiftRight]
  by_cases hk : k ≤ i
  · rw [Nat.add_sub_cancel' hk]
    show _ = (_ && word.toBitVec.toNat.testBit i)
    rw [BitVec.testBit_toNat]
    grind
  · grind

lemma toNat_mask {k : UInt64} (h : k.toNat < 64) :
    (1 <<< k - 1 : UInt64).toNat = 2 ^ k.toNat - 1 := by
  have hlt : 2 ^ k.toNat < 2 ^ 64 := Nat.pow_lt_pow_right one_lt_two h
  have hshift : (1 <<< k : UInt64).toNat = 2 ^ k.toNat := by
    rw [UInt64.toNat_shiftLeft, Nat.mod_eq_of_lt h, UInt64.toNat_one, Nat.one_shiftLeft,
      Nat.mod_eq_of_lt hlt]
  rw [UInt64.toNat_sub_of_le, hshift, UInt64.toNat_one]
  rw [UInt64.le_iff_toNat_le, hshift]
  exact Nat.two_pow_pos _

lemma toNat_padmeLenU64 {len : UInt64} (h : len.toNat ≤ 2 ^ 63) :
    (padmeLenU64 len).toNat = padmeLen len.toNat := by
  by_cases hlen : 2 ≤ len.toNat
  · have he := @toNat_sub_leadingZeros len (by rintro rfl; cases hlen)
    have hpos : 1 ≤ len.toNat.log2 := (Nat.le_log2 (by omega)).mpr (by omega)
    have hlog : len.toNat.log2 < 64 := (Nat.log2_lt (by omega)).mpr (by omega)
    have hloglog := log2_log2_lt hlen
    have hge : ¬ len < 2 := fun hlt => hlen.not_gt (UInt64.lt_iff_toNat_lt.mp hlt)
    rw [padmeLen_of_le hlen, padmeLenU64, if_neg hge]
    dsimp only
    generalize 63 - leadingZeros len = e at he
    have hs := @toNat_sub_leadingZeros e (by rintro rfl; rw [← he] at hpos; cases hpos)
    rw [he] at hs
    have hs' : (64 - leadingZeros e).toNat = len.toNat.log2.log2 + 1 := by
      rw [show 64 - leadingZeros e = 63 - leadingZeros e + 1 from add_sub_right_comm 63 1 _,
        UInt64.toNat_add, hs, UInt64.toNat_one, Nat.mod_eq_of_lt (by omega)]
    generalize 64 - leadingZeros e = s at hs'
    have hshift : (e - s).toNat = padShift len.toNat := by
      rw [UInt64.toNat_sub_of_le _ _ (UInt64.le_iff_toNat_le.mpr (by omega)), he, hs', padShift]
    have hmask := toNat_mask (k := e - s) (by unfold padShift at hshift; omega)
    rw [hshift] at hmask
    have hunit : 2 ^ padShift len.toNat ≤ len.toNat := (Nat.le_log2 (by omega)).mp (Nat.sub_le _ _)
    have hwrap : len.toNat + (2 ^ padShift len.toNat - 1) < 2 ^ 64 := by omega
    rw [toNat_and_not_mask hmask, UInt64.toNat_add, hmask, Nat.mod_eq_of_lt hwrap]
  · rw [padmeLenU64, padmeLen, if_pos, if_pos]
    · omega
    · exact UInt64.lt_iff_toNat_lt.mpr (Nat.not_le.mp hlen)

/-- The padding of lengths up to `2 ^ 63` does not wrap, never shortens, keeps the order, is settled
after one application and costs at most one part in `log2` of the length. -/
theorem padme_len_pads (a b : UInt64) (ha : a.toNat ≤ 2 ^ 63) (hb : b.toNat ≤ 2 ^ 63) :
    (padmeLenU64 a).toNat = padmeLen a.toNat ∧ a ≤ padmeLenU64 a ∧
    (a ≤ b → padmeLenU64 a ≤ padmeLenU64 b) ∧
      padmeLenU64 (padmeLenU64 a) = padmeLenU64 a ∧
      (2 ≤ a → a.toNat.log2 * ((padmeLenU64 a).toNat - a.toNat) ≤ a.toNat) := by
  have heq := toNat_padmeLenU64 ha
  refine ⟨heq, ?_, fun hle => ?_, ?_, fun h => ?_⟩
  · rw [UInt64.le_iff_toNat_le, heq]
    exact le_padmeLen _
  · rw [UInt64.le_iff_toNat_le, heq, toNat_padmeLenU64 hb]
    exact padmeLen_mono (UInt64.le_iff_toNat_le.mp hle)
  · rw [← UInt64.toNat_inj, toNat_padmeLenU64 (heq.trans_le (padmeLen_le_two_pow ha)), heq,
      padmeLen_idem]
  · rw [heq]
    exact log2_mul_padding_le (UInt64.le_iff_toNat_le.mp h)

theorem padme_len_pads_nine :
    padmeLenU64 9 ≤ padmeLenU64 (2 ^ 40) ∧ 3 * ((padmeLenU64 9).toNat - 9) ≤ 9 :=
  have h := padme_len_pads 9 (2 ^ 40) (by decide) (by decide)
  ⟨h.2.2.1 (by decide), h.2.2.2.2 (by decide)⟩

end Padding

end Chatt.FileTransfer
