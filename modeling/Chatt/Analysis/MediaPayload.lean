import Chatt.Model.MediaPayload

/-!
# One wire form for every media payload

Each part of the grammar is decoded from what its encoder writes, and encodes back to the bytes
it was decoded from.
-/

namespace Chatt.Media

open Lib List

variable {bytes : Bytes} {p : MediaPayload} {f : VoiceFrame}

/-! ## Feedback -/

@[simp] lemma length_encodeVoiceFeedback (f : VoiceFeedback) :
    (encodeVoiceFeedback f).length = 26 := by
  simp [encodeVoiceFeedback]

lemma decode_encodeVoiceFeedback (f : VoiceFeedback) :
    decodeVoiceFeedback (encodeVoiceFeedback f) = .ok f := by
  rw [decodeVoiceFeedback, if_neg (by simp)]
  simp [encodeVoiceFeedback, append_assoc, wordAt_append]

lemma encode_decodeVoiceFeedback {f : VoiceFeedback} (h : decodeVoiceFeedback bytes = .ok f) :
    encodeVoiceFeedback f = bytes := by
  rw [decodeVoiceFeedback] at h
  split at h
  · cases h
  next len =>
  have len : bytes.length = 26 := not_not.mp len
  cases h
  simp [encodeVoiceFeedback, append_assoc, putWord_last, putWord_append_drop, len]

/-! ## Voice -/

lemma toNat_ofNat_length {opus : Bytes} (h : opus.length ≤ maxVoicePayloadBytes) :
    (UInt16.ofNat opus.length).toNat = opus.length := by
  apply UInt16.toNat_ofNat_of_lt'
  exact lt_of_le_of_lt h (by decide)

lemma encodeVoicePayload_opus {opus : Bytes} : encodeVoicePayload (.opus opus) = .ok bytes ↔
      opus ≠ [] ∧ opus.length ≤ maxVoicePayloadBytes ∧
      bytes = voicePayloadOpus :: (putWord (UInt16.ofNat opus.length) ++ opus) := by
  simp only [encodeVoicePayload]
  split
  · next bad =>
    refine iff_of_false (by simp) ?_
    rintro ⟨some, sized, -⟩
    rcases bad with none | long
    · exact some (List.isEmpty_iff.mp none)
    · omega
  · next good =>
    have some : opus ≠ [] := fun none => good (Or.inl (List.isEmpty_iff.mpr none))
    have sized : opus.length ≤ maxVoicePayloadBytes := not_lt.mp fun long => good (Or.inr long)
    simp [some, sized, eq_comm]

lemma length_encodeVoicePayload {p : VoicePayload} (h : encodeVoicePayload p = .ok bytes) :
    3 ≤ bytes.length := by
  cases p with
  | silence =>
    cases h
    decide
  | opus opus =>
    obtain ⟨-, -, rfl⟩ := encodeVoicePayload_opus.mp h
    simp

lemma decode_encodeVoicePayload {p : VoicePayload} (h : encodeVoicePayload p = .ok bytes) :
    decodeVoicePayload bytes = .ok p := by
  cases p with
  | silence =>
    cases h
    decide
  | opus opus =>
    obtain ⟨some, sized, rfl⟩ := encodeVoicePayload_opus.mp h
    have len := toNat_ofNat_length sized
    have some' : opus.length ≠ 0 := by simpa using some
    have body : (putWord (UInt16.ofNat opus.length) ++ opus).drop 2 = opus :=
      drop_left' (length_putWord _)
    have total : 1 + (2 + opus.length) = 3 + opus.length := by omega
    simp [decodeVoicePayload, wordAt_cons, len, some', sized.not_gt, body, total, Nat.add_comm _ 1]

lemma encode_decodeVoicePayload {p : VoicePayload} (h : decodeVoicePayload bytes = .ok p) :
    encodeVoicePayload p = .ok bytes := by
  simp only [decodeVoicePayload] at h
  split at h
  · cases h
  next long =>
  split at h
  · next opus =>
    split at h
    · cases h
    next sized =>
    push Not at sized
    cases h
    have len : (bytes.drop 3).length = (wordAt UInt16 bytes 1).toNat := by
      rw [length_drop]
      omega
    refine encodeVoicePayload_opus.mpr ⟨?_, by omega, ?_⟩
    · intro none
      rw [none] at len
      exact sized.1 len.symm
    · rw [len, UInt16.ofNat_toNat, ← opus, putWord_append_drop (by simp) (by omega),
        byteAt_cons_drop rfl (by omega), drop_zero]
  · split at h
    · next silence =>
      split at h
      · cases h
      next sized =>
      push Not at sized
      cases h
      have zero : wordAt UInt16 bytes 1 = 0 := by
        apply UInt16.toNat_inj.mp
        exact sized.1
      rw [encodeVoicePayload, ← silence, ← zero, putWord_last (by simp [sized.2]),
        byteAt_cons_drop rfl (by omega), drop_zero]
    · cases h

/-! ## Voice frames -/

lemma decodeVoiceFrame_drop (bytes : Bytes) (start : ℕ) :
    decodeVoiceFrame bytes start = decodeVoiceFrame (bytes.drop start) 0 := by
  simp [decodeVoiceFrame, wordAt_drop, byteAt_drop]

lemma length_encodeVoiceFrame (h : encodeVoiceFrame f = .ok bytes) : 16 ≤ bytes.length := by
  obtain ⟨payload, encoded, rest⟩ := bind_eq_ok.mp h
  cases rest
  have := length_encodeVoicePayload encoded
  simp
  omega

lemma decode_encodeVoiceFrame (h : encodeVoiceFrame f = .ok bytes) :
    decodeVoiceFrame bytes 0 = .ok f := by
  obtain ⟨payload, encoded, rest⟩ := bind_eq_ok.mp h
  cases rest
  have decoded := decode_encodeVoicePayload encoded
  refine bind_eq_ok.mpr ⟨f.payload, ?_, ?_⟩
  · rw [← decoded]
    simp [append_assoc, drop_append_right]
  · simp [append_assoc, wordAt_append, byteAt_append]

lemma encode_decodeVoiceFrame (long : 16 ≤ bytes.length) (h : decodeVoiceFrame bytes 0 = .ok f) :
    encodeVoiceFrame f = .ok bytes := by
  obtain ⟨payload, decoded, rest⟩ := bind_eq_ok.mp h
  cases rest
  have encoded := encode_decodeVoicePayload decoded
  refine bind_eq_ok.mpr ⟨_, encoded, ?_⟩
  have flags : byteAt bytes 12 :: bytes.drop 13 = bytes.drop 12 := byteAt_cons_drop rfl (by omega)
  have timestamp : putWord (wordAt UInt32 bytes 8) ++ bytes.drop 12 = bytes.drop 8 :=
    putWord_append_drop rfl (by omega)
  have sequence : putWord (wordAt UInt32 bytes 4) ++ bytes.drop 8 = bytes.drop 4 :=
    putWord_append_drop rfl (by omega)
  have streamId : putWord (wordAt UInt32 bytes 0) ++ bytes.drop 4 = bytes.drop 0 :=
    putWord_append_drop rfl (by omega)
  simp [append_assoc, flags, timestamp, sequence, streamId]

/-! ## Payloads -/

/-- What one arm of the decoder does with what the encoder writes, and the other way round. -/
structure Arm (kind : Byte) (decode : Bytes → Except MediaError MediaPayload) : Prop where
  decode_encode : ∀ {p bytes}, p.kind = kind → encodePayloadBody p = .ok bytes →
    decode bytes = .ok p
  encode_decode : ∀ {p bytes}, decode bytes = .ok p → p.kind = kind ∧
    encodePayloadBody p = .ok bytes

lemma bind_arm : Arm kindBind decodeBind where
  decode_encode {p bytes} kind h := by
    cases p <;> cases kind
    cases h
    rfl
  encode_decode {p bytes} h := by
    rw [decodeBind] at h
    split at h
    · cases h
    next empty =>
    cases h
    have none : bytes = [] := List.isEmpty_iff.mp (not_not.mp empty)
    exact ⟨rfl, by rw [none]; rfl⟩

lemma natProbe_arm : Arm kindNatProbe decodeNatProbe where
  decode_encode {p bytes} kind h := by
    cases p <;> cases kind
    cases h
    rfl
  encode_decode {p bytes} h := by
    rw [decodeNatProbe] at h
    split at h
    · cases h
    next one =>
    cases h
    obtain ⟨b, rfl⟩ := length_eq_one_iff.mp (not_not.mp one)
    exact ⟨rfl, rfl⟩

lemma voice_arm : Arm kindVoice decodeVoice where
  decode_encode {p bytes} kind h := by
    cases p <;> cases kind
    have long := length_encodeVoiceFrame h
    rw [decodeVoice, if_neg (by omega), decode_encodeVoiceFrame h]
    rfl
  encode_decode {p bytes} h := by
    rw [decodeVoice] at h
    split at h
    · cases h
    next long =>
    obtain ⟨frame, decoded, rest⟩ := bind_eq_ok.mp h
    cases rest
    exact ⟨rfl, encode_decodeVoiceFrame (not_lt.mp long) decoded⟩

lemma peerVoice_arm : Arm kindPeerVoice decodePeerVoice where
  decode_encode {p bytes} kind h := by
    cases p <;> cases kind
    next connectionId frame =>
    obtain ⟨bytes, encoded, rest⟩ := bind_eq_ok.mp h
    cases rest
    have long := length_encodeVoiceFrame encoded
    have decoded : decodeVoiceFrame (putWord connectionId ++ bytes) 8 = .ok frame := by
      rw [decodeVoiceFrame_drop, ← decode_encodeVoiceFrame encoded]
      simp
    rw [decodePeerVoice, if_neg (by simp; omega), decoded, wordAt_putWord]
    rfl
  encode_decode {p bytes} h := by
    rw [decodePeerVoice] at h
    split at h
    · cases h
    next long =>
    obtain ⟨frame, decoded, rest⟩ := bind_eq_ok.mp h
    cases rest
    rw [decodeVoiceFrame_drop] at decoded
    have encoded := encode_decodeVoiceFrame (by simp; omega) decoded
    have connectionId : putWord (wordAt UInt64 bytes 0) ++ bytes.drop 8 = bytes.drop 0 :=
      putWord_append_drop rfl (by omega)
    refine ⟨rfl, bind_eq_ok.mpr ⟨_, encoded, ?_⟩⟩
    rw [connectionId]
    rfl

lemma voiceFeedback_arm : Arm kindVoiceFeedback decodeVoiceFeedbackPayload where
  decode_encode {p bytes} kind h := by
    cases p <;> cases kind
    next streamId feedback =>
    cases h
    rw [decodeVoiceFeedbackPayload, if_neg (by simp)]
    refine bind_eq_ok.mpr ⟨feedback, ?_, by simp⟩
    rw [← decode_encodeVoiceFeedback feedback]
    simp
  encode_decode {p bytes} h := by
    rw [decodeVoiceFeedbackPayload] at h
    split at h
    · cases h
    next len =>
    obtain ⟨feedback, decoded, rest⟩ := bind_eq_ok.mp h
    cases rest
    have streamId : putWord (wordAt UInt32 bytes 0) ++ bytes.drop 4 = bytes.drop 0 :=
      putWord_append_drop rfl (by omega)
    refine ⟨rfl, ?_⟩
    rw [encodePayloadBody, encode_decodeVoiceFeedback decoded, streamId]
    rfl

/-- The two payloads that put eight bytes in front of a stream's feedback share their arm. -/
lemma addressedFeedback_arm {kind : Byte} {payload : UInt64 → UInt32 → VoiceFeedback → MediaPayload}
    (only : ∀ {p : MediaPayload}, p.kind = kind → ∃ a s f, p = payload a s f)
    (isKind : ∀ a s f, (payload a s f).kind = kind)
    (encoded : ∀ a s f, encodePayloadBody (payload a s f) =
      .ok (putWord a ++ putWord s ++ encodeVoiceFeedback f)) :
    Arm kind (decodeAddressedFeedback payload) where
  decode_encode {p bytes} kind h := by
    obtain ⟨a, s, f, rfl⟩ := only kind
    rw [encoded] at h
    cases h
    rw [decodeAddressedFeedback, if_neg (by simp)]
    refine bind_eq_ok.mpr ⟨f, ?_, by simp [wordAt_append]⟩
    rw [← decode_encodeVoiceFeedback f]
    simp [drop_append_right]
  encode_decode {p bytes} h := by
    rw [decodeAddressedFeedback] at h
    split at h
    · cases h
    next len =>
    obtain ⟨feedback, decoded, rest⟩ := bind_eq_ok.mp h
    cases rest
    have streamId : putWord (wordAt UInt32 bytes 8) ++ bytes.drop 12 = bytes.drop 8 :=
      putWord_append_drop rfl (by omega)
    have address : putWord (wordAt UInt64 bytes 0) ++ bytes.drop 8 = bytes.drop 0 :=
      putWord_append_drop rfl (by omega)
    refine ⟨isKind _ _ _, ?_⟩
    rw [encoded, encode_decodeVoiceFeedback decoded, append_assoc, streamId, address]
    rfl

lemma peerVoiceFeedback_arm : Arm kindPeerVoiceFeedback decodePeerVoiceFeedback :=
  addressedFeedback_arm (fun {p} kind => by cases p <;> cases kind; exact ⟨_, _, _, rfl⟩)
    (fun _ _ _ => rfl) (fun _ _ _ => rfl)

lemma voiceFeedbackFrom_arm : Arm kindVoiceFeedbackFrom decodeVoiceFeedbackFrom :=
  addressedFeedback_arm (fun {p} kind => by cases p <;> cases kind; exact ⟨_, _, _, rfl⟩)
    (fun _ _ _ => rfl) (fun _ _ _ => rfl)

lemma ping_arm : Arm kindPing decodePing where
  decode_encode {p bytes} kind h := by
    cases p <;> cases kind
    next nonce observedRttMs =>
    cases observedRttMs <;> cases h <;> simp [decodePing, byteAt_append, wordAt_append, wordAt_cons]
  encode_decode {p bytes} h := by
    rw [decodePing] at h
    split at h
    · cases h
    split at h
    · next absent =>
      cases h
      have tag : byteAt bytes 8 :: bytes.drop 9 = bytes.drop 8 := byteAt_cons_drop rfl absent.2.ge
      have nonce : putWord (wordAt UInt64 bytes 0) ++ bytes.drop 8 = bytes.drop 0 :=
        putWord_append_drop rfl (by omega)
      have none : bytes.drop 9 = [] := drop_of_length_le absent.2.le
      rw [absent.1, none] at tag
      refine ⟨rfl, ?_⟩
      rw [encodePayloadBody, tag, nonce]
      rfl
    split at h
    · next present =>
      cases h
      have rtt : putWord (wordAt UInt16 bytes 9) = bytes.drop 9 := putWord_last present.2
      have tag : byteAt bytes 8 :: bytes.drop 9 = bytes.drop 8 := byteAt_cons_drop rfl (by omega)
      have nonce : putWord (wordAt UInt64 bytes 0) ++ bytes.drop 8 = bytes.drop 0 :=
        putWord_append_drop rfl (by omega)
      rw [present.1] at tag
      refine ⟨rfl, ?_⟩
      rw [encodePayloadBody, rtt, tag, nonce]
      rfl
    · cases h

lemma pong_arm : Arm kindPong decodePong where
  decode_encode {p bytes} kind h := by
    cases p <;> cases kind
    cases h
    rw [decodePong, if_neg (by simp), wordAt_putWord_self]
  encode_decode {p bytes} h := by
    rw [decodePong] at h
    split at h
    · cases h
    next len =>
    cases h
    refine ⟨rfl, ?_⟩
    rw [encodePayloadBody, putWord_last (not_not.mp len)]
    rfl

lemma decode_encodePayloadBody (h : encodePayloadBody p = .ok bytes) :
    decodePayloadBody p.kind bytes = .ok p := by
  cases p with
  | bind => exact bind_arm.decode_encode rfl h
  | natProbe _ => exact natProbe_arm.decode_encode rfl h
  | voice _ => exact voice_arm.decode_encode rfl h
  | peerVoice _ _ => exact peerVoice_arm.decode_encode rfl h
  | voiceFeedback _ _ => exact voiceFeedback_arm.decode_encode rfl h
  | peerVoiceFeedback _ _ _ => exact peerVoiceFeedback_arm.decode_encode rfl h
  | voiceFeedbackFrom _ _ _ => exact voiceFeedbackFrom_arm.decode_encode rfl h
  | ping _ _ => exact ping_arm.decode_encode rfl h
  | pong _ => exact pong_arm.decode_encode rfl h

lemma encode_decodePayloadBody {kind : Byte} (h : decodePayloadBody kind bytes = .ok p) :
    p.kind = kind ∧ encodePayloadBody p = .ok bytes := by
  unfold decodePayloadBody at h
  split at h
  · next arm => subst arm; exact bind_arm.encode_decode h
  split at h
  · next arm => subst arm; exact natProbe_arm.encode_decode h
  split at h
  · next arm => subst arm; exact voice_arm.encode_decode h
  split at h
  · next arm => subst arm; exact peerVoice_arm.encode_decode h
  split at h
  · next arm => subst arm; exact voiceFeedback_arm.encode_decode h
  split at h
  · next arm => subst arm; exact peerVoiceFeedback_arm.encode_decode h
  split at h
  · next arm => subst arm; exact voiceFeedbackFrom_arm.encode_decode h
  split at h
  · next arm => subst arm; exact ping_arm.encode_decode h
  split at h
  · next arm => subst arm; exact pong_arm.encode_decode h
  · cases h

lemma decode_encodePayload (h : encodePayload p = .ok bytes) :
    decodePayload p.kind bytes = .ok p := by
  obtain ⟨body, encoded, rest⟩ := bind_eq_ok.mp h
  cases rest
  rw [decodePayload, if_neg (not_not.mpr rfl), decode_encodePayloadBody encoded]

lemma encode_decodePayload {kind : Byte} (h : decodePayload kind bytes = .ok p) :
    p.kind = kind ∧ encodePayload p = .ok bytes := by
  cases bytes with
  | nil => cases h
  | cons first body =>
    rw [decodePayload] at h
    split at h
    · cases h
    next same =>
    obtain ⟨kinds, encoded⟩ := encode_decodePayloadBody h
    refine ⟨kinds, bind_eq_ok.mpr ⟨body, encoded, ?_⟩⟩
    rw [kinds, not_not.mp same, pure_eq_ok]

/-- What the encoder accepts is decoded under its kind to the same payload, and what the decoder
accepts encodes to exactly the bytes it was given. -/
theorem payload_grammar :
    (∀ (p : MediaPayload) (bytes : Bytes), encodePayload p = .ok bytes →
      decodePayload p.kind bytes = .ok p) ∧
    ∀ (kind : Byte) (bytes : Bytes) (p : MediaPayload),
      decodePayload kind bytes = .ok p → p.kind = kind ∧ encodePayload p = .ok bytes :=
  ⟨fun _ _ => decode_encodePayload, fun _ _ _ => encode_decodePayload⟩

end Chatt.Media
