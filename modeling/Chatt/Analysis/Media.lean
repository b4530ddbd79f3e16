import Chatt.Analysis.AntiReplay
import Chatt.Analysis.MediaPayload
import Chatt.Interface.MediaRun

/-!
# Authenticated media

An accepted datagram that carries an address proof is one the sender sealed: its header's route
id and counter are associated data of the AEAD, its kind is repeated in the plaintext, and the
payload grammar has one wire form for each payload.
-/

namespace Chatt.Media

open Lib List

variable {bytes : Bytes} {o : OpenedMedia}
variable {sealed : List (UInt64 × MediaPayload)} {routeId : UInt32} {body : Bytes}

/-! ## Headers -/

/-- The header of a datagram that is long enough to have one. -/
def headerOf (bytes : Bytes) : UdpHeader where
  version := byteAt bytes 0
  kind := byteAt bytes 1
  routeId := wordAt UInt32 bytes 2
  counter := wordAt UInt64 bytes 6

lemma parseHeader_eq_ok {header : UdpHeader} :
    parseHeader bytes = .ok (header, body) ↔
      udpHeaderLen ≤ bytes.length ∧ byteAt bytes 0 = udpVersion ∧ isKnownKind (byteAt bytes 1) ∧
      header = headerOf bytes ∧ body = bytes.drop udpHeaderLen := by
  unfold parseHeader
  simp only [bind_eq_ok, reject_eq_ok, pure_eq_ok, Except.ok.injEq, Prod.mk.injEq, not_lt, not_not]
  constructor
  · rintro ⟨-, long, -, version, -, kind, rfl, rfl⟩
    exact ⟨long, version, kind, rfl, rfl⟩
  · rintro ⟨long, version, kind, rfl, rfl⟩
    exact ⟨(), long, (), version, (), kind, rfl, rfl⟩

/-! ## What an opened datagram has passed -/

variable {aead : Aead} {counter : UInt64}

lemma openInPlaceWithAad_eq_ok {key : KeyMaterial} {aad : Bytes} {len : ℕ}
      (h : (openInPlaceWithAad aead key counter aad body).2 = .ok len) :
    aead.opened key.bytes (nonceFromCounter counter) aad body =
      some ((openInPlaceWithAad aead key counter aad body).1.take len) := by
  unfold openInPlaceWithAad at h ⊢
  split_ifs at h ⊢ with exhausted
  cases opened : aead.openInPlace key.bytes (nonceFromCounter counter) aad body with
  | mk buffer result =>
    rw [opened] at h
    cases result with
    | none => cases h
    | some n =>
      cases h
      simp [Aead.opened, opened]

lemma mapError_eq_ok {ε ε' α : Type} {f : ε → ε'} {x : Except ε α} {a : α} :
    x.mapError f = .ok a ↔ x = .ok a := by
  cases x <;> simp [Except.mapError]

variable {authProof : AuthProof} {replay : AntiReplay}

/-- An opened datagram of an encrypted session. -/
lemma openMediaChecked_aead {send recv : KeyMaterial}
      (h : openMediaChecked aead authProof (.aead routeId send recv) bytes = .ok o) :
    udpHeaderLen ≤ bytes.length ∧ o.header = headerOf bytes ∧ o.header.routeId = routeId ∧
    o.addressProof = .authenticatedDatagram ∧
      ∃ plaintext, aead.opened recv.bytes (nonceFromCounter o.header.counter) (mediaAad bytes)
        (bytes.drop udpHeaderLen) = some plaintext ∧
        decodePayload o.header.kind plaintext = .ok o.payload := by
  obtain ⟨⟨header, body⟩, parsed, h⟩ := bind_eq_ok.mp h
  obtain ⟨_, route, h⟩ := bind_eq_ok.mp h
  obtain ⟨len, opened, h⟩ := bind_eq_ok.mp h
  obtain ⟨payload, decoded, h⟩ := bind_eq_ok.mp h
  cases h
  obtain ⟨long, -, -, rfl, rfl⟩ := parseHeader_eq_ok.mp parsed
  have plaintext := openInPlaceWithAad_eq_ok (mapError_eq_ok.mp opened)
  exact ⟨long, rfl, not_not.mp (reject_eq_ok.mp route), rfl, _, plaintext, decoded⟩

/-- An opened datagram of a plaintext session: a bind with a proof that verifies, or another
kind with no proof. -/
lemma openClear_eq_ok {bindKey : ByteArr 32} {header : UdpHeader}
      (h : openClear authProof bindKey header body = .ok o) :
    o.header = header ∧ o.payload.kind = header.kind ∧
      if header.kind = kindBind then
        o.addressProof = .authenticatedAddressClaim ∧ authProofLen ≤ body.length ∧
          authProofVerify authProof bindKey
            (bindProofMessage header.routeId header.kind header.counter)
          (body.drop (body.length - authProofLen)) = true
      else o.addressProof = .none := by
  unfold openClear at h
  split at h
  · next bind =>
    obtain ⟨_, long, h⟩ := bind_eq_ok.mp h
    obtain ⟨_, verified, h⟩ := bind_eq_ok.mp h
    obtain ⟨payload, decoded, h⟩ := bind_eq_ok.mp h
    cases h
    refine ⟨rfl, (encode_decodePayload decoded).1, ?_⟩
    rw [if_pos bind]
    exact ⟨rfl, not_lt.mp (reject_eq_ok.mp long), not_not.mp (reject_eq_ok.mp verified)⟩
  · next other =>
    obtain ⟨payload, decoded, h⟩ := bind_eq_ok.mp h
    cases h
    refine ⟨rfl, (encode_decodePayload decoded).1, ?_⟩
    rw [if_neg other]

lemma openMediaChecked_clear {bindKey : ByteArr 32}
      (h : openMediaChecked aead authProof (.clear routeId bindKey) bytes = .ok o) :
    udpHeaderLen ≤ bytes.length ∧ (headerOf bytes).routeId = routeId ∧
    openClear authProof bindKey (headerOf bytes) (bytes.drop udpHeaderLen) = .ok o := by
  obtain ⟨⟨header, body⟩, parsed, h⟩ := bind_eq_ok.mp h
  obtain ⟨_, route, h⟩ := bind_eq_ok.mp h
  obtain ⟨long, -, -, rfl, rfl⟩ := parseHeader_eq_ok.mp parsed
  exact ⟨long, not_not.mp (reject_eq_ok.mp route), h⟩

/-! ## The two opening functions -/

/-- The in-place function finds the plaintext where the copying one does. -/
lemma openMediaInPlaceChecked_eq (aead : Aead) (authProof : AuthProof)
      (protection : MediaProtection) (bytes : Bytes) :
    (openMediaInPlaceChecked aead authProof protection bytes).2 =
      openMediaChecked aead authProof protection bytes := by
  unfold openMediaInPlaceChecked openMediaChecked
  cases parsed : parseHeader bytes with
  | error e => rfl
  | ok result =>
    obtain ⟨header, body⟩ := result
    obtain ⟨long, -, -, rfl, rfl⟩ := parseHeader_eq_ok.mp parsed
    by_cases route : (headerOf bytes).routeId = protection.routeId
    · cases protection with
      | clear routeId bindKey => simp [route, reject, Bind.bind, Except.bind]
      | aead routeId send recv =>
        have front : (bytes.take udpHeaderLen).length = udpHeaderLen := by
          rw [length_take, min_eq_left long]
        simp only [route, reject, Bind.bind, Except.bind, ne_eq, not_true_eq_false, if_false]
        cases opened : openInPlaceWithAad aead recv (headerOf bytes).counter (mediaAad bytes)
            (bytes.drop udpHeaderLen) with
        | mk buffer outcome =>
          cases outcome with
          | error e => rfl
          | ok len =>
            have plaintext : slice (bytes.take udpHeaderLen ++ buffer) udpHeaderLen len =
                buffer.take len := by
              rw [slice_append_right front.le, front, Nat.sub_self]
              rfl
            simp only [Except.mapError, plaintext]
            cases decodePayload (headerOf bytes).kind (buffer.take len) <;> rfl
    · simp [route, reject, Bind.bind, Except.bind]

lemma openMediaInPlace_eq (aead : Aead) (authProof : AuthProof) (protection : MediaProtection)
      (replay : AntiReplay) (bytes : Bytes) :
    openMediaInPlace aead authProof protection replay bytes =
      openMedia aead authProof protection replay bytes := by
  rw [openMediaInPlace, openMediaInPlaceChecked_eq, openMedia]

lemma receive_eq (aead : Aead) (authProof : AuthProof) (receiver : MediaProtection) (inPlace : Bool)
      (replay : AntiReplay) (bytes : Bytes) :
    receive aead authProof receiver inPlace replay bytes =
      openMedia aead authProof receiver replay bytes := by
  cases inPlace with
  | false => rfl
  | true => exact openMediaInPlace_eq aead authProof receiver replay bytes

/-! ## The replay window -/

/-- A rejected datagram leaves the window as it was. -/
lemma openMedia_rejected {protection : MediaProtection} {e : MediaError}
      (h : (openMedia aead authProof protection replay bytes).2 = .error e) :
    (openMedia aead authProof protection replay bytes).1 = replay := by
  unfold openMedia at h ⊢
  cases checked : openMediaChecked aead authProof protection bytes with
  | error e => rfl
  | ok o =>
    rw [checked] at h
    simp only [updateReplay] at h ⊢
    split_ifs at h ⊢ with unauthenticated
    cases updated : replay.update o.header.counter with
    | mk after verdict =>
      rw [updated] at h
      cases verdict with
      | true => cases h
      | false =>
        have same := AntiReplay.update_rejected (r := replay) (c :=
            o.header.counter) (by rw [updated])
        rw [updated] at same
        exact same

/-- An accepted datagram passed every check, and the window took its counter if it carries an
address proof. -/
lemma openMedia_accepted {protection : MediaProtection}
      (h : (openMedia aead authProof protection replay bytes).2 = .ok o) :
    openMediaChecked aead authProof protection bytes = .ok o ∧
    if o.addressProof = .none then (openMedia aead authProof protection replay bytes).1 = replay
      else (replay.update o.header.counter).2 = true ∧
      (openMedia aead authProof protection replay bytes).1 =
        (replay.update o.header.counter).1 := by
  unfold openMedia at h ⊢
  cases checked : openMediaChecked aead authProof protection bytes with
  | error e =>
    rw [checked] at h
    cases h
  | ok opened =>
    rw [checked] at h
    simp only [updateReplay] at h ⊢
    split at h
    · next unauthenticated =>
      cases h
      exact ⟨rfl, by rw [if_pos unauthenticated, if_pos unauthenticated]⟩
    next authenticated =>
    cases updated : replay.update opened.header.counter with
    | mk after verdict =>
      rw [updated] at h
      cases verdict with
      | false => cases h
      | true =>
        cases h
        refine ⟨rfl, ?_⟩
        rw [if_neg authenticated, if_neg authenticated, updated]
        exact ⟨rfl, rfl⟩

/-! ## What was sealed -/

lemma encodePayload_head {p : MediaPayload} (h : encodePayload p = .ok bytes) :
    bytes.head? = some p.kind := by
  obtain ⟨body, -, rest⟩ := bind_eq_ok.mp h
  cases rest
  rfl

/-- Two payloads with one wire form are the same. -/
lemma encodePayload_inj {p q : MediaPayload} (hp : encodePayload p = .ok bytes)
    (hq : encodePayload q = .ok bytes) : p = q := by
  have kinds : p.kind = q.kind := by
    have heads := (encodePayload_head hp).symm.trans (encodePayload_head hq)
    exact Option.some.inj heads
  have decoded := decode_encodePayload hp
  rw [kinds, decode_encodePayload hq] at decoded
  exact (Except.ok.inj decoded).symm

lemma bindProofMessage_inj {r r' : UInt32} {k k' : Byte} {c c' : UInt64}
    (h : bindProofMessage r k c = bindProofMessage r' k' c') : c = c' := by
  simp only [bindProofMessage, append_assoc, cons_append] at h
  have rest := (append_inj (append_cancel_left h) (by simp)).2
  have tail := (append_inj (List.cons.inj rest).2 (by simp)).1
  exact putWord_inj.mp tail

/-- The bind is the only payload of its kind. -/
lemma eq_bind_of_kind {p : MediaPayload} (h : p.kind = kindBind) : p = .bind := by
  cases p <;> first | rfl | cases h

/-- The body of a packet that `seal_media` lays out is the encoded payload. -/
lemma drop_udpHeader (kind : Byte) (routeId : UInt32) (counter : UInt64) (scratch : Bytes) :
    (udpHeader kind routeId counter ++ scratch).drop udpHeaderLen = scratch :=
  drop_left' (by simp [udpHeader, udpHeaderLen])

/-- The calls that `seal_media` makes: the AEAD seals the encoded payload under the nonce of the
counter, and the MAC signs the bind message of the counter. -/
lemma sealMedia_calls {sender : MediaProtection} {payload : MediaPayload} {result : SealedMedia}
    (h : sealMedia aead authProof sender counter payload = .ok result) :
    (∀ call ∈ result.aeadSeal, call.nonce = nonceFromCounter counter ∧
      encodePayload payload = .ok call.plaintext) ∧
    ∀ proof ∈ result.proof, payload = .bind ∧
      proof.2 = bindProofMessage sender.routeId kindBind counter := by
  obtain ⟨scratch, encoded, h⟩ := bind_eq_ok.mp h
  obtain ⟨_, -, h⟩ := bind_eq_ok.mp h
  cases sender with
  | aead routeId send recv =>
    obtain ⟨⟨packet, call⟩, sealed, h⟩ := bind_eq_ok.mp h
    cases h
    have sealed := mapError_eq_ok.mp sealed
    unfold sealInPlaceAppendTag at sealed
    dsimp only at sealed
    split_ifs at sealed
    split at sealed
    · cases sealed
    cases sealed
    refine ⟨fun call' mem => ?_, nofun⟩
    cases mem
    exact ⟨rfl, by rw [encoded, drop_udpHeader]⟩
  | clear routeId bindKey =>
    dsimp only at h
    split at h
    · next bind =>
      cases h
      refine ⟨nofun, fun proof mem => ?_⟩
      cases mem
      exact ⟨eq_bind_of_kind bind, by rw [bind]; rfl⟩
    · cases h
      exact ⟨nofun, nofun⟩

/-! ## Runs -/

section Runs

variable {aead : Aead} {authProof : AuthProof} {sender receiver : MediaProtection}

/-- The counters accepted with an address proof, latest first. -/
def provenCounters (accepted : List OpenedMedia) : List UInt64 :=
  (accepted.filter fun o => o.addressProof ≠ .none).map fun o => o.header.counter

/-- The datagram is one the sender sealed under its route and counter. -/
def Genuine (routeId : UInt32) (sealed : List (UInt64 × MediaPayload)) (o : OpenedMedia) : Prop :=
  o.header.routeId = routeId ∧ o.header.kind = o.payload.kind ∧
    (o.header.counter, o.payload) ∈ sealed

lemma Genuine.mono (h : Genuine routeId sealed o) (e : UInt64 × MediaPayload) :
    Genuine routeId (e :: sealed) o :=
  ⟨h.1, h.2.1, mem_cons_of_mem e h.2.2⟩

/-- The logged calls are those behind the sealed datagrams. -/
structure CallsSealed (s : MediaState) : Prop where
  seals : ∀ call ∈ s.seals, ∃ e ∈ s.sealed,
    call.nonce = nonceFromCounter e.1 ∧ encodePayload e.2 = .ok call.plaintext
  proofs : ∀ proof ∈ s.proofs, ∃ routeId e, e ∈ s.sealed ∧ e.2 = .bind ∧
    proof.2 = bindProofMessage routeId kindBind e.1

/-- A checked datagram with an address proof is genuine, if it is no forgery. -/
lemma checked_genuine {s : MediaState} {inPlace : Bool} (calls : CallsSealed s)
      (unforged : Unforged aead authProof receiver s (.deliver bytes inPlace))
    (h : openMediaChecked aead authProof receiver bytes = .ok o) (proven : o.addressProof ≠ .none) :
    Genuine receiver.routeId s.sealed o := by
  cases receiver with
  | aead routeId send recv =>
    obtain ⟨long, header, route, -, plaintext, opened, decoded⟩ := openMediaChecked_aead h
    obtain ⟨kinds, encoded⟩ := encode_decodePayload decoded
    have counter : wordAt UInt64 bytes 6 = o.header.counter := by rw [header]; rfl
    have logged := unforged plaintext (by rw [counter]; exact opened)
    rw [counter] at logged
    obtain ⟨⟨c, p⟩, mem, nonce, encoded'⟩ := calls.seals _ logged
    obtain rfl := nonceFromCounter_inj nonce
    obtain rfl := encodePayload_inj encoded encoded'
    exact ⟨route, kinds.symm, mem⟩
  | clear routeId bindKey =>
    obtain ⟨long, route, opened⟩ := openMediaChecked_clear h
    obtain ⟨header, kinds, outcome⟩ := openClear_eq_ok opened
    split at outcome
    · next bind =>
      obtain ⟨-, proofLong, verified⟩ := outcome
      have tail : (bytes.drop udpHeaderLen).drop ((bytes.drop udpHeaderLen).length - authProofLen) =
          bytes.drop (bytes.length - authProofLen) := by
        rw [drop_drop, length_drop]
        rw [length_drop] at proofLong
        congr 1
        omega
      rw [tail] at verified
      have logged := unforged verified
      have kind : byteAt bytes 1 = kindBind := bind
      rw [kind] at logged
      have payload : o.payload = .bind := eq_bind_of_kind (kinds.trans bind)
      refine ⟨by rw [header]; exact route, by rw [header, kinds], ?_⟩
      obtain ⟨_, ⟨c, p⟩, mem, isBind, message⟩ := calls.proofs _ logged
      obtain rfl := bindProofMessage_inj message
      obtain rfl : p = .bind := isBind
      rw [header, payload]
      exact mem
    · exact absurd outcome proven

/-- A datagram is accepted without a proof only in a plaintext session, and not as a bind. -/
lemma checked_unproven (h : openMediaChecked aead authProof receiver bytes = .ok o)
      (unproven : o.addressProof = .none) :
    (∃ routeId bindKey, receiver = .clear routeId bindKey) ∧ o.header.kind ≠ kindBind := by
  cases receiver with
  | aead routeId send recv =>
    obtain ⟨-, -, -, proof, -⟩ := openMediaChecked_aead h
    rw [proof] at unproven
    cases unproven
  | clear routeId bindKey =>
    obtain ⟨-, -, opened⟩ := openMediaChecked_clear h
    obtain ⟨header, -, outcome⟩ := openClear_eq_ok opened
    refine ⟨⟨routeId, bindKey, rfl⟩, ?_⟩
    rw [header]
    intro bind
    rw [if_pos bind, unproven] at outcome
    cases outcome.1

/-- What every state of a session satisfies. -/
structure MediaInv (receiver : MediaProtection) (s : MediaState) : Prop where
  calls : CallsSealed s
  genuine : ∀ o ∈ s.accepted, o.addressProof ≠ .none → Genuine receiver.routeId s.sealed o
  unproven : ∀ o ∈ s.accepted, o.addressProof = .none →
    (∃ routeId bindKey, receiver = .clear routeId bindKey) ∧ o.header.kind ≠ kindBind
  window : s.replay.Represents (provenCounters s.accepted)
  nodup : (provenCounters s.accepted).Nodup

/-- The log grows by the calls of the datagram that is sealed. -/
lemma CallsSealed.sealPayload {s : MediaState} {counter : UInt64} {payload : MediaPayload}
    {result : SealedMedia} (calls : CallsSealed s)
    (h : sealMedia aead authProof sender counter payload = .ok result) :
    CallsSealed { s with
      sealed := (counter, payload) :: s.sealed
      seals := result.aeadSeal.toList ++ s.seals
      proofs := result.proof.toList ++ s.proofs } := by
  obtain ⟨sealCall, proofCall⟩ := sealMedia_calls h
  constructor
  · intro call mem
    rcases mem_append.mp mem with new | old
    · exact ⟨_, mem_cons_self, sealCall call (Option.mem_toList.mp new)⟩
    · obtain ⟨e, he, rest⟩ := calls.seals call old
      exact ⟨e, mem_cons_of_mem _ he, rest⟩
  · intro proof mem
    rcases mem_append.mp mem with new | old
    · exact ⟨_, _, mem_cons_self, proofCall proof (Option.mem_toList.mp new)⟩
    · obtain ⟨routeId, e, he, rest⟩ := calls.proofs proof old
      exact ⟨routeId, e, mem_cons_of_mem _ he, rest⟩

lemma MediaInv.initial : MediaInv receiver MediaState.initial where
  calls := ⟨by simp [MediaState.initial], by simp [MediaState.initial]⟩
  genuine := by simp [MediaState.initial]
  unproven := by simp [MediaState.initial]
  window := AntiReplay.represents_new
  nodup := nodup_nil

lemma MediaInv.deliver {s : MediaState} {inPlace : Bool} (inv : MediaInv receiver s)
      (unforged : Unforged aead authProof receiver s (.deliver bytes inPlace))
    (h : openMedia aead authProof receiver s.replay bytes = (replay, .ok o)) :
    MediaInv receiver { s with replay, accepted := o :: s.accepted } := by
  obtain ⟨checked, outcome⟩ := openMedia_accepted (by rw [h])
  rw [h] at outcome
  have genuine : ∀ o' ∈ o :: s.accepted, o'.addressProof ≠ .none →
      Genuine receiver.routeId s.sealed o' := by
    intro o' mem proven
    rcases mem_cons.mp mem with rfl | mem
    · exact checked_genuine inv.calls unforged checked proven
    · exact inv.genuine o' mem proven
  have unproven : ∀ o' ∈ o :: s.accepted, o'.addressProof = .none →
      (∃ routeId bindKey, receiver = .clear routeId bindKey) ∧ o'.header.kind ≠ kindBind := by
    intro o' mem none
    rcases mem_cons.mp mem with rfl | mem
    · exact checked_unproven checked none
    · exact inv.unproven o' mem none
  by_cases none : o.addressProof = .none
  · have counters : provenCounters (o :: s.accepted) = provenCounters s.accepted := by
      simp [provenCounters, none]
    rw [if_pos none] at outcome
    have window : replay = s.replay := outcome
    exact ⟨⟨inv.calls.seals, inv.calls.proofs⟩, genuine, unproven,
      by rw [counters, window]; exact inv.window, by rw [counters]; exact inv.nodup⟩
  · have counters : provenCounters (o :: s.accepted) = o.header.counter ::
        provenCounters s.accepted := by
      simp [provenCounters, none]
    rw [if_neg none] at outcome
    obtain ⟨verdict, window⟩ := outcome
    have fresh := (inv.window.verdict_iff _).mp verdict
    have window : replay = (s.replay.update o.header.counter).1 := window
    refine ⟨⟨inv.calls.seals, inv.calls.proofs⟩, genuine, unproven, ?_, ?_⟩
    · rw [counters, window]
      exact inv.window.update_accepted fresh
    · rw [counters]
      exact nodup_cons.mpr ⟨fresh.1, inv.nodup⟩

lemma MediaInv.step {s s' : MediaState} {a : MediaAction} (inv : MediaInv receiver s)
      (unforged : Unforged aead authProof receiver s a)
    (h : s.next aead authProof sender receiver a = some s') : MediaInv receiver s' := by
  cases a with
  | sealPayload counter payload =>
    simp only [MediaState.next] at h
    split at h
    · cases h
      exact inv
    next result sealed =>
    cases h
    exact { inv with
      calls := inv.calls.sealPayload sealed
      genuine := fun o mem proven => (inv.genuine o mem proven).mono _ }
  | deliver bytes inPlace =>
    simp only [MediaState.next, receive_eq] at h
    cases opened : openMedia aead authProof receiver s.replay bytes with
    | mk replay outcome =>
      rw [opened] at h
      cases outcome with
      | error e =>
        cases h
        have same := openMedia_rejected (e := e) (by rw [opened])
        rw [opened] at same
        have same : replay = s.replay := same
        rw [same]
        exact inv
      | ok o =>
        cases h
        exact inv.deliver unforged opened

end Runs

/-- In every run in which the adversary forges neither the AEAD nor the MAC, every datagram
accepted with an address proof has the kind and payload of one the sender sealed under that
route and counter, and no counter is accepted twice with a proof.  Only the data kinds of a
plaintext session are accepted without a proof.  A rejected datagram leaves the window unchanged,
and the two opening functions agree. -/
theorem accepted_media_authentic (aead : Aead) (authProof : AuthProof)
    (sender receiver : MediaProtection) (peers : Peers sender receiver) (s : MediaState)
    (run : Reachable (MediaState.next aead authProof sender receiver)
      (Unforged aead authProof receiver) MediaState.initial s) :
    (∀ o ∈ s.accepted, o.addressProof ≠ .none →
      o.header.routeId = sender.routeId ∧ o.header.kind = o.payload.kind ∧
      (o.header.counter, o.payload) ∈ s.sealed) ∧
    (∀ o ∈ s.accepted, o.addressProof = .none →
      (∃ routeId bindKey, receiver = .clear routeId bindKey) ∧ o.header.kind ≠ kindBind) ∧
    ((s.accepted.filter fun o => o.addressProof ≠ .none).map fun o => o.header.counter).Nodup ∧
    (∀ bytes e, (openMedia aead authProof receiver s.replay bytes).2 = .error e →
      (openMedia aead authProof receiver s.replay bytes).1 = s.replay) ∧
    ∀ bytes, openMediaInPlace aead authProof receiver s.replay bytes =
      openMedia aead authProof receiver s.replay bytes := by
  have inv : MediaInv receiver s := run.invariant MediaInv.initial fun inv ok h => inv.step ok h
  have routes : sender.routeId = receiver.routeId := by
    cases sender <;> cases receiver <;> first | exact peers.1 | exact peers.elim
  refine ⟨fun o mem proven => ?_, inv.unproven, inv.nodup, fun _ _ => openMedia_rejected,
    openMediaInPlace_eq aead authProof receiver s.replay⟩
  rw [routes]
  exact inv.genuine o mem proven

/-! A session of two fixed ends: an honest datagram, and one nobody sealed. -/

def sampleKey (id : UInt32) : KeyMaterial := ⟨id, ByteArr.replicate 32 0⟩

def sampleProof : AuthProof := fun _ _ => ByteArr.replicate 16 0

def samplePing : Bytes := udpHeader kindPing 7 5 ++ kindPing :: putWord (9 : UInt64) ++ [0]

/-- The ping is sealed under counter 5, delivered, and delivered again. -/
def sampleActions : List MediaAction :=
  [.sealPayload 5 (.ping 9 none), .deliver (samplePing ++ List.replicate 16 0) false,
    .deliver (samplePing ++ List.replicate 16 0) true]

def sampleEnd : MediaState :=
  after (MediaState.next .sample sampleProof (.aead 7 (sampleKey 1) (sampleKey 2))
    (.aead 7 (sampleKey 2) (sampleKey 1))) .initial sampleActions

theorem accepted_media_authentic_sample :
    sampleEnd.accepted.length = 1 ∧ ∀ o ∈ sampleEnd.accepted, o.addressProof ≠ .none →
      o.header.routeId = 7 ∧ o.header.kind = o.payload.kind ∧
      (o.header.counter, o.payload) ∈ sampleEnd.sealed :=
  ⟨by decide +kernel,
    (accepted_media_authentic .sample sampleProof (.aead 7 (sampleKey 1) (sampleKey 2))
      (.aead 7 (sampleKey 2) (sampleKey 1)) ⟨rfl, rfl⟩ sampleEnd
      (reachable_after (by decide +kernel))).1⟩

/-- In a plaintext session a ping that nobody sealed is accepted, twice under one counter. -/
theorem plaintext_ping_unauthenticated :
    ∃ s, Reachable
      (MediaState.next .sample sampleProof (.clear 7 (ByteArr.replicate 32 0))
      (.clear 7 (ByteArr.replicate 32 0)))
        (Unforged .sample sampleProof (.clear 7 (ByteArr.replicate 32 0))) MediaState.initial s ∧
      s.sealed = [] ∧ s.accepted.map (fun o => (o.header.counter, o.payload)) =
        [(5, .ping 9 none), (5, .ping 9 none)] :=
  ⟨after (MediaState.next .sample sampleProof (.clear 7 (ByteArr.replicate 32 0))
    (.clear 7 (ByteArr.replicate 32 0))) .initial
      [.deliver samplePing false, .deliver samplePing true],
    reachable_after (by decide +kernel), by decide +kernel, by decide +kernel⟩

end Chatt.Media
