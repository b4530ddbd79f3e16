import Chatt.Interface.RecordLane

/-!
# Record lanes deliver a prefix

The receive counter is the number of plaintexts accepted.  A frame opens only if a record was
sealed under its counter, and the records' counters increase, so the record accepted next is the
next one that was sealed.
-/

namespace Chatt.Records

open Lib List

variable {channel : Byte}
variable {frame plaintext : Bytes} {e : CryptoError} {c : TransportCipher} {counter : UInt64}

/-! ## Sealing -/

variable {key : KeyMaterial}

/-- The call of the AEAD behind a record: its counter gives the nonce, and the associated data are
the channel and the header of the frame. -/
def sealOf (key : KeyMaterial) (r : SealedRecord) : AeadSeal where
  key := key.bytes
  nonce := nonceFromCounter r.counter
  aad := transportAad r.channel (putWord key.id ++ putWord r.counter)
  plaintext := r.plaintext

/-- What `seal_with_key_into` appends: header, ciphertext and tag, or nothing; and the call it
makes. -/
lemma sealWithKeyInto_eq (aead : Aead) (key : KeyMaterial) (channel : Byte) (counter : UInt64)
    (plaintext out : Bytes) (live : ¬ counter ≥ rejectAfterMessages) :
    sealWithKeyInto aead key channel counter plaintext out =
      match (sealOf key ⟨counter, channel, plaintext⟩).run aead with
      | (_, none) => (out, .error .cipher)
      | (buffer, some tag) => (out ++ (putWord key.id ++ putWord counter) ++ buffer ++ tag.val,
        .ok (sealOf key ⟨counter, channel, plaintext⟩)) := by
  have head : (putWord key.id ++ putWord counter).length = transportHeaderLen := by
    simp [transportHeaderLen]
  have shape : out ++ putWord key.id ++ putWord counter ++ plaintext =
      out ++ ((putWord key.id ++ putWord counter) ++ plaintext) := by simp [append_assoc]
  have header : slice (out ++ ((putWord key.id ++ putWord counter) ++ plaintext)) out.length
      transportHeaderLen = putWord key.id ++ putWord counter := by
    rw [slice_append_right le_rfl, Nat.sub_self, slice_append_left head]
  have body : (out ++ ((putWord key.id ++ putWord counter) ++ plaintext)).drop
      (out.length + transportHeaderLen) = plaintext := by
    rw [← append_assoc, drop_left' (by rw [length_append, head])]
  have front : (out ++ ((putWord key.id ++ putWord counter) ++ plaintext)).take
      (out.length + transportHeaderLen) = out ++ (putWord key.id ++ putWord counter) := by
    rw [← append_assoc, take_left' (by rw [length_append, head])]
  simp only [sealWithKeyInto, if_neg live, shape, header, body, front, sealOf]
  cases AeadSeal.run _ aead with
  | mk buffer tag =>
    cases tag with
    | none => simp [append_assoc]
    | some tag => rfl

/-- A seal that fails leaves the output buffer as it was. -/
lemma sealWithKeyInto_error {aead : Aead} {out : Bytes}
    (h : (sealWithKeyInto aead key channel counter plaintext out).2 = .error e) :
    (sealWithKeyInto aead key channel counter plaintext out).1 = out := by
  by_cases live : counter ≥ rejectAfterMessages
  · rw [sealWithKeyInto, if_pos live]
  rw [sealWithKeyInto_eq _ _ _ _ _ _ live] at h ⊢
  cases sealed : (sealOf key ⟨counter, channel, plaintext⟩).run aead with
  | mk buffer tag =>
    cases tag with
    | none => simp
    | some tag => simp [sealed] at h

/-- A seal that succeeds was made by the call of its record. -/
lemma sealWithKeyInto_ok {aead : Aead} {out : Bytes} {call : AeadSeal}
    (h : (sealWithKeyInto aead key channel counter plaintext out).2 = .ok call) :
    call = sealOf key ⟨counter, channel, plaintext⟩ := by
  by_cases live : counter ≥ rejectAfterMessages
  · rw [sealWithKeyInto, if_pos live] at h
    cases h
  rw [sealWithKeyInto_eq _ _ _ _ _ _ live] at h
  cases sealed : (sealOf key ⟨counter, channel, plaintext⟩).run aead with
  | mk buffer tag =>
    rw [sealed] at h
    cases tag with
    | none => cases h
    | some tag => exact (Except.ok.inj h).symm

lemma toNat_checkedSucc {a b : UInt64} (h : checkedSucc a = some b) : b.toNat = a.toNat + 1 := by
  unfold checkedSucc at h
  split at h
  · next fits =>
    cases h
    exact Nat.mod_eq_of_lt fits
  · cases h

namespace TransportCipher

lemma sealNextInto_error {aead : Aead} {out : Bytes}
      (h : (c.sealNextInto aead channel plaintext out).2.2 = .error e) :
    (c.sealNextInto aead channel plaintext out).2.1 = out := by
  simp only [sealNextInto] at h ⊢
  split_ifs at h ⊢ with exhausted
  · rfl
  cases next : checkedSucc c.nextSendCounter with
  | none => rfl
  | some counter =>
    rw [next] at h
    exact sealWithKeyInto_error h

/-- Sealing changes the send counter only, takes a counter for each frame, and makes the call of
the record under that counter. -/
lemma sealNextInto_cipher (aead : Aead) (c : TransportCipher) (channel : Byte)
    (plaintext out : Bytes) :
    (c.sealNextInto aead channel plaintext out).1.send = c.send ∧
      (c.sealNextInto aead channel plaintext out).1.recv = c.recv ∧
      (c.sealNextInto aead channel plaintext out).1.nextRecvCounter = c.nextRecvCounter ∧
      c.nextSendCounter.toNat ≤
        (c.sealNextInto aead channel plaintext out).1.nextSendCounter.toNat ∧
      ∀ call, (c.sealNextInto aead channel plaintext out).2.2 = .ok call →
        (c.sealNextInto aead channel plaintext out).1.nextSendCounter.toNat =
          c.nextSendCounter.toNat + 1 ∧
          call = sealOf c.send ⟨c.nextSendCounter, channel, plaintext⟩ := by
  simp only [sealNextInto]
  split_ifs with exhausted
  · simp
  cases next : checkedSucc c.nextSendCounter with
  | none => simp
  | some counter =>
    have := toNat_checkedSucc next
    exact ⟨rfl, rfl, rfl, by simp [this], fun call h => ⟨this, sealWithKeyInto_ok h⟩⟩

/-! ## Opening -/

lemma checkRecvCounter_error (h : (c.checkRecvCounter counter).2 = .error e) :
    (c.checkRecvCounter counter).1 = c := by
  unfold checkRecvCounter at h ⊢
  split_ifs at h ⊢ with other
  · rfl
  cases next : checkedSucc c.nextRecvCounter with
  | none => rfl
  | some _ =>
    rw [next] at h
    cases h

/-- An accepted frame carries the receive counter, which moves on by one. -/
lemma checkRecvCounter_ok (h : (c.checkRecvCounter counter).2 = .ok ()) :
    counter = c.nextRecvCounter ∧ ∃ next : UInt64, next.toNat = c.nextRecvCounter.toNat + 1 ∧
      (c.checkRecvCounter counter).1 = { c with nextRecvCounter := next } := by
  unfold checkRecvCounter at h ⊢
  split_ifs at h ⊢ with other
  cases next : checkedSucc c.nextRecvCounter with
  | none =>
    rw [next] at h
    cases h
  | some counter' => exact ⟨not_not.mp other, counter', toNat_checkedSucc next, rfl⟩

lemma openNext_error {aead : Aead} (h : (c.openNext aead channel frame).2 = .error e) :
    (c.openNext aead channel frame).1 = c := by
  unfold openNext at h ⊢
  cases opened : openWithKey aead c.recv channel frame with
  | error e => rfl
  | ok result =>
    rw [opened] at h
    simp only at h ⊢
    cases checked : c.checkRecvCounter result.1 with
    | mk c' outcome =>
      rw [checked] at h
      cases outcome with
      | ok _ => cases h
      | error e' =>
        have refused : (c.checkRecvCounter result.1).2 = .error e' := by rw [checked]
        have same := checkRecvCounter_error refused
        rw [checked] at same
        exact same

/-- What an accepted frame has passed. -/
lemma openNext_ok {aead : Aead} (h : (c.openNext aead channel frame).2 = .ok plaintext) :
    openWithKey aead c.recv channel frame = .ok (c.nextRecvCounter, plaintext) ∧
      ∃ next : UInt64, next.toNat = c.nextRecvCounter.toNat + 1 ∧
        (c.openNext aead channel frame).1 = { c with nextRecvCounter := next } := by
  unfold openNext at h ⊢
  cases opened : openWithKey aead c.recv channel frame with
  | error e =>
    rw [opened] at h
    cases h
  | ok result =>
    obtain ⟨counter, text⟩ := result
    rw [opened] at h
    simp only at h ⊢
    cases checked : c.checkRecvCounter counter with
    | mk c' outcome =>
      rw [checked] at h
      cases outcome with
      | error e => cases h
      | ok _ =>
        cases h
        obtain ⟨rfl, next, value, after⟩ := checkRecvCounter_ok (c := c) (by rw [checked])
        rw [checked] at after
        exact ⟨rfl, next, value, after⟩

/-- The in-place function returns the same plaintext and counter as the copying one. -/
lemma openNextInPlace_eq (aead : Aead) (c : TransportCipher) (channel : Byte) (frame : Bytes) :
    ((c.openNextInPlace aead channel frame).1, (c.openNextInPlace aead channel frame).2.2) =
      c.openNext aead channel frame := by
  unfold openNextInPlace openNext openWithKeyInPlace openWithKey
  split_ifs with short
  · rfl
  have front : (frame.take transportHeaderLen).length = transportHeaderLen := by
    rw [length_take, min_eq_left]
    exact le_trans (Nat.le_add_right _ _) (not_lt.mp short)
  cases openBodyInPlace aead c.recv channel (frame.take transportHeaderLen)
      (frame.drop transportHeaderLen) with
  | mk body outcome =>
    cases outcome with
    | error e => rfl
    | ok result =>
      obtain ⟨counter, len⟩ := result
      have plaintext : slice (frame.take transportHeaderLen ++ body) transportHeaderLen len =
          body.take len := by
        rw [slice_append_right front.le, front, Nat.sub_self]
        rfl
      simp only [plaintext]
      cases c.checkRecvCounter counter with
      | mk c' outcome => cases outcome <;> rfl

end TransportCipher

/-- An opened frame's plaintext is what the AEAD opens its body to. -/
lemma openWithKey_ok {aead : Aead} (h : openWithKey aead key channel frame =
      .ok (counter, plaintext)) :
    counter = wordAt UInt64 frame 4 ∧
      aead.opened key.bytes (nonceFromCounter counter)
        (transportAad channel (frame.take transportHeaderLen))
      (frame.drop transportHeaderLen) = some plaintext := by
  unfold openWithKey openBodyInPlace at h
  split at h
  · cases h
  simp only at h
  split_ifs at h with other exhausted
  cases opened : aead.openInPlace key.bytes
      (nonceFromCounter (wordAt UInt64 (frame.take transportHeaderLen) 4))
      (transportAad channel (frame.take transportHeaderLen)) (frame.drop transportHeaderLen) with
  | mk body outcome =>
    rw [opened] at h
    cases outcome with
    | none => cases h
    | some len =>
      cases h
      refine ⟨wordAt_take (by decide), ?_⟩
      simp [Aead.opened, opened]

/-! ## Lanes -/

namespace RecordProtection

lemma sealNextInto_recvCounter (aead : Aead) (p : RecordProtection) (channel : Byte)
      (plaintext out : Bytes) :
    (p.sealNextInto aead channel plaintext out).1.recvCounter = p.recvCounter := by
  cases p with
  | aead cipher => exact (cipher.sealNextInto_cipher aead channel plaintext out).2.2.1
  | clear => rfl

lemma sealNextInto_error {aead : Aead} {p : RecordProtection} {out : Bytes}
      (h : (p.sealNextInto aead channel plaintext out).2.2 = .error e) :
    (p.sealNextInto aead channel plaintext out).2.1 = out := by
  cases p with
  | aead cipher =>
    refine TransportCipher.sealNextInto_error (e := e) ?_
    simp only [sealNextInto] at h
    cases outcome : (cipher.sealNextInto aead channel plaintext out).2.2 with
    | error e' =>
      rw [outcome] at h
      exact congrArg Except.error (Except.error.inj h)
    | ok call =>
      rw [outcome] at h
      cases h
  | clear => cases h

/-- A frame that is refused leaves the receiver as it was. -/
lemma openNext_error {aead : Aead} {p : RecordProtection}
    (h : (p.openNext aead channel frame).2 = .error e) : (p.openNext aead channel frame).1 = p := by
  cases p with
  | aead cipher => exact congrArg RecordProtection.aead (TransportCipher.openNext_error h)
  | clear => cases h

lemma openNextInPlace_eq (aead : Aead) (p : RecordProtection) (channel : Byte) (frame : Bytes) :
    ((p.openNextInPlace aead channel frame).1, (p.openNextInPlace aead channel frame).2.2) =
      p.openNext aead channel frame := by
  cases p with
  | clear => rfl
  | aead cipher =>
    have same := cipher.openNextInPlace_eq aead channel frame
    simp only [openNext, ← same]
    rfl

end RecordProtection

/-- The lane's records split into those accepted, whose counters are `0, 1, …`, and those still
to come, whose counters increase from the receive counter on. -/
structure LaneInv (key : KeyMaterial) (l : Lane) (cs cr : TransportCipher)
    (front back : List SealedRecord) : Prop where
  sender : l.sender = .aead cs
  receiver : l.receiver = .aead cr
  sendKey : cs.send = key
  recvKey : cr.recv = key
  records : l.records = front ++ back
  seals : l.seals = l.records.map (sealOf key)
  accepted : l.accepted = front.map SealedRecord.plaintext
  taken : front.map (fun r => r.counter.toNat) = List.range cr.nextRecvCounter.toNat
  rising : back.Pairwise fun r r' => r.counter.toNat < r'.counter.toNat
  waiting : ∀ r ∈ back, cr.nextRecvCounter.toNat ≤ r.counter.toNat ∧
    r.counter.toNat < cs.nextSendCounter.toNat
  behind : cr.nextRecvCounter.toNat ≤ cs.nextSendCounter.toNat

lemma LaneInv.initial (key back back' : KeyMaterial) :
    LaneInv key (Lane.initial key back back') (.new key back) (.new back' key) [] [] where
  sender := rfl
  receiver := rfl
  sendKey := rfl
  recvKey := rfl
  records := rfl
  seals := rfl
  accepted := rfl
  taken := rfl
  rising := List.Pairwise.nil
  waiting := by simp
  behind := le_rfl

section Steps

variable {aead : Aead} {key : KeyMaterial} {l : Lane} {cs cr : TransportCipher}
  {front back : List SealedRecord}

lemma LaneInv.sealed (inv : LaneInv key l cs cr front back) (channel : Byte)
      (plaintext out : Bytes) {l' : Lane}
    (h : l.next aead (.sealNext channel plaintext out) = some l') :
    ∃ cs' back', LaneInv key l' cs' cr front back' := by
  obtain ⟨sendKey, -, -, monotone, advance⟩ := cs.sealNextInto_cipher aead channel plaintext out
  simp only [Lane.next, inv.sender, RecordProtection.sealNextInto] at h
  cases outcome : cs.sealNextInto aead channel plaintext out with
  | mk cs' rest =>
    obtain ⟨out', result⟩ := rest
    rw [outcome] at h monotone advance sendKey
    cases result with
    | error e =>
      cases h
      refine ⟨cs', back,
        { inv with sender := rfl, sendKey := sendKey.trans inv.sendKey, waiting := ?_,
                   behind := ?_ }⟩
      · intro r mem
        exact ⟨(inv.waiting r mem).1, lt_of_lt_of_le (inv.waiting r mem).2 monotone⟩
      · exact le_trans inv.behind monotone
    | ok call =>
      obtain ⟨advance, rfl⟩ := advance call rfl
      have advance : cs'.nextSendCounter.toNat = cs.nextSendCounter.toNat + 1 := advance
      cases h
      refine ⟨cs', back ++ [⟨cs.nextSendCounter, channel, plaintext⟩],
        { inv with sender := rfl, sendKey := sendKey.trans inv.sendKey, records := ?_, seals := ?_,
                   rising := ?_, waiting := ?_, behind := ?_ }⟩
      · simp [inv.records, RecordProtection.counter]
      · simp [inv.seals, inv.sendKey, RecordProtection.counter]
      · rw [pairwise_append]
        refine ⟨inv.rising, pairwise_singleton _ _, ?_⟩
        intro r mem r' last
        rw [mem_singleton.mp last]
        exact (inv.waiting r mem).2
      · intro r mem
        rcases mem_append.mp mem with mem | last
        · have := inv.waiting r mem
          omega
        rw [mem_singleton.mp last]
        show _ ≤ cs.nextSendCounter.toNat ∧ cs.nextSendCounter.toNat < _
        have := inv.behind
        omega
      · have := inv.behind
        omega

/-- The record under the receive counter is the first one still to come. -/
lemma LaneInv.next_record (inv : LaneInv key l cs cr front back) {r : SealedRecord}
      (mem : r ∈ l.records)
    (counter : r.counter = cr.nextRecvCounter) : ∃ rest, back = r :: rest := by
  rw [inv.records] at mem
  rcases mem_append.mp mem with old | new
  · -- the counters of accepted records are below the receive counter
    have below : r.counter.toNat ∈ List.range cr.nextRecvCounter.toNat := by
      rw [← inv.taken]
      exact mem_map.mpr ⟨r, old, rfl⟩
    rw [counter] at below
    exact absurd (List.mem_range.mp below) (lt_irrefl _)
  · cases back with
    | nil => cases new
    | cons first rest =>
      rcases mem_cons.mp new with rfl | later
      · exact ⟨rest, rfl⟩
      -- the first record's counter would be below the receive counter
      have rising := rel_of_pairwise_cons inv.rising later
      have lower := (inv.waiting first mem_cons_self).1
      rw [counter] at rising
      omega

/-- A logged call under a counter is the call of a record under that counter. -/
lemma LaneInv.record_of_seal (inv : LaneInv key l cs cr front back) {k : ByteArr 32} {aad : Bytes}
    (h : (⟨k, nonceFromCounter counter, aad, plaintext⟩ : AeadSeal) ∈ l.seals) :
    ∃ r ∈ l.records, r.counter = counter ∧ r.plaintext = plaintext := by
  rw [inv.seals] at h
  obtain ⟨r, mem, found⟩ := mem_map.mp h
  simp only [sealOf, AeadSeal.mk.injEq] at found
  exact ⟨r, mem, nonceFromCounter_inj found.2.1, found.2.2.2⟩

lemma LaneInv.opened (inv : LaneInv key l cs cr front back)
      (authentic : AuthenticFrame aead key l channel frame) {receiver : RecordProtection}
    {outcome : Except CryptoError Bytes}
    (h : l.receiver.openNext aead channel frame = (receiver, outcome)) :
    ∃ cr' front' back', LaneInv key (l.opened receiver outcome) cs cr' front' back' := by
  have step : cr.openNext aead channel frame = ((cr.openNext aead channel frame).1, outcome) ∧
      receiver = .aead (cr.openNext aead channel frame).1 := by
    rw [inv.receiver] at h
    simp only [RecordProtection.openNext, Prod.mk.injEq] at h
    exact ⟨Prod.ext rfl h.2, h.1.symm⟩
  obtain ⟨step, rfl⟩ := step
  cases outcome with
  | error e =>
    have same := TransportCipher.openNext_error (c := cr) (by rw [step])
    refine ⟨cr, front, back, { inv with receiver := ?_ }⟩
    show RecordProtection.aead _ = _
    rw [same]
  | ok plaintext =>
    obtain ⟨opened, next, value, after⟩ := TransportCipher.openNext_ok (c := cr) (by rw [step])
    obtain ⟨counter, body⟩ := openWithKey_ok opened
    rw [inv.recvKey] at body
    have logged := authentic plaintext (by rw [← counter]; exact body)
    rw [← counter] at logged
    obtain ⟨r, mem, rCounter, rfl⟩ := inv.record_of_seal logged
    obtain ⟨rest, rfl⟩ := inv.next_record mem rCounter
    refine ⟨{ cr with nextRecvCounter := next }, front ++ [r], rest, ?_⟩
    have rising := pairwise_cons.mp inv.rising
    have head := inv.waiting r mem_cons_self
    refine ⟨inv.sender, ?_, inv.sendKey, inv.recvKey, ?_, inv.seals, ?_, ?_, rising.2, ?_, ?_⟩
    · show RecordProtection.aead _ = _
      rw [after]
    · simp [Lane.opened, inv.records]
    · simp [Lane.opened, inv.accepted]
    · rw [map_append, inv.taken, value, range_succ]
      simp [rCounter]
    · intro r' mem'
      have above := rising.1 r' mem'
      have := inv.waiting r' (mem_cons_of_mem r mem')
      simp only [value]
      omega
    · simp only [value]
      omega

end Steps

/-- What holds in every state of a lane. -/
def LaneOk (key : KeyMaterial) (l : Lane) : Prop :=
  ∃ cs cr front back, LaneInv key l cs cr front back

lemma LaneOk.step {aead : Aead} {l l' : Lane} {a : LaneAction} (ok : LaneOk key l)
      (unforged : Unforged aead key l a)
    (h : l.next aead a = some l') : LaneOk key l' := by
  obtain ⟨cs, cr, front, back, inv⟩ := ok
  cases a with
  | sealNext channel plaintext out =>
    obtain ⟨cs', back', inv'⟩ := inv.sealed channel plaintext out h
    exact ⟨cs', cr, front, back', inv'⟩
  | openNext channel frame =>
    cases h
    obtain ⟨cr', front', back', inv'⟩ := inv.opened unforged rfl
    exact ⟨cs, cr', front', back', inv'⟩
  | openNextInPlace channel frame =>
    cases h
    have same := l.receiver.openNextInPlace_eq aead channel frame
    obtain ⟨cr', front', back', inv'⟩ := inv.opened unforged same.symm
    exact ⟨cs, cr', front', back', inv'⟩

lemma LaneOk.in_order {l : Lane} (ok : LaneOk key l) :
    l.accepted <+: l.records.map SealedRecord.plaintext := by
  obtain ⟨cs, cr, front, back, inv⟩ := ok
  rw [inv.accepted, inv.records, map_append]
  exact List.prefix_append _ _

/-- In every run of an encrypted lane in which the adversary does not forge the AEAD, the
plaintexts accepted are a prefix of the plaintexts sealed.  In both modes of a lane a seal that
fails leaves the output buffer and the receive counter as they were, a frame that is refused
leaves the receiver as it was, and the two opening functions agree on the verdict, the plaintext
and the counter. -/
theorem record_lane_in_order (aead : Aead) (key back back' : KeyMaterial) (l : Lane)
    (run : Reachable (Lane.next aead) (Unforged aead key) (Lane.initial key back back') l) :
    l.accepted <+: l.records.map SealedRecord.plaintext ∧
    ∀ (p : RecordProtection) (channel : Byte),
      (∀ plaintext out e, (p.sealNextInto aead channel plaintext out).2.2 = .error e →
        (p.sealNextInto aead channel plaintext out).2.1 = out ∧
          (p.sealNextInto aead channel plaintext out).1.recvCounter = p.recvCounter) ∧
      (∀ frame e, (p.openNext aead channel frame).2 = .error e →
        (p.openNext aead channel frame).1 = p) ∧
      ∀ frame, ((p.openNextInPlace aead channel frame).1,
        (p.openNextInPlace aead channel frame).2.2) = p.openNext aead channel frame := by
  have ok : LaneOk key l := run.invariant ⟨_, _, _, _, LaneInv.initial key back back'⟩
    fun ok unforged h => ok.step unforged h
  refine ⟨ok.in_order, fun p channel => ⟨fun plaintext out e failed => ?_,
    fun _ _ => RecordProtection.openNext_error, p.openNextInPlace_eq aead channel⟩⟩
  exact ⟨RecordProtection.sealNextInto_error failed,
    p.sealNextInto_recvCounter aead channel plaintext out⟩

/-! A lane with one record, delivered twice. -/

def sampleKey : KeyMaterial := ⟨3, ByteArr.replicate 32 0⟩

def sampleFrame : Bytes :=
  putWord (3 : UInt32) ++ putWord (0 : UInt64) ++ [1, 2] ++ List.replicate 16 0

def sampleLane : Lane :=
  after (Lane.next .sample) (Lane.initial sampleKey sampleKey sampleKey)
    [.sealNext channelControl [1, 2] [], .openNextInPlace channelControl sampleFrame,
      .openNext channelControl sampleFrame]

theorem record_lane_in_order_sample :
    sampleLane.accepted = [[1, 2]] ∧
    sampleLane.accepted <+: sampleLane.records.map SealedRecord.plaintext :=
  ⟨by decide +kernel,
    (record_lane_in_order .sample sampleKey sampleKey sampleKey sampleLane
    (reachable_after (by decide +kernel))).1⟩

end Chatt.Records
