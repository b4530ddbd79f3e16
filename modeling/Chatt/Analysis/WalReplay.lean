import Chatt.Analysis.Replay

/-!
# Reading a log file

`replayWal` on the bytes of a log is `replayAll` on its records, also where the log was cut in
the middle of a record.
-/

namespace Chatt

open Chatt.Lib List

variable {ds : List StateDelta}
variable {bytes : Bytes}

/-! ## The bytes of a log -/

/-- The log with the given records. -/
def walOf (jsony : Jsony) (ds : List StateDelta) : Bytes :=
  walHeader ++ frames walChecksum (ds.map jsony.delta.encode)

/-- The records fit the length field of a frame. -/
def RecordsFit (jsony : Jsony) (ds : List StateDelta) : Prop :=
  ∀ d ∈ ds, (jsony.delta.encode d).length < 2 ^ 32

/-- The file has these records and possibly the beginning of one more. -/
def WalHolds (jsony : Jsony) (bytes : Bytes) (ds : List StateDelta) : Prop :=
  RecordsFit jsony ds ∧ ∃ tail, Torn walChecksum tail ∧ bytes = walOf jsony ds ++ tail

variable {jsony : Jsony} {d : StateDelta}

lemma walChecksum_lt (bytes : Bytes) : walChecksum bytes < 2 ^ 64 := by
  refine foldlRecOn (motive := (· < 2 ^ 64)) bytes _ (by decide) ?_
  intro hash _ byte _
  exact Nat.mod_lt _ (by decide)

lemma length_walHeader : walHeader.length = walHeaderBytes := rfl

lemma drop_walOf (ds : List StateDelta) (tail : Bytes) :
    (walOf jsony ds ++ tail).drop walHeaderBytes = frames walChecksum (ds.map jsony.delta.encode) ++
      tail := by
  rw [walOf, append_assoc, drop_left' length_walHeader]

lemma length_walOf (ds : List StateDelta) :
    (walOf jsony ds).length = walHeaderBytes +
      (frames walChecksum (ds.map jsony.delta.encode)).length := by
  rw [walOf, length_append, length_walHeader]

lemma le_length_walOf (ds : List StateDelta) : walHeaderBytes ≤ (walOf jsony ds).length := by
  rw [length_walOf]
  exact Nat.le_add_right _ _

lemma walOf_append (ds es : List StateDelta) :
    walOf jsony (ds ++ es) = walOf jsony ds ++ frames walChecksum (es.map jsony.delta.encode) := by
  rw [walOf, walOf, map_append, frames_append, append_assoc]

lemma walOf_concat (ds : List StateDelta) (d : StateDelta) :
    walOf jsony (ds ++ [d]) = walOf jsony ds ++ walFrame jsony d := by
  rw [walOf_append]
  simp [frames, walFrame]

lemma RecordsFit.bodies (h : RecordsFit jsony ds) :
    ∀ body ∈ ds.map jsony.delta.encode, body.length < 2 ^ 32 := by
  intro body hbody
  obtain ⟨d, hd, rfl⟩ := mem_map.mp hbody
  exact h d hd

lemma RecordsFit.concat (h : RecordsFit jsony ds) (hd : (jsony.delta.encode d).length < 2 ^ 32) :
    RecordsFit jsony (ds ++ [d]) := by
  exact forall_mem_append.mpr ⟨h, forall_mem_singleton.mpr hd⟩

lemma walHolds_walOf (h : RecordsFit jsony ds) : WalHolds jsony (walOf jsony ds) ds :=
  ⟨h, [], torn_nil, (append_nil _).symm⟩

/-- Each frame takes at least one byte. -/
lemma length_le_length_frames (bodies : List Bytes) :
    bodies.length ≤ (frames walChecksum bodies).length := by
  induction bodies with
  | nil => exact Nat.le_refl 0
  | cons body rest ih =>
    unfold frames at ih ⊢
    rw [flatMap_cons, length_append, length_frame, length_cons]
    omega

/-! ## Scanning it -/

/-- Scanning a log steps through its records. -/
lemma WalHolds.scan {σ ε : Type} {step : σ → Bytes → Except ε σ} (h : WalHolds jsony bytes ds)
      (corrupt : ε) (s : σ) :
    Lib.scan walChecksum corrupt step bytes.length (bytes.drop walHeaderBytes) s =
      (stepAll step (ds.map jsony.delta.encode) s).map fun t =>
        (t, (frames walChecksum (ds.map jsony.delta.encode)).length, ds.length) := by
  obtain ⟨hfit, tail, htail, rfl⟩ := h
  have hfuel : (ds.map jsony.delta.encode).length ≤ (walOf jsony ds ++ tail).length := by
    have := length_le_length_frames (ds.map jsony.delta.encode)
    rw [length_append, length_walOf]
    omega
  rw [drop_walOf, scan_frames hfit.bodies walChecksum_lt hfuel htail.scan, length_map]

lemma stepAll_replayRecord (path : String) (s : MemoryState) :
    stepAll (replayRecord jsony path) (ds.map jsony.delta.encode) s = replayAll s ds := by
  induction ds generalizing s with
  | nil => rfl
  | cons d rest ih =>
    rw [map_cons, stepAll, replayRecord, jsony.delta.decode_encode, replayAll]
    dsimp only
    rcases applyDelta s d with ⟨t, error | ⟨⟩⟩
    · rfl
    · exact ih t

/-- The state a replay leads to, with the file that has the given records. -/
def replayedOf (jsony : Jsony) (ds : List StateDelta) (t : MemoryState) : Replayed where
  state := t
  file := some (walOf jsony ds)
  validBytes := (walOf jsony ds).length
  records := ds.length

lemma replayWal_of_holds {path : String} {s : MemoryState} (h : WalHolds jsony bytes ds) :
    replayWal jsony path (some bytes) s = (replayAll s ds).map (replayedOf jsony ds) := by
  have hscan := stepAll_replayRecord path s ▸
    h.scan (path ++ " contains a corrupt MLS WAL record") s
  obtain ⟨-, tail, -, rfl⟩ := h
  have hlong : ¬ (walOf jsony ds ++ tail).length < walHeaderBytes := by
    rw [length_append]
    exact Nat.not_lt.mpr ((le_length_walOf ds).trans (Nat.le_add_right _ _))
  have hmagic : (walOf jsony ds ++ tail).take 8 = walMagic := rfl
  have hversion : leValue (((walOf jsony ds ++ tail).drop 8).take 4) = walVersion := rfl
  simp only [replayWal, if_neg hlong, hmagic, hversion, ne_eq, not_true_eq_false, if_false, hscan]
  cases replayAll s ds with
  | error error => rfl
  | ok t => simp only [Except.map, replayedOf, ← length_walOf, take_left]

lemma walRecords_of_holds (h : WalHolds jsony bytes ds) : walRecords jsony bytes = ds := by
  have hsteps : ∀ (ds done : List StateDelta),
      stepAll (collectRecord jsony) (ds.map jsony.delta.encode) done = .ok (done ++ ds) := by
    intro ds
    induction ds with
    | nil => exact fun done => by rw [append_nil]; rfl
    | cons d rest ih =>
      intro done
      rw [map_cons, stepAll, collectRecord, jsony.delta.decode_encode]
      simp only [ih]
      rw [append_assoc]
      rfl
  unfold walRecords
  rw [h.scan "corrupt" [], hsteps ds []]
  rfl

/-- A file shorter than a header is emptied. -/
lemma replayWal_of_short {path : String} (s : MemoryState) (h : bytes.length < walHeaderBytes) :
    replayWal jsony path (some bytes) s = .ok
      { state := s, file := some [], validBytes := 0, records := 0 } := by
  simp only [replayWal, if_pos h]

lemma walRecords_of_short (h : bytes.length < walHeaderBytes) : walRecords jsony bytes = [] := by
  unfold walRecords
  rw [drop_of_length_le (Nat.le_of_lt h), torn_nil.scan]

/-! ## Cutting it -/

/-- A cut behind the header keeps the records that are complete before it. -/
lemma WalHolds.take (h : WalHolds jsony bytes ds) {n : ℕ} (hn : walHeaderBytes ≤ n) :
    ∃ k ≤ ds.length, WalHolds jsony (bytes.take n) (ds.take k) ∧
    ∀ m ≤ ds.length, (walOf jsony (ds.take m)).length ≤ n → m ≤ k := by
  obtain ⟨hfit, tail, htail, rfl⟩ := h
  obtain ⟨k, tail', hk, htail', heq, hkept⟩ := take_frames hfit.bodies htail (n - walHeaderBytes)
  rw [length_map] at hk hkept
  refine ⟨k, hk, ⟨fun d hd => hfit d (mem_of_mem_take hd), tail', htail', ?_⟩, ?_⟩
  · rw [walOf, append_assoc, take_append, length_walHeader,
      take_of_length_le (by rwa [length_walHeader]), heq, walOf, append_assoc, map_take]
  · intro m hm hle
    apply hkept m hm
    rw [length_walOf, map_take] at hle
    omega

/-! ## A torn tail -/

/-- The open log with these records and nothing else. -/
def OpenWal.of (jsony : Jsony) (ds : List StateDelta) : OpenWal :=
  { bytes := walOf jsony ds, walBytes := (walOf jsony ds).length }

variable {path : String}

lemma append_failed (d : StateDelta) (failure : ℕ × String) :
    ((OpenWal.of jsony ds).append jsony path d (some failure)).1 = .of jsony ds := by
  unfold OpenWal.append
  split_ifs
  · rfl
  · simp only [OpenWal.of, take_left]

lemma append_ok {failure : Option (ℕ × String)} {wal : OpenWal}
      (h : (OpenWal.of jsony ds).append jsony path d failure = (wal, .ok ())) :
    (jsony.delta.encode d).length < 2 ^ 32 ∧ wal = .of jsony (ds ++ [d]) := by
  unfold OpenWal.append at h
  split_ifs at h with hfits
  · cases h
  cases failure with
  | some failure => cases h
  | none =>
    obtain ⟨rfl, -⟩ := Prod.mk.inj h
    refine ⟨Nat.lt_succ_of_le (Nat.not_lt.mp hfits), ?_⟩
    rw [OpenWal.of, OpenWal.of, walOf_concat, length_append]

lemma append_error {failure : Option (ℕ × String)} {wal : OpenWal} {error : String}
    (h : (OpenWal.of jsony ds).append jsony path d failure = (wal, .error error)) :
    wal = .of jsony ds := by
  cases failure with
  | some failure => rw [← append_failed d failure, h]
  | none =>
    unfold OpenWal.append at h
    split_ifs at h
    · exact (Prod.mk.inj h).1.symm
    · cases h

/-- Appends keep the log to the records of those that returned. -/
lemma appendAll_of (calls : List (StateDelta × Option (ℕ × String))) :
    ∃ es, RecordsFit jsony es ∧ (OpenWal.of jsony ds).appendAll jsony path calls =
      (.of jsony (ds ++ es), es) := by
  induction calls generalizing ds with
  | nil => exact ⟨[], fun d hd => absurd hd not_mem_nil, by rw [append_nil]; rfl⟩
  | cons call calls ih =>
    obtain ⟨d, failure⟩ := call
    rw [OpenWal.appendAll]
    split
    next wal error happend =>
      rw [append_error happend]
      exact ih
    next wal happend =>
    obtain ⟨hfits, rfl⟩ := append_ok happend
    obtain ⟨es, hes, heq⟩ := @ih (ds ++ [d])
    refine ⟨d :: es, forall_mem_cons.mpr ⟨hfits, hes⟩, ?_⟩
    rw [heq, append_assoc]
    rfl

/-- The appends after a repair. -/
lemma replayWal_appendAll {s t : MemoryState} (hfit : RecordsFit jsony ds)
      (hreplay : replayAll s ds = .ok t) (calls : List (StateDelta × Option (ℕ × String))) :
    let appended := (OpenWal.of jsony ds).appendAll jsony path calls
    replayWal jsony path (some appended.1.bytes) s =
      (replayAll t appended.2).map (replayedOf jsony (ds ++ appended.2)) := by
  obtain ⟨es, hes, heq⟩ := @appendAll_of ds jsony path calls
  have hfits : RecordsFit jsony (ds ++ es) := fun d hd => (mem_append.mp hd).elim (hfit d) (hes d)
  have hwhole : replayAll s (ds ++ es) = replayAll t es := by
    rw [replayAll_append, hreplay]
    rfl
  rw [heq]
  dsimp only
  rw [← hwhole]
  exact replayWal_of_holds (walHolds_walOf hfits)

lemma walOf_isPrefix {es : List StateDelta} (h : ds <+: es) :
    walOf jsony ds <+: walOf jsony es := by
  obtain ⟨rest, rfl⟩ := h
  rw [walOf_append]
  exact prefix_append _ _

/-- A log of appended deltas, cut anywhere: the replay applies the deltas whose frames are complete
and cuts the rest off, what is appended then is replayed after them, and an append that fails and
is rolled back changes nothing. -/
theorem replayWal_torn_tail (jsony : Jsony) (path : String) (s : MemoryState)
    (calls later : List (StateDelta × Option (ℕ × String))) (n : ℕ) :
    let appended := OpenWal.created.appendAll jsony path calls
    let cut := replayWal jsony path (some (appended.1.bytes.take n)) s
    (∃ k ≤ appended.2.length, (∀ m ≤ appended.2.length, m ≤ k ↔ m = 0 ∨
      (walOf jsony (appended.2.take m)).length ≤ n) ∧
      ((∃ t, replayAll s appended.2 = .ok t) → ∃ replayed, cut = .ok replayed) ∧
      ∀ replayed, cut = .ok replayed → replayAll s (appended.2.take k) = .ok replayed.state ∧
      replayed.records = k ∧
        replayed.validBytes = (if n < walHeaderBytes then 0
        else (walOf jsony (appended.2.take k)).length) ∧
        replayed.file = some (appended.1.bytes.take replayed.validBytes) ∧
        let more := replayed.openWal.appendAll jsony path later
        replayWal jsony path (some more.1.bytes) s =
          (replayAll replayed.state more.2).map
            (replayedOf jsony (appended.2.take k ++ more.2))) ∧
    ∀ d failure, (appended.1.append jsony path d (some failure)).1 = appended.1 := by
  have hcreated : OpenWal.created = .of jsony [] := rfl
  obtain ⟨ds, hfit, heq⟩ := @appendAll_of [] jsony path calls
  rw [hcreated, heq]
  refine ⟨?_, append_failed⟩
  dsimp only [OpenWal.of]
  rw [nil_append]
  by_cases hshort : n < walHeaderBytes
  · have hlength : ((walOf jsony ds).take n).length < walHeaderBytes := by
      rw [length_take]
      omega
    rw [replayWal_of_short s hlength]
    refine ⟨0, Nat.zero_le _, ?_, fun _ => ⟨_, rfl⟩, ?_⟩
    · intro m _
      have hlong := @le_length_walOf jsony (ds.take m)
      omega
    · intro replayed hreplayed
      cases hreplayed
      refine ⟨rfl, rfl, (if_pos hshort).symm, rfl, ?_⟩
      exact @replayWal_appendAll [] jsony path s s (fun d hd => absurd hd not_mem_nil) rfl later
  · obtain ⟨k, hk, hholds, hkept⟩ := (walHolds_walOf hfit).take (Nat.not_lt.mp hshort)
    have hle : (walOf jsony (ds.take k)).length ≤ n := by
      obtain ⟨-, tail, -, htake⟩ := hholds
      have hlength := congrArg List.length htake
      rw [length_take, length_append] at hlength
      omega
    have hkeeps := prefix_iff_eq_take.mp (@walOf_isPrefix _ jsony _ <| take_prefix k ds)
    rw [replayWal_of_holds hholds]
    refine ⟨k, hk, ?_, ?_, ?_⟩
    · intro m hm
      constructor
      · exact fun hmk => .inr ((walOf_isPrefix (take_prefix_take_left hmk)).length_le.trans hle)
      · rintro (rfl | hcomplete)
        · exact Nat.zero_le k
        · exact hkept m hm hcomplete
    · rintro ⟨t, ht⟩
      rw [← take_append_drop k ds] at ht
      rw [replayAll_append, bind_eq_ok] at ht
      obtain ⟨u, hu, -⟩ := ht
      rw [hu]
      exact ⟨_, rfl⟩
    · intro replayed hreplayed
      cases ht : replayAll s (ds.take k) with
      | error error =>
        rw [ht] at hreplayed
        cases hreplayed
      | ok t =>
        rw [ht] at hreplayed
        cases hreplayed
        refine ⟨rfl, (length_take).trans (Nat.min_eq_left hk), (if_neg hshort).symm,
          congrArg some hkeeps, ?_⟩
        exact replayWal_appendAll hholds.1 ht later

/-- A record for the torn log below: a device takes a Welcome. -/
def sampleAck (deliveryId : ℕ) : StateDelta :=
  { welcomeCursors := [{ deliveryId, deviceId := sampleDevice 1 }] }

/-- A log of two records, cut in the body of the second: the first is replayed, and the file is cut
back to it. -/
theorem replayWal_torn_tail_second :
    let appended := OpenWal.created.appendAll Jsony.stream walPath
      [(sampleAck 1, none), (sampleAck 2, none)]
    let n := (walOf Jsony.stream [sampleAck 1]).length + 20
    n < appended.1.bytes.length ∧ ∃ replayed,
      replayWal Jsony.stream walPath (some (appended.1.bytes.take n)) MemoryState.initial =
        .ok replayed ∧ replayed.records = 1 ∧
      replayed.file = some (walOf Jsony.stream [sampleAck 1]) := by
  intro appended n
  obtain ⟨⟨k, hk, hcut, hok, hstate⟩, -⟩ := replayWal_torn_tail Jsony.stream walPath
    MemoryState.initial [(sampleAck 1, none), (sampleAck 2, none)] [] n
  refine ⟨by decide +kernel, ?_⟩
  obtain ⟨replayed, hreplayed⟩ := hok (exists_of_isOk (by decide +kernel))
  obtain ⟨-, hrecords, hvalid, hfile, -⟩ := hstate replayed hreplayed
  have hone : 1 ≤ k := (hcut 1 (by decide +kernel)).mpr (Or.inr (by decide +kernel))
  have htwo : ¬ 2 ≤ k := fun h => absurd ((hcut 2 (by decide +kernel)).mp h) (by decide +kernel)
  obtain rfl : k = 1 := by omega
  refine ⟨replayed, hreplayed, hrecords, ?_⟩
  rw [hfile, hvalid]
  decide +kernel

end Chatt
