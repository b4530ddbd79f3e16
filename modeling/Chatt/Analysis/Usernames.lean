import Chatt.Interface.UsernameRun

/-!
# The username registry and its log

`setInMemory` keeps the two maps inverse to each other when the name is available.  A run of
claims in memory succeeds exactly when each name is available at its turn (`Claimable`), and then
says who has which name.  The log of a run is such a run of claims, and what it holds at its end
does not clash with the configured users.
-/

namespace Chatt.Usernames

open Lib List OrdMap Option

variable {unicode : Unicode}
variable {claim : ClaimRecord} {userId : UserId}
variable {name : Name} (path : String) {tail : Bytes}

/-! ## Names -/

lemma trim_trim (name : Name) : trim (trim name) = trim name := by
  have hfront : (trim name).dropWhile isSpace = trim name := by
    rw [dropWhile_eq_self_iff]
    intro hpos
    have hstart := List.rdropWhile_prefix isSpace (name.dropWhile isSpace)
    have hlong : 0 < (name.dropWhile isSpace).length := hpos.trans_le hstart.length_le
    have hhead : (trim name)[0] = (name.dropWhile isSpace)[0] := hstart.getElem hpos
    rw [hhead]
    exact dropWhile_get_zero_not isSpace name hlong
  rw [trim, hfront, trim, rdropWhile_idempotent]

lemma validate_trim (name : Name) : validate unicode (trim name) = validate unicode name := by
  simp only [validate, trim_trim]

lemma length_le_of_validate (h : (validate unicode name).isOk = true) :
    (utf8 (trim name)).length ≤ maxUsernameBytes := by
  by_contra hlong
  rw [not_le] at hlong
  simp only [validate, gt_iff_lt, if_pos hlong] at h
  split_ifs at h <;> cases h

/-! ## Records -/

/-- The record can be written. -/
structure RecordOk (record : ClaimRecord) : Prop where
  userId : record.userId < 2 ^ 64
  name : (utf8 record.name).length ≤ 255

lemma length_encodeRecord (record : ClaimRecord) :
    (encodeRecord record).length = 9 + (utf8 record.name).length := by
  rw [encodeRecord, length_append, length_leBytes, length_cons]
  omega

/-- What the nine bytes in front of a name say. -/
lemma encodeRecord_header {record : ClaimRecord} (h : RecordOk record) (rest : Bytes) :
    leValue ((encodeRecord record ++ rest).take 8) = record.userId ∧
    ((encodeRecord record ++ rest).getD 8 0).val = (utf8 record.name).length ∧
      (encodeRecord record ++ rest).drop 9 = utf8 record.name ++ rest := by
  have hname := h.name
  rw [encodeRecord, append_assoc]
  refine ⟨?_, ?_, ?_⟩
  · rw [take_left' (length_leBytes 8 _)]
    exact leValue_leBytes_of_lt h.userId
  · simp only [cons_append, Fin.ofNat]
    exact Nat.mod_eq_of_lt (by omega)
  · rw [drop_append, length_leBytes]
    simp

lemma readsBack_record : ReadsBack encodeRecord readRecord RecordOk where
  whole := by
    intro record rest h
    obtain ⟨hid, hlen, hname⟩ := encodeRecord_header h rest
    have hlength : (encodeRecord record ++ rest).length = 9 + (utf8 record.name).length +
        rest.length := by
      rw [length_append, length_encodeRecord]
    have hrest : (encodeRecord record ++ rest).drop (9 + (utf8 record.name).length) = rest :=
      drop_left' (length_encodeRecord record)
    rw [readRecord, if_neg (by omega)]
    simp only [hlen]
    rw [if_neg (by omega), hname, take_left' rfl, fromUtf8_utf8, hid, hrest]
    rfl
  torn := by
    intro record n h hn
    rw [length_encodeRecord] at hn
    have hlength : ((encodeRecord record).take n).length = n := by
      rw [length_take, length_encodeRecord]
      omega
    unfold readRecord
    split_ifs with hshort
    · rfl
    -- the length byte is there, and the name is not complete
    have hbyte : (((encodeRecord record).take n).getD 8 0).val = (utf8 record.name).length := by
      have hlen := (encodeRecord_header h []).2.1
      rw [append_nil] at hlen
      rw [← hlen, getD_eq_getElem?_getD, getD_eq_getElem?_getD, getElem?_take_of_lt (by omega)]
    rw [if_pos (by omega)]
  nothing := rfl

/-! ## Names in memory -/

namespace Registry

variable {registry registry' : Registry}

lemma isAvailable_iff : registry.isAvailable unicode name (some userId) = true ↔
      ∀ owner, registry.byFolded.get? (fold unicode name) = some owner → owner = userId := by
  unfold isAvailable ownerOf
  cases registry.byFolded.get? (fold unicode name) <;> simp

lemma inverse_empty : empty.Inverse unicode := by
  intro key userId
  simp [empty]

/-- The name a user had is given up. -/
lemma get?_byFolded_setInMemory (h : registry.Inverse unicode) (userId : UserId) (name : Name)
      (key : Name) :
    (registry.setInMemory unicode userId name).byFolded.get? key = if key =
      fold unicode name then some userId
      else if (registry.byUser.get? userId).map (fold unicode) = some key then none
      else registry.byFolded.get? key := by
  unfold setInMemory
  cases hprevious : registry.byUser.get? userId with
  | none =>
    simp only [get?_insert, map_none, reduceCtorEq, if_false]
    split_ifs <;> rfl
  | some previous =>
    have howner : registry.byFolded.get? (fold unicode previous) = some userId :=
      (h _ _).mpr ⟨previous, hprevious, rfl⟩
    simp only [get?_insert, map_some, some.injEq, howner, and_true]
    by_cases hkey : key = fold unicode name
    · simp only [if_pos hkey]
    by_cases hsame : fold unicode previous = fold unicode name
    · have hother : fold unicode previous ≠ key := fun heq => hkey (heq.symm.trans hsame)
      simp only [hsame, ne_eq, not_true_eq_false, if_false, if_neg (hsame ▸ hother)]
    · simp only [ne_eq, hsame, not_false_eq_true, if_true, get?_erase, eq_comm]
      split_ifs <;> rfl

/-- A user takes a name that no one else has. -/
lemma Inverse.setInMemory (h : registry.Inverse unicode)
      (havailable : registry.isAvailable unicode name (some userId) = true) :
    (registry.setInMemory unicode userId name).Inverse unicode := by
  rw [isAvailable_iff] at havailable
  intro key other
  have hbyUser : (registry.setInMemory unicode userId name).byUser.get? other = if other =
      userId then some name else registry.byUser.get? other :=
    get?_insert _ _ _ _
  rw [get?_byFolded_setInMemory h, hbyUser]
  by_cases hother : other = userId
  · subst hother
    simp only [if_true, some.injEq, exists_eq_left']
    by_cases hkey : key = fold unicode name
    · simp [hkey]
    -- what the user had before is not found any more
    simp only [if_neg hkey, Ne.symm hkey, iff_false]
    split_ifs with hprevious
    · simp
    intro howner
    obtain ⟨previous, hname, hfold⟩ := (h key other).mp howner
    rw [hname, map_some, hfold] at hprevious
    exact hprevious rfl
  · simp only [if_neg hother]
    rw [← h key other]
    split_ifs with hkey hprevious
    · rw [hkey]
      constructor
      · intro hsome
        exact absurd (some.inj hsome).symm hother
      · intro howner
        exact absurd (havailable other howner) hother
    · obtain ⟨previous, hname, hfold⟩ := map_eq_some_iff.mp hprevious
      have howner : registry.byFolded.get? key = some userId := (h _ _).mpr ⟨previous, hname, hfold⟩
      rw [howner]
      simp [Ne.symm hother]
    · rfl

/-! ## A run of claims in memory -/

lemma claimInMemory_eq_ok :
    registry.claimInMemory unicode userId name = .ok registry' ↔
    (validate unicode name).isOk = true ∧
      registry.isAvailable unicode name (some userId) = true ∧
      registry.setInMemory unicode userId name = registry' := by
  simp only [claimInMemory, error_else_eq_ok, Bool.not_eq_false, Except.ok.injEq]

/-- Who has which name after the claims. -/
def nameAfter (registry : Registry) (claims : List ClaimRecord) (userId : UserId) : Option Name :=
  (lastClaim claims userId).or (registry.byUser.get? userId)

/-- Each claim, at its turn, is of a valid name that no other user has. -/
def Claimable (unicode : Unicode) (registry : Registry) (claims : List ClaimRecord) : Prop :=
  ∀ before claim after, claims = before ++ claim :: after →
    (validate unicode claim.name).isOk = true ∧
    ∀ userId name, registry.nameAfter before userId = some name →
      fold unicode name = fold unicode claim.name → userId = claim.userId

lemma get?_setInMemory (claim : ClaimRecord) (userId : UserId) :
    (registry.setInMemory unicode claim.userId claim.name).byUser.get? userId =
      registry.nameAfter [claim] userId := by
  rw [setInMemory, get?_insert, nameAfter, lastClaim, lastWrite_singleton]
  simp only [eq_comm (a := userId)]
  split_ifs <;> rfl

lemma nameAfter_cons (claim : ClaimRecord) (claims : List ClaimRecord) (userId : UserId) :
    registry.nameAfter (claim :: claims) userId =
      (registry.setInMemory unicode claim.userId claim.name).nameAfter claims userId := by
  rw [nameAfter, nameAfter, get?_setInMemory, nameAfter, ← Option.or_assoc]
  simp only [lastClaim, lastWrite_cons, lastWrite_nil, Option.none_or]

/-- A name is available to its owner, and to everyone if no one has it. -/
lemma Inverse.isAvailable_iff (h : registry.Inverse unicode) :
    registry.isAvailable unicode name (some userId) = true ↔
      ∀ other otherName, registry.byUser.get? other = some otherName →
      fold unicode otherName = fold unicode name → other = userId := by
  rw [Registry.isAvailable_iff]
  constructor
  · intro howner other otherName hname hfold
    exact howner other ((h _ _).mpr ⟨otherName, hname, hfold⟩)
  · intro hnames owner howner
    obtain ⟨otherName, hname, hfold⟩ := (h _ _).mp howner
    exact hnames owner otherName hname hfold

variable {claims : List ClaimRecord}

lemma Claimable.cons (h : Claimable unicode registry (claim :: claims)) :
    (validate unicode claim.name).isOk = true ∧
      (∀ userId name, registry.byUser.get? userId = some name →
        fold unicode name = fold unicode claim.name → userId = claim.userId) ∧
      Claimable unicode (registry.setInMemory unicode claim.userId claim.name) claims := by
  obtain ⟨hvalid, hfirst⟩ := h [] claim claims rfl
  refine ⟨hvalid, hfirst, ?_⟩
  rintro before next after rfl
  obtain ⟨hvalid, hnext⟩ := h (claim :: before) next after rfl
  refine ⟨hvalid, fun userId name hname => hnext userId name ?_⟩
  rw [nameAfter_cons]
  exact hname

/-- The claims succeed if each can be made at its turn. -/
lemma Claimable.foldlM (h : registry.Inverse unicode)
      (hclaims : Claimable unicode registry claims) :
    ∃ registry', claims.foldlM (claimRecord unicode) registry = .ok registry' := by
  induction claims generalizing registry with
  | nil => exact ⟨registry, rfl⟩
  | cons claim rest ih =>
    obtain ⟨hvalid, hfree, hrest⟩ := hclaims.cons
    have havailable := h.isAvailable_iff.mpr hfree
    obtain ⟨registry', hok⟩ := ih (h.setInMemory havailable) hrest
    refine ⟨registry', ?_⟩
    have hclaim : claimRecord unicode registry claim =
        .ok (registry.setInMemory unicode claim.userId claim.name) :=
      claimInMemory_eq_ok.mpr ⟨hvalid, havailable, rfl⟩
    rw [foldlM_cons, hclaim]
    exact hok

/-- What claims that succeed lead to. -/
lemma foldlM_claimRecord (h : registry.Inverse unicode)
      (hok : claims.foldlM (claimRecord unicode) registry = .ok registry') :
    registry'.Inverse unicode ∧ ∀ userId, registry'.byUser.get? userId =
      registry.nameAfter claims userId := by
  induction claims generalizing registry with
  | nil =>
    cases hok
    exact ⟨h, fun userId => rfl⟩
  | cons claim rest ih =>
    rw [foldlM_cons, bind_eq_ok] at hok
    obtain ⟨middle, hclaim, hrest⟩ := hok
    obtain ⟨-, havailable, rfl⟩ := claimInMemory_eq_ok.mp hclaim
    obtain ⟨hinverse, hnames⟩ := ih (h.setInMemory havailable) hrest
    refine ⟨hinverse, fun userId => ?_⟩
    rw [hnames userId, nameAfter_cons]

/-- Claims that fail do so at one of them, and a valid name is refused for another user who has
it by then. -/
lemma foldlM_claimRecord_error {error : String} (h : registry.Inverse unicode)
    (herror : claims.foldlM (claimRecord unicode) registry = .error error) :
    ∃ before claim after, claims = before ++ claim :: after ∧
      ((validate unicode claim.name).isOk = true →
        error = "username registry contains duplicate username '" ++ text claim.name ++ "'" ∧
        ∃ userId name, registry.nameAfter before userId = some name ∧
          fold unicode name = fold unicode claim.name ∧ userId ≠ claim.userId) := by
  induction claims generalizing registry with
  | nil => cases herror
  | cons claim rest ih =>
    rw [foldlM_cons] at herror
    cases hclaim : claimRecord unicode registry claim with
    | ok middle =>
      rw [hclaim] at herror
      obtain ⟨-, havailable, rfl⟩ := claimInMemory_eq_ok.mp hclaim
      obtain ⟨before, other, after, rfl, hother⟩ := ih (h.setInMemory havailable) herror
      refine ⟨claim :: before, other, after, rfl, fun hvalid => ?_⟩
      obtain ⟨htext, userId, name, hname, hblocked⟩ := hother hvalid
      rw [← nameAfter_cons] at hname
      exact ⟨htext, userId, name, hname, hblocked⟩
    | error refused =>
      rw [hclaim] at herror
      cases herror
      refine ⟨[], claim, rest, rfl, fun hvalid => ?_⟩
      have htaken : ¬ registry.isAvailable unicode claim.name (some claim.userId) = true := by
        intro havailable
        rw [claimRecord, claimInMemory_eq_ok.mpr ⟨hvalid, havailable, rfl⟩] at hclaim
        cases hclaim
      refine ⟨?_, ?_⟩
      · rw [claimRecord, claimInMemory, hvalid, Bool.eq_false_iff.mpr htaken] at hclaim
        cases hclaim
        rfl
      · rw [h.isAvailable_iff] at htaken
        push Not at htaken
        obtain ⟨userId, name, hname, hfold, hne⟩ := htaken
        exact ⟨userId, name, hname, hfold, hne⟩

end Registry

/-! ## Opening -/

section

variable {registry : Registry} {configured : OrdMap UserId Name} {claims : List ClaimRecord}

lemma mem_records {users : OrdMap UserId Name} :
    claim ∈ Registry.records users ↔ users.get? claim.userId = some claim.name := by
  rw [Registry.records, List.mem_map, ← mem_entries]
  constructor
  · rintro ⟨entry, hentry, rfl⟩
    exact hentry
  · intro hentry
    exact ⟨_, hentry, rfl⟩

lemma lastClaim_records (users : OrdMap UserId Name) (userId : UserId) :
    lastClaim (Registry.records users) userId = users.get? userId := by
  cases hname : users.get? userId with
  | none =>
    rw [lastClaim, lastWrite_eq_none]
    rintro claim hclaim rfl
    rw [mem_records, hname] at hclaim
    cases hclaim
  | some name =>
    have hnodup : ((Registry.records users).map ClaimRecord.userId).Nodup := by
      rw [Registry.records, List.map_map]
      exact users.nodup_keys
    have hmem : (⟨userId, name⟩ : ClaimRecord) ∈ Registry.records users := mem_records.mpr hname
    exact lastWrite_of_nodup ClaimRecord.name hnodup hmem

lemma exists_of_lastClaim (h : lastClaim claims userId = some name) :
    (⟨userId, name⟩ : ClaimRecord) ∈ claims := by
  obtain ⟨claim, hmem, rfl, rfl⟩ := lastWrite_eq_some h
  exact hmem

lemma Registry.Holds.unique {registry' : Registry} (h : registry.Holds unicode configured claims)
    (h' : registry'.Holds unicode configured claims) : registry = registry' := by
  have hbyUser : registry.byUser = registry'.byUser := by
    apply ext_get?
    intro userId
    rw [h.names, h'.names]
  have hbyFolded : registry.byFolded = registry'.byFolded := by
    apply ext_get?
    intro key
    apply Option.ext
    intro userId
    rw [h.inverse, h'.inverse, hbyUser]
  cases registry
  cases registry'
  simp_all

/-- What was written by dynamic users, each at its turn a name that no other dynamic user has. -/
structure ClaimsOk (unicode : Unicode) (claims : List ClaimRecord) : Prop where
  dynamic : ∀ claim ∈ claims, firstDynamicUserId ≤ claim.userId
  records : ∀ claim ∈ claims, RecordOk claim
  claimable : Registry.Claimable unicode Registry.empty claims

lemma nameAfter_empty (claims : List ClaimRecord) (userId : UserId) :
    Registry.empty.nameAfter claims userId = lastClaim claims userId := by
  rw [Registry.nameAfter, Registry.empty, get?_empty, or_none]

lemma get?_of_records_eq {names : OrdMap UserId Name} {before after : List ClaimRecord}
      (h : Registry.records names = before ++ claim :: after) :
    ∀ other ∈ before ++ claim :: after, names.get? other.userId = some other.name :=
  h ▸ fun _ => mem_records.mp

lemma seedExplicit_ok (h : UsersOk unicode configured) :
    ∃ registry, Registry.empty.seedExplicit unicode configured = .ok registry ∧
    registry.Holds unicode configured [] := by
  have hclaimable : Registry.Claimable unicode Registry.empty (Registry.records configured) := by
    intro before claim after hsplit
    have hmem := get?_of_records_eq hsplit
    have hclaim := hmem claim (by simp)
    refine ⟨h.valid _ _ hclaim, fun userId name hname hfold => ?_⟩
    rw [nameAfter_empty] at hname
    have hother := hmem ⟨userId, name⟩ (mem_append_left _ (exists_of_lastClaim hname))
    exact h.unique userId name claim.userId claim.name hother hclaim hfold
  obtain ⟨registry, hok⟩ := hclaimable.foldlM Registry.inverse_empty
  obtain ⟨hinverse, hnames⟩ := Registry.foldlM_claimRecord Registry.inverse_empty hok
  refine ⟨registry, hok, hinverse, fun userId => ?_⟩
  rw [hnames, nameAfter_empty, lastClaim_records]
  rfl

lemma foldlM_replayRecord {path : String} {registry' : Registry}
      (hdynamic : ∀ claim ∈ claims, firstDynamicUserId ≤ claim.userId)
    (h : claims.foldlM (Registry.claimRecord unicode) registry = .ok registry') :
    claims.foldlM (Registry.replayRecord unicode path) registry = .ok registry' := by
  induction claims generalizing registry with
  | nil => exact h
  | cons claim rest ih =>
    rw [foldlM_cons, bind_eq_ok] at h ⊢
    obtain ⟨middle, hclaim, hrest⟩ := h
    refine ⟨middle, ?_, ih (fun c hc => hdynamic c (mem_cons_of_mem _ hc)) hrest⟩
    rw [Registry.replayRecord, if_neg (not_lt.mpr (hdynamic claim mem_cons_self)), hclaim]
    rfl

lemma length_le_flatMap_encodeRecord (claims : List ClaimRecord) :
    claims.length ≤ (claims.flatMap encodeRecord).length := by
  induction claims with
  | nil => exact le_refl 0
  | cons claim rest ih =>
    rw [length_cons, flatMap_cons, length_append, length_encodeRecord]
    omega

/-- The claims of the log are merged into the names of the configured users. -/
lemma openRegistry_eq (husers : UsersOk unicode configured) (hclaims : ClaimsOk unicode claims)
      (htail : readRecord tail = none) :
    ∃ seeded dynamic :
    Registry, seeded.Holds unicode configured [] ∧ dynamic.Inverse unicode ∧
    (∀ userId, dynamic.byUser.get? userId = lastClaim claims userId) ∧
      (∀ registry, (Registry.records dynamic.byUser).foldlM (Registry.claimRecord unicode) seeded =
        .ok registry → registry.Holds unicode configured claims) ∧
      Registry.openRegistry unicode path configured (claims.flatMap encodeRecord ++ tail) =
        ((Registry.records dynamic.byUser).foldlM (Registry.claimRecord unicode) seeded).mapError
          fun error => path ++ ": " ++ error := by
  obtain ⟨seeded, hseed, hholds⟩ := seedExplicit_ok husers
  obtain ⟨dynamic, hdynamic⟩ := hclaims.claimable.foldlM Registry.inverse_empty
  obtain ⟨hinverse, hnames⟩ := Registry.foldlM_claimRecord Registry.inverse_empty hdynamic
  simp only [nameAfter_empty] at hnames
  refine ⟨seeded, dynamic, hholds, hinverse, hnames, ?_, ?_⟩
  · intro registry hmerge
    obtain ⟨hregistry, hfinal⟩ := Registry.foldlM_claimRecord hholds.inverse hmerge
    refine ⟨hregistry, fun userId => ?_⟩
    rw [hfinal, Registry.nameAfter, lastClaim_records, hnames, hholds.names]
    rfl
  have hfuel : claims.length ≤ (claims.flatMap encodeRecord ++ tail).length := by
    rw [length_append]
    exact Nat.le_add_right_of_le (length_le_flatMap_encodeRecord claims)
  have hread := @ReadsBack.foldRecords _ _ _ _ _ _ (Registry.replayRecord unicode path)
    readsBack_record claims hclaims.records tail htail _ hfuel Registry.empty
  rw [foldlM_replayRecord hclaims.dynamic hdynamic] at hread
  simp only [Registry.openRegistry, hseed, Registry.replayLog, hread]
  rfl

lemma ClaimsOk.valid (h : ClaimsOk unicode claims) (hmem : claim ∈ claims) :
    (validate unicode claim.name).isOk = true := by
  obtain ⟨before, after, hsplit⟩ := append_of_mem hmem
  exact (h.claimable before claim after hsplit).1

/-- Configured users make no claims. -/
lemma ClaimsOk.lastClaim_explicit (h : ClaimsOk unicode claims)
    (hexplicit : userId < firstDynamicUserId) : lastClaim claims userId = none := by
  rw [lastClaim, lastWrite_eq_none]
  rintro claim hmem rfl
  exact absurd hexplicit (not_lt.mpr (h.dynamic claim hmem))

/-- The names in a registry do not clash. -/
lemma Registry.Holds.not_clash (h : registry.Holds unicode configured claims)
      (husers : UsersOk unicode configured)
    (hclaims : ClaimsOk unicode claims) : ¬ Clash unicode configured claims := by
  rintro ⟨name', userId, name, userId', hname, hname', hfold⟩
  have hexplicit := hclaims.lastClaim_explicit (husers.explicit userId name hname)
  have howner : registry.byFolded.get? (fold unicode name) = some userId := by
    apply (h.inverse _ _).mpr
    refine ⟨name, ?_, rfl⟩
    rw [h.names, hexplicit, hname]
    rfl
  have howner' : registry.byFolded.get? (fold unicode name) = some userId' := by
    apply (h.inverse _ _).mpr
    refine ⟨name', ?_, hfold.symm⟩
    rw [h.names, hname']
    rfl
  have hsame : userId = userId' := some.inj (howner.symm.trans howner')
  rw [← hsame, hexplicit] at hname'
  cases hname'

/-- While the names of dynamic users are merged, only a configured user can stand in the way of
the next. -/
lemma configured_of_merged {seeded dynamic : Registry} {before after : List ClaimRecord}
    (hseeded : seeded.Holds unicode configured []) (hinverse : dynamic.Inverse unicode)
    (hsplit : Registry.records dynamic.byUser = before ++ claim :: after)
    (hname : seeded.nameAfter before userId = some name)
    (hfold : fold unicode name = fold unicode claim.name) (hne : userId ≠ claim.userId) :
    configured.get? userId = some name := by
  have hmem := get?_of_records_eq hsplit
  rcases or_eq_some_iff.mp hname with hbefore | ⟨-, hseed⟩
  · -- the names of dynamic users are different from each other
    have hother := hmem ⟨userId, name⟩ (mem_append_left _ (exists_of_lastClaim hbefore))
    have howner := (hinverse _ _).mpr ⟨name, hother, hfold⟩
    have howner' := (hinverse _ _).mpr ⟨claim.name, hmem claim (by simp), rfl⟩
    exact absurd (some.inj (howner.symm.trans howner')) hne
  · rw [hseeded.names] at hseed
    exact hseed

/-- The log opens to the state after its claims. -/
lemma openRegistry_ok (husers : UsersOk unicode configured) (hclaims : ClaimsOk unicode claims)
    (htail : readRecord tail = none) (hclash : ¬ Clash unicode configured claims) :
    ∃ registry, Registry.openRegistry unicode path configured
      (claims.flatMap encodeRecord ++ tail) = .ok registry ∧
    registry.Holds unicode configured claims := by
  obtain ⟨seeded, dynamic, hseeded, hinverse, hnames, hmerged, hopen⟩ :=
    openRegistry_eq path husers hclaims htail
  have hclaimable : Registry.Claimable unicode seeded (Registry.records dynamic.byUser) := by
    intro before claim after hsplit
    have hlast := get?_of_records_eq hsplit claim (by simp)
    rw [hnames] at hlast
    refine ⟨hclaims.valid (exists_of_lastClaim hlast), fun userId name hname hfold => ?_⟩
    by_contra hne
    have hseed := configured_of_merged hseeded hinverse hsplit hname hfold hne
    exact hclash ⟨claim.name, userId, name, claim.userId, hseed, hlast, hfold⟩
  obtain ⟨registry, hok⟩ := hclaimable.foldlM hseeded.inverse
  refine ⟨registry, ?_, hmerged registry hok⟩
  rw [hopen, hok]
  rfl

/-- A configured user whose name the claims have left to a dynamic user stops the server. -/
lemma openRegistry_clash (husers : UsersOk unicode configured) (hclaims : ClaimsOk unicode claims)
      (htail : readRecord tail = none)
    (hclash : Clash unicode configured claims) :
    ∃ name, Clashing unicode configured claims name ∧
      Registry.openRegistry unicode path configured (claims.flatMap encodeRecord ++ tail) =
        .error (path ++ ": " ++
          ("username registry contains duplicate username '" ++ Registry.text name ++ "'")) := by
  obtain ⟨seeded, dynamic, hseeded, hinverse, hnames, hmerged, hopen⟩ :=
    openRegistry_eq path husers hclaims htail
  cases hmerge : (Registry.records dynamic.byUser).foldlM (Registry.claimRecord unicode) seeded with
  | error error =>
    obtain ⟨before, claim, after, hsplit, hrefused⟩ :=
      Registry.foldlM_claimRecord_error hseeded.inverse hmerge
    have hlast := get?_of_records_eq hsplit claim (by simp)
    rw [hnames] at hlast
    obtain ⟨rfl, userId, name, hname, hfold, hne⟩ :=
      hrefused (hclaims.valid (exists_of_lastClaim hlast))
    have hseed := configured_of_merged hseeded hinverse hsplit hname hfold hne
    refine ⟨claim.name, ⟨userId, name, claim.userId, hseed, hlast, hfold⟩, ?_⟩
    rw [hopen, hmerge]
    rfl
  | ok registry => exact absurd hclash ((hmerged registry hmerge).not_clash husers hclaims)

lemma ClaimsOk.isPrefix {claims' : List ClaimRecord} (h : ClaimsOk unicode claims)
    (hstart : claims' <+: claims) : ClaimsOk unicode claims' := by
  obtain ⟨rest, rfl⟩ := hstart
  refine ⟨fun claim hmem => h.dynamic claim (mem_append_left _ hmem), fun claim hmem =>
    h.records claim (mem_append_left _ hmem), ?_⟩
  rintro before claim after rfl
  apply h.claimable before claim (after ++ rest)
  rw [append_assoc]
  rfl

/-- A configured user takes a name. -/
lemma UsersOk.insert (h : UsersOk unicode configured) (hexplicit : userId < firstDynamicUserId)
      (hvalid : (validate unicode name).isOk = true)
    (hfree : ∀ other otherName, configured.get? other = some otherName →
      fold unicode otherName = fold unicode name → other = userId) :
      UsersOk unicode (configured.insert userId name) := by
  constructor
  case explicit =>
    intro other otherName hother
    rw [get?_insert] at hother
    split_ifs at hother with hsame
    · rw [hsame]
      exact hexplicit
    · exact h.explicit other otherName hother
  case valid =>
    intro other otherName hother
    rw [get?_insert] at hother
    split_ifs at hother with hsame
    · cases hother
      exact hvalid
    · exact h.valid other otherName hother
  case unique =>
    intro a nameA b nameB ha hb hfold
    rw [get?_insert] at ha hb
    split_ifs at ha hb with hA hB hB
    · exact hA.trans hB.symm
    · cases ha
      exact hA.trans (hfree b nameB hb hfold.symm).symm
    · cases hb
      exact (hfree a nameA ha hfold).trans hB.symm
    · exact h.unique a nameA b nameB ha hb hfold

/-- A user takes a name, and it is the last one of the claims. -/
lemma Registry.Holds.claimed (h : registry.Holds unicode configured claims)
      (havailable : registry.isAvailable unicode claim.name (some claim.userId) = true) :
    (registry.setInMemory unicode claim.userId claim.name).Holds unicode configured
      (claims ++ [claim]) := by
  refine ⟨h.inverse.setInMemory havailable, fun userId => ?_⟩
  rw [Registry.get?_setInMemory, Registry.nameAfter, h.names, ← Option.or_assoc]
  simp only [lastClaim, lastWrite_append]

lemma Registry.Claimable.concat (h : Registry.Claimable unicode registry claims)
      (hvalid : (validate unicode claim.name).isOk = true)
    (hfree : ∀ userId name, registry.nameAfter claims userId = some name →
      fold unicode name = fold unicode claim.name → userId = claim.userId) :
    Registry.Claimable unicode registry (claims ++ [claim]) := by
  intro before next after hsplit
  rcases eq_nil_or_concat after with rfl | ⟨after', last, rfl⟩
  · obtain ⟨rfl, hlast⟩ := append_inj' hsplit rfl
    obtain rfl := singleton_inj.mp hlast
    exact ⟨hvalid, hfree⟩
  · rw [concat_eq_append, ← cons_append, ← append_assoc] at hsplit
    exact h before next after' (append_inj' hsplit rfl).1

end

/-! ## Runs -/

/-- A claim that has passed the checks of the registry. -/
structure Checked (unicode : Unicode) (registry : Registry) (claim : ClaimRecord) : Prop where
  dynamic : firstDynamicUserId ≤ claim.userId
  bound : claim.userId < 2 ^ 64
  valid : (validate unicode claim.name).isOk = true
  trimmed : trim claim.name = claim.name
  available : registry.isAvailable unicode claim.name (some claim.userId) = true

structure NameInv (unicode : Unicode) (s : NameServer) : Prop where
  users : UsersOk unicode s.configured
  claims : ClaimsOk unicode s.claims
  log : s.log = s.claims.flatMap encodeRecord
  inverse : s.registry.Inverse unicode
  pending : ∀ claim, s.pending = some claim → Checked unicode s.registry claim
  holds : (s.settled unicode).Holds unicode s.configured s.claims

section

variable {s : NameServer} {registry : Registry}

lemma checkDynamicClaim_eq_ok {name' : Name} :
    registry.checkDynamicClaim unicode userId name = .ok name' ↔ firstDynamicUserId ≤ userId ∧
    (validate unicode name).isOk = true ∧
      registry.isAvailable unicode (trim name) (some userId) = true ∧ name' = trim name := by
  rw [Registry.checkDynamicClaim, error_else_eq_ok, not_lt]
  cases hvalid : validate unicode name with
  | error error => simp [Except.isOk, Except.toBool]
  | ok _ =>
    simp only [error_else_eq_ok, Bool.not_eq_false, Except.ok.injEq]
    constructor
    · rintro ⟨hdynamic, havailable, rfl⟩
      exact ⟨hdynamic, rfl, havailable, rfl⟩
    · rintro ⟨hdynamic, -, havailable, rfl⟩
      exact ⟨hdynamic, havailable, rfl⟩

/-- A checked claim passes the checks again. -/
lemma Checked.applyDynamicClaim (h : Checked unicode registry claim) :
    registry.applyDynamicClaim unicode claim.userId claim.name =
      .ok (registry.setInMemory unicode claim.userId claim.name) := by
  have hcheck : registry.checkDynamicClaim unicode claim.userId claim.name = .ok claim.name := by
    rw [checkDynamicClaim_eq_ok, h.trimmed]
    exact ⟨h.dynamic, h.valid, h.available, rfl⟩
  rw [Registry.applyDynamicClaim, hcheck]
  rfl

lemma Checked.recordOk (h : Checked unicode registry claim) : RecordOk claim := by
  have hlength := length_le_of_validate h.valid
  rw [h.trimmed] at hlength
  exact ⟨h.bound, hlength.trans (by decide)⟩

lemma NameInv.holds_idle (h : NameInv unicode s) (hidle : s.pending = none) :
    s.registry.Holds unicode s.configured s.claims := by
  have hholds := h.holds
  rwa [NameServer.settled, hidle] at hholds

/-- A checked claim can be added to the log. -/
lemma NameInv.claimsOk (h : NameInv unicode s) (hidle : s.pending = none)
    (hclaim : Checked unicode s.registry claim) : ClaimsOk unicode (s.claims ++ [claim]) := by
  have hholds := h.holds_idle hidle
  constructor
  case dynamic =>
    exact forall_mem_append.mpr ⟨h.claims.dynamic, forall_mem_singleton.mpr hclaim.dynamic⟩
  case records =>
    exact forall_mem_append.mpr ⟨h.claims.records, forall_mem_singleton.mpr hclaim.recordOk⟩
  case claimable =>
    apply h.claims.claimable.concat hclaim.valid
    intro userId name hname hfold
    rw [nameAfter_empty] at hname
    apply h.inverse.isAvailable_iff.mp hclaim.available userId name _ hfold
    rw [hholds.names, hname]
    rfl

lemma NameInv.setExplicit (h : NameInv unicode s) (hidle : s.pending = none)
      (hexplicit : userId < firstDynamicUserId)
    (name : Name) : NameInv unicode (s.setExplicit unicode userId name) := by
  unfold NameServer.setExplicit
  split_ifs with hchecks
  · obtain ⟨hvalid, havailable⟩ := hchecks
    have hholds := h.holds_idle hidle
    have hinverse := h.inverse.setInMemory havailable
    have hfree : ∀ other otherName, s.configured.get? other = some otherName →
        fold unicode otherName = fold unicode (trim name) → other = userId := by
      intro other otherName hother hfold
      apply h.inverse.isAvailable_iff.mp havailable other otherName _ hfold
      rw [hholds.names, h.claims.lastClaim_explicit (h.users.explicit other otherName hother),
        hother]
      rfl
    constructor
    case users => exact h.users.insert hexplicit ((validate_trim name).symm ▸ hvalid) hfree
    case claims => exact h.claims
    case log => exact h.log
    case inverse => exact hinverse
    case pending =>
      rw [hidle]
      exact nofun
    case holds =>
      simp only [NameServer.settled, hidle]
      refine ⟨hinverse, fun other => ?_⟩
      rw [Registry.setExplicit, Registry.setInMemory, get?_insert, get?_insert]
      split_ifs with hsame
      · rw [hsame, h.claims.lastClaim_explicit hexplicit]
        rfl
      · exact hholds.names other
  · exact h

/-- A checked claim is written, and is in memory at once or will be. -/
lemma NameInv.write (h : NameInv unicode s) (hidle : s.pending = none)
      (hclaim : Checked unicode s.registry claim) {pending : Option ClaimRecord}
    (hnew : (registry = s.registry.setInMemory unicode claim.userId claim.name ∧ pending = none) ∨
      (registry = s.registry ∧ pending = some claim)) : NameInv unicode { s with
      registry, pending
      log := s.log ++ encodeRecord claim
      claims := s.claims ++ [claim] } := by
  have hholds := h.holds_idle hidle
  have hclaims := h.claimsOk hidle hclaim
  have hlog : s.log ++ encodeRecord claim = (s.claims ++ [claim]).flatMap encodeRecord := by
    rw [flatMap_append, ← h.log, flatMap_singleton]
  obtain ⟨rfl, rfl⟩ | ⟨rfl, rfl⟩ := hnew
  · exact ⟨h.users, hclaims, hlog, h.inverse.setInMemory hclaim.available, nofun,
      hholds.claimed hclaim.available⟩
  refine ⟨h.users, hclaims, hlog, h.inverse, ?_, hholds.claimed hclaim.available⟩
  intro other hother
  cases hother
  exact hclaim

lemma writeRecord_checked (h : Checked unicode registry claim) (log : Bytes) :
    writeRecord log claim = .ok (log ++ encodeRecord claim) := by
  rw [writeRecord, if_neg (not_lt.mpr h.recordOk.name)]

lemma encodeRecord_ne_nil (claim : ClaimRecord) : encodeRecord claim ≠ [] := by
  intro hnil
  have hlength := length_encodeRecord claim
  rw [hnil, length_nil] at hlength
  omega

lemma NameInv.claimDynamic (h : NameInv unicode s) (hidle : s.pending = none)
      (hbound : userId < 2 ^ 64) (name : Name) :
    NameInv unicode (s.claimDynamic unicode userId name) := by
  unfold NameServer.claimDynamic
  cases hcheck : s.registry.checkDynamicClaim unicode userId name with
  | error error =>
    simp only [Registry.claimDynamic, hcheck]
    exact h
  | ok trimmed =>
    obtain ⟨hdynamic, hvalid, havailable, rfl⟩ := checkDynamicClaim_eq_ok.mp hcheck
    have hclaim : Checked unicode s.registry ⟨userId, trim name⟩ :=
      ⟨hdynamic, hbound, (validate_trim name).symm ▸ hvalid, trim_trim name, havailable⟩
    by_cases hsame : s.registry.byUser.get? userId = some (trim name)
    · have hclaimed : s.registry.claimDynamic unicode s.log userId name = .ok (s.registry, s.log) :=
        by
        simp only [Registry.claimDynamic, hcheck, bind, Except.bind, if_pos hsame]
        rfl
      simp only [hclaimed, if_true]
      exact h
    · have hclaimed : s.registry.claimDynamic unicode s.log userId name =
          .ok (s.registry.setInMemory unicode userId (trim name),
          s.log ++ encodeRecord ⟨userId, trim name⟩) := by
        have happly := hclaim.applyDynamicClaim
        simp only [Registry.claimDynamic, hcheck, bind, Except.bind, if_neg hsame,
          writeRecord_checked hclaim, Except.mapError, happly]
        rfl
      simp only [hclaimed, append_right_eq_self, encodeRecord_ne_nil, if_false]
      exact h.write hidle hclaim (.inl ⟨rfl, hidle⟩)

lemma NameInv.persist (h : NameInv unicode s) (hidle : s.pending = none)
    (hbound : userId < 2 ^ 64) (name : Name) : NameInv unicode (s.persist unicode userId name) := by
  unfold NameServer.persist
  split_ifs with hchecks
  · obtain ⟨hvalid, havailable, -⟩ := hchecks
    by_cases hdynamic : userId < firstDynamicUserId
    · simp only [persistDynamicClaim, if_pos hdynamic]
      exact h
    have hclaim : Checked unicode s.registry ⟨userId, trim name⟩ :=
      ⟨not_lt.mp hdynamic, hbound, (validate_trim name).symm ▸ hvalid, trim_trim name, havailable⟩
    simp only [persistDynamicClaim, if_neg hdynamic, writeRecord_checked hclaim, Except.mapError]
    exact h.write hidle hclaim (.inr ⟨rfl, rfl⟩)
  · exact h

lemma NameInv.apply (h : NameInv unicode s) (hpending : s.pending = some claim) :
    NameInv unicode (s.apply unicode claim) := by
  have hclaim := h.pending claim hpending
  have hholds := h.holds
  rw [NameServer.settled, hpending] at hholds
  simp only [NameServer.apply, hclaim.applyDynamicClaim]
  exact { h with inverse := h.inverse.setInMemory hclaim.available, pending := nofun,
                 holds := hholds }

lemma NameInv.next {action : NameAction} {s' : NameServer} (h : NameInv unicode s)
    (hok : action.Ok) (hnext : s.next unicode action = some s') : NameInv unicode s' := by
  cases action <;> simp only [NameServer.next] at hnext
  case apply =>
    obtain ⟨claim, hpending, rfl⟩ := map_eq_some_iff.mp hnext
    exact h.apply hpending
  all_goals
    split_ifs at hnext with hidle
    cases hnext
  · exact h.setExplicit hidle hok _
  · exact h.claimDynamic hidle hok _
  · exact h.persist hidle hok _

lemma NameInv.of_started {path : String} (h : s.Started unicode path) : NameInv unicode s := by
  obtain ⟨husers, hopen, hlog, hpending, hclaims⟩ := h
  have hnone : ClaimsOk unicode [] := by
    refine ⟨by simp, by simp, ?_⟩
    intro before claim after hsplit
    simp at hsplit
  obtain ⟨registry, hregistry, hholds⟩ := openRegistry_ok path husers hnone
    (readsBack_record.nothing) (by rintro ⟨_, _, _, _, -, hlast, -⟩; cases hlast)
  obtain rfl := Except.ok.inj (hopen.symm.trans hregistry)
  refine ⟨husers, hclaims ▸ hnone, by rw [hlog, hclaims]; rfl, hholds.inverse, ?_, ?_⟩
  · intro claim hclaim
    exact absurd (hpending.symm.trans hclaim) (by simp)
  · rw [NameServer.settled, hpending, hclaims]
    exact hholds

end

/-- In every run the two maps are inverse to each other.  The log up to any byte opens to the
state after the claims that are complete in it, unless a configured user has since taken a name
that was given up later in the log; and with any torn record behind it the whole log opens to
the state it was written from. -/
theorem registry_follows_log (unicode : Unicode) (path : String) (start s : NameServer)
      (hstart : start.Started unicode path)
    (hrun : Reachable (NameServer.next unicode) (fun _ action => action.Ok) start s) :
    s.registry.Inverse unicode ∧
    (∀ n, ¬ Clash unicode s.configured (complete encodeRecord s.claims n) →
      ∃ registry, Registry.openRegistry unicode path s.configured (s.log.take n) = .ok registry ∧
        registry.Holds unicode s.configured (complete encodeRecord s.claims n)) ∧
    (∀ n, Clash unicode s.configured (complete encodeRecord s.claims n) →
      ∃ name, Clashing unicode s.configured (complete encodeRecord s.claims n) name ∧
        Registry.openRegistry unicode path s.configured (s.log.take n) =
          .error (path ++ ": " ++
            ("username registry contains duplicate username '" ++ Registry.text name ++ "'"))) ∧
    ∀ torn, readRecord torn = none →
    Registry.openRegistry unicode path s.configured (s.log ++ torn) = .ok (s.settled unicode) ∧
      (s.settled unicode).Holds unicode s.configured s.claims := by
  have h : NameInv unicode s := by
    apply hrun.invariant (NameInv.of_started hstart)
    intro x y action h hok hnext
    exact h.next hok hnext
  have hcomplete : ∀ n, ClaimsOk unicode (complete encodeRecord s.claims n) :=
    fun n => h.claims.isPrefix (complete_isPrefix s.claims n)
  refine ⟨h.inverse, ?_, ?_, ?_⟩
  · intro n hclash
    obtain ⟨tail, htake, htail⟩ := readsBack_record.take_flatMap h.claims.records n
    rw [h.log, htake]
    exact openRegistry_ok path h.users (hcomplete n) htail hclash
  · intro n hclash
    obtain ⟨tail, htake, htail⟩ := readsBack_record.take_flatMap h.claims.records n
    rw [h.log, htake]
    exact openRegistry_clash path h.users (hcomplete n) htail hclash
  · intro torn htorn
    obtain ⟨registry, hopen, hholds⟩ := openRegistry_ok path h.users h.claims htorn
      (h.holds.not_clash h.users h.claims)
    rw [h.log, hopen, hholds.unique h.holds]
    exact ⟨rfl, h.holds⟩

/-! ## A log that is cut -/

def sampleUnicode : Unicode where
  isControl := fun _ => false
  isWhitespace := fun ch => ch = ' '
  width := fun _ => some 1
  toLowercase := fun ch => if ch = 'A' then ['a'] else [ch]

def sampleNames : NameServer := ⟨OrdMap.empty, Registry.empty, [], none, []⟩

lemma sampleNames_started : sampleNames.Started sampleUnicode "usernames.log.bin" :=
  ⟨⟨nofun, nofun, nofun⟩, rfl, rfl, rfl, rfl⟩

/-- A dynamic user gives up the name `a` for `b`, and a configured user takes it. -/
def sampleActions : List NameAction :=
  [.claimDynamic 4294967296 [' ', 'A'], .persist 4294967296 ['b'], .apply, .setExplicit 1 ['a']]

lemma sampleNames_reachable :
    Reachable (NameServer.next sampleUnicode) (fun _ action => action.Ok) sampleNames
      (after (NameServer.next sampleUnicode) sampleNames sampleActions) := by
  apply reachable_after
  decide +kernel

/-- Cut after the first of its two records the log is not opened any more: the name is taken. -/
theorem cut_log_refused :
    let s := after (NameServer.next sampleUnicode) sampleNames sampleActions
    sampleNames.Started sampleUnicode "usernames.log.bin" ∧
    Reachable (NameServer.next sampleUnicode) (fun _ action => action.Ok) sampleNames s ∧
    complete encodeRecord s.claims 10 = [⟨4294967296, ['A']⟩] ∧
    Registry.openRegistry sampleUnicode "usernames.log.bin" s.configured (s.log.take 10) =
      .error "usernames.log.bin: username registry contains duplicate username 'A'" :=
  ⟨sampleNames_started, sampleNames_reachable, by decide +kernel, by decide +kernel⟩

theorem registry_follows_log_sample :
    let s := after (NameServer.next sampleUnicode) sampleNames sampleActions
    s.registry.ownerOf sampleUnicode ['A'] = some 1 ∧ s.registry.Inverse sampleUnicode ∧
    Registry.openRegistry sampleUnicode "usernames.log.bin" s.configured (s.log ++ [7, 7]) =
    .ok s.registry := by
  have h := registry_follows_log sampleUnicode "usernames.log.bin" sampleNames _
    sampleNames_started sampleNames_reachable
  exact ⟨by decide +kernel, h.1, (h.2.2.2 [7, 7] (by decide +kernel)).1⟩

end Chatt.Usernames
