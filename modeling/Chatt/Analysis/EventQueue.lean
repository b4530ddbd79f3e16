import Chatt.Model.EventQueue

/-!
# No event waits unheard

A queue with events is flagged, about to be flagged, or about to be drained; and while a flag is up
the
loop is awake or will be woken.  Every step keeps both, so they hold in every interleaving.  Once
the producers are done, each step of the loop drains an event or brings the next drain nearer, so
it delivers all of them.
-/

namespace Chatt.EventQueue

variable {Producer Event : Type} [DecidableEq Producer] {s : Queues Producer Event}

/-- If the loop polls, an event that waits is flagged with a wake pending, or some producer is
between
its append and its wake. -/
def Heard (s : Queues Producer Event) : Prop :=
  s.Polls → ∀ worker, s.pending worker ≠ [] →
    (.queue worker ∈ s.ready ∧ s.wakePending = true) ∨
      ∃ producer, s.caller (some producer) ≠ .done

/-- What every state satisfies. -/
structure Inv (s : Queues Producer Event) : Prop where
  flagged : ∀ worker, s.pending worker ≠ [] →
    .queue worker ∈ s.ready ∨ (∃ c, s.caller c = .fetchOr (.queue worker)) ∨
      .queue worker ∈ s.readyWorkers
  awake : s.ready ≠ ∅ → s.wakePending = true ∨ (∃ c, s.caller c = .wake) ∨ s.woken = true
  kept : ∀ worker, s.delivered worker ++ s.pending worker = s.appended worker

lemma EventFlag.mem_all (flag : EventFlag) : flag ∈ EventFlag.all := by
  rcases flag with _ | worker
  · decide
  · cases worker <;> decide

/-- The others stay where they are. -/
lemma exists_update {f : Option Producer → Signal} {c : Option Producer} {x : Signal} (y : Signal)
    (h : ∃ c', f c' = x) (hc : f c ≠ x) : ∃ c', Function.update f c y c' = x := by
  obtain ⟨c', rfl⟩ := h
  have hne : c' ≠ c := fun heq => hc (heq ▸ rfl)
  exact ⟨c', Function.update_of_ne hne ..⟩

/-! ## Steps -/

/-- A caller that was done goes on to signal. -/
lemma Inv.call (h : Inv s) {c : Option Producer} (hdone : s.caller c = .done) (y : Signal) :
    Inv { s with caller := Function.update s.caller c y } := by
  refine ⟨fun worker hworker => ?_, fun hready => ?_, h.kept⟩
  · exact (h.flagged worker hworker).imp_right (Or.imp_left (exists_update _ · (by simp [hdone])))
  · exact (h.awake hready).imp_right (Or.imp_left (exists_update _ · (by simp [hdone])))

lemma Inv.append (h : Inv s) {producer : Producer} (hdone : s.caller (some producer) = .done)
    (worker : Worker) (event : Event) :
    Inv { s with
      pending := Function.update s.pending worker (s.pending worker ++ [event])
      appended := Function.update s.appended worker (s.appended worker ++ [event])
      caller := Function.update s.caller (some producer) (.fetchOr (.queue worker)) } := by
  have hcalled := h.call hdone (.fetchOr (.queue worker))
  refine ⟨fun other hother => ?_, hcalled.awake, fun other => ?_⟩
  · by_cases heq : other = worker
    · exact .inr (.inl ⟨some producer, heq ▸ Function.update_self ..⟩)
    · exact hcalled.flagged other (by simpa [heq] using hother)
  · by_cases heq : other = worker
    · subst heq
      simp [← h.kept other]
    · simpa [heq] using h.kept other

lemma Inv.signal (h : Inv s) (c : Option Producer) : Inv (s.next (.signal c)) := by
  unfold Queues.next
  dsimp only
  split
  · next flag hflag =>
    refine ⟨fun worker hworker => ?_, fun _ => ?_, h.kept⟩
    · by_cases heq : EventFlag.queue worker = flag
      · exact .inl (heq ▸ Finset.mem_insert_self ..)
      have hne : s.caller c ≠ .fetchOr (.queue worker) := by
        rw [hflag, ne_eq, Signal.fetchOr.injEq]
        exact Ne.symm heq
      exact (h.flagged worker hworker).imp Finset.mem_insert_of_mem
        (Or.imp_left (exists_update _ · hne))
    · by_cases hready : s.ready = ∅
      · exact .inr (.inl ⟨c, by simp [hready]⟩)
      · exact (h.awake hready).imp_right (Or.imp_left (exists_update _ · (by simp [hflag])))
  · next hwake =>
    refine ⟨fun worker hworker => ?_, fun _ => .inl rfl, h.kept⟩
    exact (h.flagged worker hworker).imp_right
      (Or.imp_left (exists_update _ · (by simp [hwake])))
  · exact h

lemma Inv.drain (h : Inv s) {worker : Worker} {rest : List EventFlag} (limit : ℕ)
    (hdone : s.caller none = .done) (hworkers : s.readyWorkers = .queue worker :: rest) :
    Inv (s.next (.drainUpTo limit)) := by
  simp only [Queues.next, hdone, hworkers]
  have hcaller : ∀ x y, (∃ c, s.caller c = x) → x ≠ .done →
      ∃ c, Function.update s.caller none y c = x :=
    fun x y hx hne => exists_update y hx (hdone ▸ hne.symm)
  refine ⟨fun other hother => ?_, fun hready => ?_, fun other => ?_⟩
  · by_cases heq : other = worker
    · subst heq
      simp only [Function.update_self] at hother
      exact .inr (.inl ⟨none, by simp [hother]⟩)
    · have hold := h.flagged other (by simpa [heq] using hother)
      rw [hworkers, List.mem_cons, EventFlag.queue.injEq, or_iff_right heq] at hold
      exact hold.imp_right (Or.imp_left (hcaller _ _ · nofun))
  · exact (h.awake hready).imp_right (Or.imp_left (hcaller _ _ · nofun))
  · by_cases heq : other = worker
    · subst heq
      simp [← h.kept other]
    · simpa [heq] using h.kept other

lemma Inv.next (h : Inv s) (a : Action Producer Event) : Inv (s.next a) := by
  cases a with
  | append producer worker event =>
    unfold Queues.next
    dsimp only
    split_ifs with hdone
    · exact h.append hdone worker event
    · exact h
  | submitVoice producer =>
    unfold Queues.next
    dsimp only
    split_ifs with hdone
    · exact h.call hdone _
    · exact h
  | signal caller => exact h.signal caller
  | poll =>
    unfold Queues.next
    dsimp only
    split_ifs
    · exact ⟨h.flagged, fun _ => .inr (.inr rfl), h.kept⟩
    · exact h
  | takeReady =>
    unfold Queues.next
    dsimp only
    split_ifs
    · refine ⟨fun worker hworker => .inr ?_, fun hready => absurd rfl hready, h.kept⟩
      rcases h.flagged worker hworker with hready | hcaller | hmem
      · have htaken : EventFlag.queue worker ∈ EventFlag.all.filter (· ∈ s.ready) :=
          List.mem_filter.mpr ⟨EventFlag.mem_all _, decide_eq_true hready⟩
        exact .inr (List.mem_append_right _ htaken)
      · exact .inl hcaller
      · exact .inr (List.mem_append_left _ hmem)
    · exact h
  | drainUpTo limit =>
    cases hdone : s.caller none with
    | fetchOr flag => simpa [Queues.next, hdone] using h
    | wake => simpa [Queues.next, hdone] using h
    | done =>
      rcases hworkers : s.readyWorkers with _ | ⟨_ | worker, rest⟩
      · simpa [Queues.next, hdone, hworkers] using h
      · -- the voice flag has no queue
        simp only [Queues.next, hdone, hworkers]
        refine ⟨fun worker hworker => ?_, h.awake, h.kept⟩
        simpa [hworkers] using h.flagged worker hworker
      · exact h.drain limit hdone hworkers

omit [DecidableEq Producer] in
lemma Inv.heard (h : Inv s) : Heard s := by
  rintro ⟨hasleep, hworkers, hdone⟩ worker hpending
  have hproducer : ∀ x, (∃ c, s.caller c = x) → x ≠ .done →
      ∃ producer, s.caller (some producer) ≠ .done := by
    rintro x ⟨_ | producer, rfl⟩ hx
    · exact absurd hdone hx
    · exact ⟨producer, hx⟩
  rcases h.flagged worker hpending with hready | hcaller | hmem
  · rcases h.awake (Finset.ne_empty_of_mem hready) with hwake | hcaller | hwoken
    · exact .inl ⟨hready, hwake⟩
    · exact .inr (hproducer _ hcaller nofun)
    · cases hasleep.symm.trans hwoken
  · exact .inr (hproducer _ hcaller nofun)
  · rw [hworkers] at hmem
    cases hmem

/-! ## Progress -/

/-- No producer is between its append and its wake. -/
def ProducersDone (s : Queues Producer Event) : Prop :=
  ∀ producer, s.caller (some producer) = .done

/-- The events that wait. -/
def waiting (s : Queues Producer Event) : ℕ := ∑ worker, (s.pending worker).length

/-- What the loop has to do before its next drain that takes an event. -/
def ahead (s : Queues Producer Event) : ℕ :=
  s.ready.card + s.readyWorkers.length + (if s.woken then 1 else 0) +
    (if s.wakePending then 2 else 0) +
    match s.caller none with
    | .done => 0
    | .wake => 3
    | .fetchOr _ => 5

omit [DecidableEq Producer] in
lemma waiting_eq_zero : waiting s = 0 ↔ ∀ worker, s.pending worker = [] := by
  simp [waiting]

/-- A drain takes events, or the queue had none. -/
lemma drain_progress {worker : Worker} {rest : List EventFlag} {limit : ℕ} (hlimit : 0 < limit)
    (hdone : s.caller none = .done) (hworkers : s.readyWorkers = .queue worker :: rest) :
    waiting (s.next (.drainUpTo limit)) < waiting s ∨
      waiting (s.next (.drainUpTo limit)) = waiting s ∧
        ahead (s.next (.drainUpTo limit)) < ahead s := by
  by_cases hempty : s.pending worker = []
  · right
    simp [Queues.next, waiting, ahead, hdone, hworkers, hempty]
    refine Finset.sum_congr rfl fun other _ => ?_
    by_cases heq : other = worker
    · simp [heq, hempty]
    · simp [heq]
  · left
    simp only [Queues.next, waiting, hdone, hworkers]
    have hlength : 0 < (s.pending worker).length := List.length_pos_iff.mpr hempty
    refine Finset.sum_lt_sum (fun other _ => ?_) ⟨worker, Finset.mem_univ _, ?_⟩
    · by_cases heq : other = worker
      · simp [heq]
      · simp [heq]
    · simp only [Function.update_self, List.length_drop]
      omega

lemma card_filter_ready (ready : Finset EventFlag) :
    (EventFlag.all.filter (· ∈ ready)).length ≤ ready.card := by
  have hnodup : (EventFlag.all.filter (· ∈ ready)).Nodup :=
    List.Nodup.filter _ (by decide)
  rw [← List.toFinset_card_of_nodup hnodup]
  apply Finset.card_le_card
  intro flag hflag
  simpa using (List.mem_filter.mp (List.mem_toFinset.mp hflag)).2

/-- While an event waits, a step of the loop takes one or brings the next drain nearer. -/
lemma Inv.progress (h : Inv s) (hproducers : ProducersDone s) (hwaiting : waiting s ≠ 0) {limit : ℕ}
    (hlimit : 0 < limit) :
    waiting (s.next (s.loopAction limit)) < waiting s ∨
      waiting (s.next (s.loopAction limit)) = waiting s ∧
        ahead (s.next (s.loopAction limit)) < ahead s := by
  unfold Queues.loopAction
  cases hcaller : s.caller none with
  | fetchOr flag =>
    right
    have hcard := Finset.card_insert_le flag s.ready
    simp only [ne_eq, reduceCtorEq, not_false_eq_true, if_true, Queues.next, hcaller, waiting,
      ahead, Function.update_self, true_and]
    by_cases hready : s.ready = ∅ <;> simp only [hready, if_true, if_false] at hcard ⊢ <;> omega
  | wake =>
    right
    simp only [ne_eq, reduceCtorEq, not_false_eq_true, if_true, Queues.next, hcaller, waiting,
      ahead, Function.update_self, true_and]
    split_ifs <;> omega
  | done =>
    simp only [ne_eq, not_true_eq_false, if_false]
    split_ifs with hwoken hworkers
    · right
      have hcard := card_filter_ready s.ready
      simp only [Queues.next, hwoken, if_true, waiting, ahead, hcaller, Finset.card_empty,
        List.length_append, true_and]
      simp only [Bool.false_eq_true, if_false]
      omega
    · -- the loop polls, and has heard of what waits
      have hpolls : s.Polls := ⟨by simpa using hwoken, hworkers, hcaller⟩
      obtain ⟨worker, hworker⟩ : ∃ worker, s.pending worker ≠ [] := by
        by_contra hnone
        exact hwaiting (waiting_eq_zero.mpr (by simpa using hnone))
      have hwake : s.wakePending = true := by
        rcases h.heard hpolls worker hworker with ⟨-, hwake⟩ | ⟨producer, hbusy⟩
        · exact hwake
        · exact absurd (hproducers producer) hbusy
      right
      simp only [Queues.next, hpolls, hwake, and_self, if_true, waiting, ahead, hcaller, hpolls.1,
        true_and]
      simp
    · rcases hlist : s.readyWorkers with _ | ⟨_ | worker, rest⟩
      · exact absurd hlist hworkers
      · right
        simp only [Queues.next, hcaller, hlist, waiting, ahead, List.length_cons, true_and]
        omega
      · exact drain_progress hlimit hcaller hlist

/-- The loop's own steps append nothing, and leave the producers alone. -/
lemma loopAction_frame (limit : ℕ) :
    (s.next (s.loopAction limit)).appended = s.appended ∧
      (ProducersDone s → ProducersDone (s.next (s.loopAction limit))) := by
  unfold Queues.loopAction
  split_ifs with hcaller hwoken hworkers
  · unfold Queues.next
    dsimp only
    split <;> simp [ProducersDone]
  · simp [Queues.next, hwoken, ProducersDone]
  · unfold Queues.next
    dsimp only
    split_ifs <;> simp [ProducersDone]
  · unfold Queues.next
    dsimp only
    split <;> simp [ProducersDone]

/-- Once the producers are done, the loop delivers everything that was appended, in order: it needs
some number of steps, whatever positive limits the drains have. -/
lemma Inv.delivers (h : Inv s) (hproducers : ProducersDone s) (limits : ℕ → ℕ)
    (hlimits : ∀ i, 0 < limits i) :
    ∃ n, ∀ worker, (s.loopRun ((List.range n).map limits)).delivered worker =
      s.appended worker := by
  -- by induction on the events that wait, and on the steps before the next drain
  generalize hm : toLex (waiting s, ahead s) = m
  induction m using WellFoundedLT.induction generalizing s limits with
  | ind m ih =>
  subst hm
  by_cases hwaiting : waiting s = 0
  · refine ⟨0, fun worker => ?_⟩
    have hkept := h.kept worker
    rw [waiting_eq_zero.mp hwaiting worker, List.append_nil] at hkept
    exact hkept
  · obtain ⟨happended, hdone⟩ := loopAction_frame (s := s) (limits 0)
    let s' := s.next (s.loopAction (limits 0))
    have hless : toLex (waiting s', ahead s') < toLex (waiting s, ahead s) :=
      Prod.Lex.toLex_lt_toLex.mpr (h.progress hproducers hwaiting (hlimits 0))
    obtain ⟨n, hn⟩ := ih _ hless (h.next _) (hdone hproducers)
      (fun i => limits (i + 1)) (fun i => hlimits (i + 1)) rfl
    refine ⟨n + 1, fun worker => ?_⟩
    rw [List.range_succ_eq_map, List.map_cons, List.map_map, Queues.loopRun, ← happended]
    exact hn worker

/-- In every interleaving, from empty queues: no event waits unheard; the events delivered are
those appended, each once and in their order, except for the ones still waiting; and once the
producers are done the loop delivers the ones that wait as well. -/
theorem events_heard (actions : List (Action Producer Event)) :
    let s := actions.foldl Queues.next {}
    Heard s ∧ (∀ worker, s.delivered worker ++ s.pending worker = s.appended worker) ∧
    (ProducersDone s → ∀ limits : ℕ → ℕ, (∀ i, 0 < limits i) →
      ∃ n, ∀ worker,
        (s.loopRun ((List.range n).map limits)).delivered worker = s.appended worker) := by
  have inv : Inv (actions.foldl Queues.next ({} : Queues Producer Event)) := by
    induction actions using List.reverseRecOn with
    | nil => exact ⟨by simp, by simp, fun _ => rfl⟩
    | append_singleton actions a ih =>
      rw [List.foldl_concat]
      exact ih.next a
  exact ⟨inv.heard, inv.kept, inv.delivers⟩

/-- Two producers append to one queue, and a drain of one event leaves the other behind. -/
def sampleQueues : Queues (Fin 2) ℕ :=
  [Action.append 0 .mls 10, .append 1 .mls 11, .signal (some 0), .signal (some 1),
    .signal (some 0), .poll, .takeReady, .drainUpTo 1].foldl Queues.next {}

theorem events_heard_sample :
    sampleQueues.delivered .mls = [10] ∧ sampleQueues.pending .mls = [11] ∧
    ∃ n, (sampleQueues.loopRun ((List.range n).map fun _ => 1)).delivered .mls = [10, 11] := by
  have hdone : ProducersDone sampleQueues := by
    intro producer
    fin_cases producer <;> rfl
  obtain ⟨n, hn⟩ := (events_heard _).2.2 hdone (fun _ => 1) (fun _ => Nat.one_pos)
  exact ⟨by decide, by decide, n, hn .mls⟩

end Chatt.EventQueue
