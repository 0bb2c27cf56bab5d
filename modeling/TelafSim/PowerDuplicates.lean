import TelafSim.PowerRecord

/-!
# The duplicate filter of power requests

`_should_enqueue` predicts what the requests in the queue will leave recorded for a target: the
state of the last request that resolves to it. ALL_MACHINES resolves to the registered machines and
overwrites every entry of `_machines_state`, so that the prediction can be wrong for a machine that
is not registered and has an entry, or will have one by then.
-/

namespace TelafSim.Power

namespace PowerSubsystem

def duplicateReason : String := "duplicate of already-queued/current state for this target"

/-- The request is answered as a duplicate and nothing else happens. -/
def RejectedAsDuplicate (s : PowerSubsystem) (state : PowerState)
    (machineName corrId src : String) : Prop :=
  s.handleSetState state machineName corrId src =
    s.reject ⟨machineName, state, corrId, src, s.received.length⟩ duplicateReason

def shuttingDown (s : PowerSubsystem) : Prop :=
  s.requestQueue.head?.map QueuedRequest.state = some .shutdown

instance (s : PowerSubsystem) : Decidable s.shuttingDown :=
  inferInstanceAs (Decidable (_ = _))

def isAnswer : PowerEvent → Bool
  | .slaveAck _ _ | .powerForceSlaveAck _ _ | .powerAckTimeout _ => true
  | _ => false

/-- The requests in the queue of `s` finish in order and the registry stays as it is. -/
def Drains (s t : PowerSubsystem) : Prop :=
  ∃ es : List PowerEvent, (∀ e ∈ es, isAnswer e = true) ∧
    es.foldl (fun s e => s.handle e) s = t ∧ t.requestQueue = []

def names (s : PowerSubsystem) (t : String) (r : QueuedRequest) : Bool :=
  r.machineName ≠ allMachines ∧ t ∈ s.resolveTargets r.machineName

def concerns (s : PowerSubsystem) (t : String) (r : QueuedRequest) : Bool :=
  r.machineName = allMachines ∨ s.names t r = true

/-- The state last asked for `t` by its name, the recorded one if there is no such request. -/
def ownState (s : PowerSubsystem) (t : String) : PowerState :=
  ((s.requestQueue.reverse.find? (s.names t)).map QueuedRequest.state).getD (s.recorded t)

/-- The last request in the queue that concerns `t`, when it is for all machines and will find an
entry of `t` to overwrite. -/
def overwriter (s : PowerSubsystem) (t : String) : Option QueuedRequest :=
  (s.requestQueue.reverse.find? (s.concerns t)).filter (fun r => r.machineName = allMachines ∧
    ((s.machinesState t).isSome ∨ s.requestQueue.any (s.names t)))

/-- No target outside the registry will be overwritten by a request for all machines that differs
from what was asked for it by name in being, or in not being, for `state`. -/
def Foreseen (s : PowerSubsystem) (state : PowerState) (machineName : String) : Prop :=
  ∀ t ∈ s.resolveTargets machineName, t ∉ s.registeredMachines → ∀ r ∈ s.overwriter t,
    (r.state = state ↔ s.ownState t = state)

instance (s : PowerSubsystem) (state : PowerState) (machineName : String) :
    Decidable (s.Foreseen state machineName) :=
  inferInstanceAs (Decidable (∀ t ∈ s.resolveTargets machineName, t ∉ s.registeredMachines →
    ∀ r ∈ s.overwriter t, (r.state = state ↔ s.ownState t = state)))

section Entries

variable {s s' : PowerSubsystem} {t : String}

def applyTo (s : PowerSubsystem) (t : String) (v : Option PowerState) (r : QueuedRequest) :
    Option PowerState :=
  if r.machineName = allMachines then v.map (fun _ => r.state)
  else if t ∈ s.resolveTargets r.machineName then some r.state else v

theorem applyStateUpdate_eq (s : PowerSubsystem) (t : String) (r : QueuedRequest) :
    s.applyStateUpdate r.machineName r.state t = s.applyTo t (s.machinesState t) r := by
  unfold applyStateUpdate applyTo
  split <;> rfl

theorem applyTo_congr (hl : s'.localMachineName = s.localMachineName) (t : String) :
    s'.applyTo t = s.applyTo t := by
  funext v r
  unfold applyTo
  split
  · rfl
  · rename_i hne
    rw [resolveTargets_congr hl hne]

/-- The entry of `t` once the requests in the queue have finished in order. -/
def finalEntry (s : PowerSubsystem) (t : String) : Option PowerState :=
  s.requestQueue.foldl (s.applyTo t) (s.machinesState t)

theorem finalEntry_congr (hl : s'.localMachineName = s.localMachineName)
    (hq : s'.requestQueue = s.requestQueue) (hm : s'.machinesState = s.machinesState)
    (t : String) : s'.finalEntry t = s.finalEntry t := by
  rw [finalEntry, hq, hm, applyTo_congr hl, finalEntry]

theorem closeRound_localMachineName (status : RoundStatus) (p : Pending) (s : PowerSubsystem) :
    (s.closeRound status p).localMachineName = s.localMachineName := by
  unfold closeRound
  dsimp only
  split <;> rfl

theorem finalEntry_closeRound (status : RoundStatus) {p : Pending} {rest : List QueuedRequest}
    (hq : s.requestQueue = p.request :: rest) (t : String) :
    (s.closeRound status p).finalEntry t = s.finalEntry t := by
  rw [finalEntry, closeRound_requestQueue, closeRound_machinesState, applyStateUpdate_eq,
    applyTo_congr (closeRound_localMachineName status p s), hq, finalEntry, hq]
  rfl

theorem finalEntry_processNextQueued (q : List QueuedRequest) (s : PowerSubsystem)
    (hq : s.requestQueue = q) (t : String) :
    (processNextQueued q s).finalEntry t = s.finalEntry t := by
  induction q generalizing s with
  | nil => rfl
  | cons r rest ih =>
    have hb : (s.beginRound r).2.requestQueue = r :: rest := hq
    unfold processNextQueued
    dsimp only
    split
    · rw [ih _ (by rw [closeRound_requestQueue, hb]; rfl), finalEntry_closeRound .complete hb]
      exact finalEntry_congr rfl rfl rfl t
    · exact finalEntry_congr rfl rfl rfl t

theorem finalEntry_finish (status : RoundStatus) {p : Pending}
    (hq : s.requestQueue.head? = some p.request) (t : String) :
    (s.finishSetStateRound status p).finalEntry t = s.finalEntry t := by
  have hcons := List.cons_head?_tail hq
  rw [finishSetStateRound, finalEntry_processNextQueued _ _ rfl,
    finalEntry_closeRound status hcons.symm]

theorem finalEntry_recordAck (hal : s.Aligned) (m : String) (r : Response) (t : String) :
    (s.recordAck m r).finalEntry t = s.finalEntry t := by
  unfold recordAck
  split
  · rfl
  · rename_i p hp
    split
    · rfl
    · dsimp only
      split
      · rw [finalEntry_finish]
        · exact finalEntry_congr rfl rfl rfl t
        · rw [Aligned, hp] at hal
          rw [Pending.answer_request]
          exact hal.symm
      · exact finalEntry_congr rfl rfl rfl t

theorem finalEntry_onAckTimeout (hal : s.Aligned) (uuid : ℕ) (t : String) :
    (s.onAckTimeout uuid).finalEntry t = s.finalEntry t := by
  unfold onAckTimeout
  split
  · rfl
  · rename_i p hp
    rw [finalEntry_finish]
    · exact finalEntry_congr rfl rfl rfl t
    · rw [Aligned, hp] at hal
      exact hal.symm

theorem finalEntry_handle {e : PowerEvent} (he : isAnswer e = true) (hal : s.Aligned) (t : String) :
    (s.handle e).finalEntry t = s.finalEntry t := by
  cases e with
  | slaveAck m r => exact finalEntry_recordAck hal m r t
  | powerForceSlaveAck m r => exact finalEntry_recordAck hal m r t
  | powerAckTimeout uuid => exact finalEntry_onAckTimeout hal uuid t
  | _ => cases he

theorem Drains.machinesState {s₁ : PowerSubsystem} (h : s.Drains s₁) (hacc : s.Accounted)
    (t : String) : s₁.machinesState t = s.finalEntry t := by
  obtain ⟨es, hes, rfl, hempty⟩ := h
  have hfinal : (es.foldl (fun s e => s.handle e) s).finalEntry t = s.finalEntry t := by
    clear hempty
    induction es generalizing s with
    | nil => rfl
    | cons e es ih =>
      rw [List.foldl_cons, ih (hacc.handle e) (fun e' he' => hes e' (List.mem_cons_of_mem e he')),
        finalEntry_handle (hes e List.mem_cons_self) hacc.aligned]
  rw [← hfinal, finalEntry, hempty]
  rfl

theorem processNextQueued_length_le (q : List QueuedRequest) (s : PowerSubsystem)
    (hq : s.requestQueue = q) : (processNextQueued q s).requestQueue.length ≤ q.length := by
  induction q generalizing s with
  | nil => rw [processNextQueued, hq]
  | cons r rest ih =>
    have hb : (s.beginRound r).2.requestQueue = r :: rest := hq
    unfold processNextQueued
    dsimp only
    split
    · exact (ih _ (by rw [closeRound_requestQueue, hb]; rfl)).trans (Nat.le_succ _)
    · exact (congrArg List.length hb).le

theorem onAckTimeout_length_lt (hal : s.Aligned) (hne : s.requestQueue ≠ []) (uuid : ℕ) :
    (s.onAckTimeout uuid).requestQueue.length < s.requestQueue.length := by
  obtain ⟨r, rest, hq⟩ := List.exists_cons_of_ne_nil hne
  rw [Aligned, hq] at hal
  obtain ⟨p, hp, -⟩ := Option.map_eq_some_iff.mp hal
  have hle : ∀ s₀ : PowerSubsystem, s₀.requestQueue = r :: rest →
      (s₀.finishSetStateRound .timeout p).requestQueue.length ≤ rest.length := by
    intro s₀ hq₀
    refine (processNextQueued_length_le _ _ rfl).trans (le_of_eq ?_)
    rw [closeRound_requestQueue, hq₀]
    rfl
  have hlength : s.requestQueue.length = rest.length + 1 := congrArg List.length hq
  unfold onAckTimeout
  rw [hp, hlength]
  exact Nat.lt_succ_of_le (hle _ hq)

/-- The queue can always finish: at the latest every round times out. -/
theorem exists_drains (hacc : s.Accounted) : ∃ s₁, s.Drains s₁ := by
  induction hn : s.requestQueue.length using Nat.strong_induction_on generalizing s with
  | _ n ih =>
    by_cases hempty : s.requestQueue = []
    · exact ⟨s, [], by simp, rfl, hempty⟩
    · have hlt := onAckTimeout_length_lt hacc.aligned hempty 0
      obtain ⟨s₁, es, hes, heq, hdone⟩ :=
        ih _ (hn ▸ hlt) (hacc.handle (.powerAckTimeout 0)) rfl
      refine ⟨s₁, .powerAckTimeout 0 :: es, ?_, heq, hdone⟩
      intro e he
      rcases List.mem_cons.mp he with rfl | he
      · rfl
      · exact hes e he

theorem names_of_machineName_ne {r : QueuedRequest} (hr : r.machineName ≠ allMachines) :
    s.names t r = decide (t ∈ s.resolveTargets r.machineName) := by
  simp only [names, ne_eq, hr, not_false_eq_true, true_and]

theorem concerns_of_machineName_ne {r : QueuedRequest} (hr : r.machineName ≠ allMachines) :
    s.concerns t r = s.names t r := by
  simp only [concerns, hr, false_or, Bool.decide_eq_true]

theorem names_of_machineName_eq {r : QueuedRequest} (hr : r.machineName = allMachines) :
    s.names t r = false := by
  simp only [names, hr, ne_eq, not_true_eq_false, false_and, decide_false]

theorem concerns_of_names {r : QueuedRequest} (h : s.names t r = true) : s.concerns t r = true :=
  decide_eq_true (.inr h)

/-- The last request that concerns `t` decides, if there is an entry for it to overwrite or some
request makes one. -/
theorem foldl_applyTo (q : List QueuedRequest) (v : Option PowerState) :
    q.foldl (s.applyTo t) v = if v.isSome ∨ q.any (s.names t) = true then
      some (((q.reverse.find? (s.concerns t)).map QueuedRequest.state).getD (v.getD .unknown))
      else none := by
  induction q using List.reverseRecOn with
  | nil => cases v <;> rfl
  | append_singleton q r ih =>
    rw [List.foldl_append, ih, List.foldl_cons, List.foldl_nil, List.reverse_append,
      List.reverse_singleton, List.singleton_append, List.find?_cons, List.any_append]
    by_cases hr : r.machineName = allMachines
    · -- the request overwrites the entry there is
      have hconcerns : s.concerns t r = true := decide_eq_true (.inl hr)
      have hnames : [r].any (s.names t) = false := by
        rw [List.any_cons, names_of_machineName_eq hr]
        rfl
      rw [hconcerns, hnames, Bool.or_false, applyTo, if_pos hr]
      split <;> rfl
    · rw [applyTo, if_neg hr, concerns_of_machineName_ne hr, names_of_machineName_ne hr]
      by_cases ht : t ∈ s.resolveTargets r.machineName
      · -- the request makes the entry
        have hnames : [r].any (s.names t) = true := by
          rw [List.any_cons, names_of_machineName_ne hr, decide_eq_true ht]
          rfl
        rw [if_pos ht, hnames, Bool.or_true, if_pos (.inr rfl), decide_eq_true ht]
        rfl
      · have hnames : [r].any (s.names t) = false := by
          rw [List.any_cons, names_of_machineName_ne hr, decide_eq_false ht]
          rfl
        rw [if_neg ht, hnames, Bool.or_false, decide_eq_false ht]

theorem finalEntry_getD (s : PowerSubsystem) (t : String) : (s.finalEntry t).getD .unknown =
    if (s.machinesState t).isSome ∨ s.requestQueue.any (s.names t) = true then
      ((s.requestQueue.reverse.find? (s.concerns t)).map QueuedRequest.state).getD (s.recorded t)
    else .unknown := by
  rw [finalEntry, foldl_applyTo]
  split <;> rfl

theorem lastQueuedState_eq (s : PowerSubsystem) (t : String) : s.lastQueuedState t =
    ((s.requestQueue.reverse.find? (fun r => t ∈ s.resolveTargets r.machineName)).map
      QueuedRequest.state).getD (s.recorded t) := by
  unfold lastQueuedState
  split <;> rename_i h <;> rw [h] <;> rfl

/-- A registered machine has an entry and is a target of ALL_MACHINES: the filter is right. -/
theorem finalEntry_of_registered (hreg : t ∈ s.registeredMachines)
    (hentry : (s.machinesState t).isSome) :
    (s.finalEntry t).getD .unknown = s.lastQueuedState t := by
  have hsame : (fun r : QueuedRequest => decide (t ∈ s.resolveTargets r.machineName)) =
      s.concerns t := by
    funext r
    by_cases hr : r.machineName = allMachines
    · have hmem : t ∈ s.resolveTargets r.machineName := by
        rw [hr, resolveTargets, if_pos rfl]
        exact (List.mem_insertionSort (· ≤ ·)).mpr hreg
      rw [decide_eq_true hmem]
      exact (decide_eq_true (.inl hr)).symm
    · rw [concerns_of_machineName_ne hr, names_of_machineName_ne hr]
  rw [finalEntry_getD, if_pos (.inl hentry), lastQueuedState_eq, hsame]

/-- For any other machine the filter looks at the requests that name it. -/
theorem lastQueuedState_of_not_registered (hreg : t ∉ s.registeredMachines) :
    s.lastQueuedState t = s.ownState t := by
  have hsame : (fun r : QueuedRequest => decide (t ∈ s.resolveTargets r.machineName)) =
      s.names t := by
    funext r
    by_cases hr : r.machineName = allMachines
    · have hmem : t ∉ s.resolveTargets r.machineName := by
        rw [hr, resolveTargets, if_pos rfl]
        exact fun h => hreg ((List.mem_insertionSort (· ≤ ·)).mp h)
      rw [decide_eq_false hmem, names_of_machineName_eq hr]
    · rw [names_of_machineName_ne hr]
  rw [lastQueuedState_eq, hsame, ownState]

theorem ownState_of_not_named (h : s.requestQueue.any (s.names t) = false) :
    s.ownState t = s.recorded t := by
  have hnone : s.requestQueue.reverse.find? (s.names t) = none := by
    rw [List.find?_eq_none]
    intro r hr hnames
    exact Bool.false_ne_true (h.symm.trans
      (List.any_eq_true.mpr ⟨r, List.mem_reverse.mp hr, hnames⟩))
  rw [ownState, hnone]
  rfl

/-- What is recorded in the end is what was asked for by name, or what overwrites it. -/
theorem finalEntry_eq (s : PowerSubsystem) (t : String) : (s.finalEntry t).getD .unknown =
    ((s.overwriter t).map QueuedRequest.state).getD (s.ownState t) := by
  rw [finalEntry_getD, overwriter]
  by_cases hentry : (s.machinesState t).isSome ∨ s.requestQueue.any (s.names t) = true
  · rw [if_pos hentry]
    cases hfind : s.requestQueue.reverse.find? (s.concerns t) with
    | none =>
      have hnone := List.find?_eq_none.mp hfind
      have hnames : s.requestQueue.any (s.names t) = false := by
        rw [List.any_eq_false]
        intro r hr hnames
        exact hnone r (List.mem_reverse.mpr hr) (concerns_of_names hnames)
      rw [Option.filter_none, ownState_of_not_named hnames]
    | some r =>
      by_cases hr : r.machineName = allMachines
      · rw [Option.filter_some, if_pos (decide_eq_true ⟨hr, hentry⟩)]
        rfl
      · -- the last request that concerns `t` names it
        obtain ⟨hconcerns, as, bs, heq, hbefore⟩ := List.find?_eq_some_iff_append.mp hfind
        have hown : s.requestQueue.reverse.find? (s.names t) = some r := by
          refine List.find?_eq_some_iff_append.mpr ⟨?_, as, bs, heq, ?_⟩
          · rw [← concerns_of_machineName_ne hr]
            exact hconcerns
          · intro a ha
            have hnot := hbefore a ha
            rw [Bool.not_eq_true'] at hnot ⊢
            by_contra hnames
            rw [Bool.not_eq_false] at hnames
            rw [concerns_of_names hnames] at hnot
            cases hnot
        rw [Option.filter_some, if_neg (fun h => hr (of_decide_eq_true h).1), ownState, hown]
        rfl
  · rw [not_or, Bool.not_eq_true, Bool.not_eq_true] at hentry
    obtain ⟨hnone, hnames⟩ := hentry
    have hfilter : (s.requestQueue.reverse.find? (s.concerns t)).filter (fun r =>
        r.machineName = allMachines ∧
          ((s.machinesState t).isSome ∨ s.requestQueue.any (s.names t))) = none := by
      rw [Option.filter_eq_none_iff]
      intro r _
      simp [hnone, hnames]
    rw [hfilter, ownState_of_not_named hnames, if_neg (by simp [hnone, hnames]), recorded,
      Option.isSome_eq_false_iff.mp hnone |> Option.isNone_iff_eq_none.mp]
    rfl

theorem shouldEnqueue_eq (s : PowerSubsystem) (machineName : String) (state : PowerState) :
    s.shouldEnqueue machineName state =
      (s.resolveTargets machineName).any (fun t => s.lastQueuedState t ≠ state) := by
  unfold shouldEnqueue
  dsimp only
  split
  · rename_i hempty
    have hsame : ∀ t, s.lastQueuedState t = s.recorded t := by
      intro t
      rw [lastQueuedState_eq, hempty]
      rfl
    simp only [hsame]
  · rfl

theorem processNextQueued_accepted (q : List QueuedRequest) (s : PowerSubsystem) :
    (processNextQueued q s).accepted = s.accepted := by
  induction q generalizing s with
  | nil => rfl
  | cons r rest ih =>
    unfold processNextQueued
    dsimp only
    split
    · rw [ih]
      unfold closeRound
      dsimp only
      split <;> rfl
    · rfl

theorem rejectedAsDuplicate_of_filtered {state : PowerState} {machineName : String}
    (hhead : ¬ s.shuttingDown) (hdup : s.shouldEnqueue machineName state = false)
    (corrId src : String) : s.RejectedAsDuplicate state machineName corrId src := by
  unfold shuttingDown at hhead
  unfold RejectedAsDuplicate handleSetState
  dsimp only
  rw [if_neg hhead, if_pos hdup]
  rfl

theorem rejectedAsDuplicate_iff (hhead : ¬ s.shuttingDown) (state : PowerState)
    (machineName corrId src : String) : s.RejectedAsDuplicate state machineName corrId src ↔
      ∀ t ∈ s.resolveTargets machineName, s.lastQueuedState t = state := by
  have hfilter : s.shouldEnqueue machineName state = false ↔
      ∀ t ∈ s.resolveTargets machineName, s.lastQueuedState t = state := by
    rw [shouldEnqueue_eq, List.any_eq_false]
    simp only [decide_eq_true_eq, not_not]
  rw [← hfilter]
  by_cases hdup : s.shouldEnqueue machineName state = false
  · exact iff_of_true (rejectedAsDuplicate_of_filtered hhead hdup corrId src) hdup
  · refine iff_of_false ?_ hdup
    unfold shuttingDown at hhead
    unfold RejectedAsDuplicate handleSetState
    dsimp only
    rw [if_neg hhead, if_neg hdup]
    intro h
    split at h
    · have hlength := congrArg (fun s : PowerSubsystem => s.accepted.length) h
      simp [processNextQueued_accepted, enqueue, reject] at hlength
    · have hlength := congrArg (fun s : PowerSubsystem => s.accepted.length) h
      simp [enqueue, reject] at hlength

end Entries

section Present

variable {s : PowerSubsystem} {m : String}

/-- Every registered machine has an entry in `_machines_state`. -/
def Present (s : PowerSubsystem) : Prop := ∀ m ∈ s.registeredMachines, (s.machinesState m).isSome

theorem isSome_closeRound (h : (s.machinesState m).isSome) (status : RoundStatus) (p : Pending) :
    ((s.closeRound status p).machinesState m).isSome := by
  rw [closeRound_machinesState, applyStateUpdate_eq, applyTo]
  split
  · rw [Option.isSome_map]
    exact h
  · split
    · rfl
    · exact h

theorem Present.closeRound (h : s.Present) (status : RoundStatus) (p : Pending) :
    (s.closeRound status p).Present := by
  intro m hm
  rw [closeRound_registeredMachines] at hm
  exact isSome_closeRound (h m hm) status p

theorem Present.processNextQueued (h : s.Present) (q : List QueuedRequest) :
    (processNextQueued q s).Present := by
  induction q generalizing s with
  | nil => exact h
  | cons r rest ih =>
    have hb : (s.beginRound r).2.Present := h
    unfold PowerSubsystem.processNextQueued
    dsimp only
    split
    · exact ih (hb.closeRound .complete _)
    · exact hb

theorem Present.finish (h : s.Present) (status : RoundStatus) (p : Pending) :
    (s.finishSetStateRound status p).Present :=
  (h.closeRound status p).processNextQueued _

theorem Present.recordAck (h : s.Present) (m : String) (r : Response) :
    (s.recordAck m r).Present := by
  unfold PowerSubsystem.recordAck
  split
  · exact h
  · split
    · exact h
    · dsimp only
      split
      · apply Present.finish
        exact h
      · exact h

theorem Present.handle (h : s.Present) (e : PowerEvent) : (s.handle e).Present := by
  cases e with
  | setState state m corrId src =>
    obtain ⟨r, -, -, -, ⟨reason, heq⟩ | ⟨-, heq⟩ | ⟨-, heq⟩⟩ :=
      handleSetState_cases state m corrId src s
    · rw [PowerSubsystem.handle, heq]
      exact h
    · rw [PowerSubsystem.handle, heq]
      apply Present.processNextQueued
      exact h
    · rw [PowerSubsystem.handle, heq]
      exact h
  | slaveAck m r => exact h.recordAck m r
  | powerForceSlaveAck m r => exact h.recordAck m r
  | powerAckTimeout uuid =>
    simp only [PowerSubsystem.handle, onAckTimeout]
    split
    · exact h
    · apply Present.finish
      exact h
  | getMachineNames corrId src => exact h
  | powerAddMachine m =>
    simp only [PowerSubsystem.handle, applyAddMachine]
    split
    · exact h
    · intro x hx
      simp only [publish] at hx ⊢
      by_cases hxm : x = m
      · rw [if_pos hxm]
        rfl
      · rw [if_neg hxm]
        rcases List.mem_append.mp hx with hx | hx
        · exact h x hx
        · exact absurd (List.mem_singleton.mp hx) hxm
  | powerRemoveMachine m =>
    simp only [PowerSubsystem.handle, applyRemoveMachine]
    split
    · exact h
    · exact fun x hx => h x (List.mem_of_mem_erase hx)
  | powerFTimeout => exact h

theorem step_present {s s' : PowerSubsystem} {l : Label} (h : s.Present)
    (hs : s.step l = some s') : s'.Present := by
  obtain ⟨_, _, _, _, rfl⟩ | ⟨_, _, _, _, rfl⟩ | ⟨e, rest, _, _, rfl⟩ := step_cases hs
  · exact h
  · exact h
  · exact Present.handle (s := { s with fifo := rest }) h e

theorem initial_present (localMachineName : String) : (initial localMachineName).Present := by
  intro m hm
  obtain rfl := List.mem_singleton.mp hm
  simp [initial]

end Present

/-- In every reachable state in which no SHUTDOWN is at the head of the queue, the filter rejects a
request as a duplicate exactly when finishing the queue would leave its targets recorded in the
requested state, if and only if no request for all machines overwrites an unregistered target
unforeseen. -/
theorem duplicate_exact_iff {localMachineName : String} {ls : List Label} {s : PowerSubsystem}
    (hrun : Trace.run step (initial localMachineName) ls = some s) (hhead : ¬ s.shuttingDown)
    (state : PowerState) (machineName corrId src : String) :
    (∃ s₁, s.Drains s₁) ∧ ∀ s₁, s.Drains s₁ →
      ((s.RejectedAsDuplicate state machineName corrId src ↔
          ∀ t ∈ s.resolveTargets machineName, s₁.recorded t = state) ↔
        s.Foreseen state machineName) := by
  have hacc : s.Accounted := Trace.run_invariant Accounted.step hrun (initial_accounted _)
  have hpresent : s.Present :=
    Trace.run_invariant (fun _ _ _ h hs => step_present h hs) hrun (initial_present _)
  refine ⟨exists_drains hacc, ?_⟩
  intro s₁ hdrains
  have hrecorded : ∀ t, s₁.recorded t = (s.finalEntry t).getD .unknown := by
    intro t
    rw [recorded, hdrains.machinesState hacc]
  have hregistered : ∀ t ∈ s.registeredMachines, s₁.recorded t = s.lastQueuedState t := by
    intro t ht
    rw [hrecorded, finalEntry_of_registered ht (hpresent t ht)]
  rw [rejectedAsDuplicate_iff hhead]
  by_cases hall : machineName = allMachines
  · -- every target is registered
    have htargets : ∀ t ∈ s.resolveTargets machineName, t ∈ s.registeredMachines := by
      intro t ht
      rw [hall, resolveTargets, if_pos rfl] at ht
      exact (List.mem_insertionSort (· ≤ ·)).mp ht
    refine iff_of_true ?_ ?_
    · apply forall₂_congr
      intro t ht
      rw [hregistered t (htargets t ht)]
    · intro t ht hnot
      exact absurd (htargets t ht) hnot
  · obtain ⟨t, ht⟩ : ∃ t, s.resolveTargets machineName = [t] := by
      unfold resolveTargets
      rw [if_neg hall]
      split <;> exact ⟨_, rfl⟩
    unfold Foreseen
    rw [ht]
    simp only [List.mem_singleton, forall_eq]
    by_cases hreg : t ∈ s.registeredMachines
    · rw [hregistered t hreg]
      exact iff_of_true Iff.rfl (fun hnot => absurd hreg hnot)
    · rw [lastQueuedState_of_not_registered hreg, hrecorded, finalEntry_eq]
      cases s.overwriter t with
      | none => exact iff_of_true Iff.rfl (fun _ r hr => by cases hr)
      | some r =>
        simp only [hreg, not_false_eq_true, forall_const, Option.mem_some_iff, forall_eq',
          Option.map_some, Option.getD_some]
        exact iff_comm

def removedRun : List Label :=
  [.post (.powerAddMachine "mdm"), .dispatch, .post (.powerRemoveMachine "mdm"), .dispatch,
    .post (.setState .suspend "ALL_MACHINES" "c" "pa"), .dispatch]

/-- A SHUTDOWN of `mdm` is no duplicate then, and the filter says so. -/
theorem duplicate_exact_removed : ∃ s s₁, Trace.run step (initial "host") removedRun = some s ∧
    s.Drains s₁ ∧ (s.RejectedAsDuplicate .shutdown "mdm" "d" "pa" ↔
      ∀ t ∈ s.resolveTargets "mdm", s₁.recorded t = .shutdown) := by
  have hrun : (Trace.run step (initial "host") removedRun).any (fun s =>
      ¬ s.shuttingDown ∧ s.Foreseen .shutdown "mdm") = true := by
    decide +kernel
  simp only [Option.any_eq_true, decide_eq_true_eq] at hrun
  obtain ⟨s, hs, hhead, hforeseen⟩ := hrun
  obtain ⟨⟨s₁, hdrains⟩, hexact⟩ := duplicate_exact_iff hs hhead .shutdown "mdm" "d" "pa"
  exact ⟨s, s₁, hs, hdrains, (hexact s₁ hdrains).mpr hforeseen⟩

/-- A RESUME of `mdm` is rejected as a duplicate, and finishing the queue leaves it suspended. -/
theorem removed_machine_overwritten : ∃ s s₁,
    Trace.run step (initial "host") removedRun = some s ∧ ¬ s.shuttingDown ∧ s.Drains s₁ ∧
      s.RejectedAsDuplicate .resume "mdm" "d" "pa" ∧ s.resolveTargets "mdm" = ["mdm"] ∧
      s₁.recorded "mdm" = .suspend := by
  have hrun : (Trace.run step (initial "host") removedRun).any (fun s =>
      ¬ s.shuttingDown ∧ s.shouldEnqueue "mdm" .resume = false ∧
        s.resolveTargets "mdm" = ["mdm"] ∧ (s.handle (.slaveAck "host" .ack)).requestQueue = [] ∧
        (s.handle (.slaveAck "host" .ack)).recorded "mdm" = .suspend) = true := by
    decide +kernel
  simp only [Option.any_eq_true, decide_eq_true_eq] at hrun
  obtain ⟨s, hs, hhead, hdup, htargets, hempty, hsuspended⟩ := hrun
  have hrejected := rejectedAsDuplicate_of_filtered hhead hdup "d" "pa"
  refine ⟨s, s.handle (.slaveAck "host" .ack), hs, hhead, ?_, hrejected, htargets, hsuspended⟩
  exact ⟨[.slaveAck "host" .ack], by simp [isAnswer], rfl, hempty⟩

end PowerSubsystem

end TelafSim.Power
