import TelafSim.PowerAccounting

/-!
# Recorded and announced power states

A round announces the new state to its targets when it starts and records it when it finishes, and
the targets of ALL_MACHINES are resolved differently at the two moments: the registered machines
are told, every entry of `_machines_state` is overwritten. The two agree between rounds as long as
no machine that ever registered is overwritten without having been told, no machine registers for
the first time with a state already recorded or announced for it, and the local machine is not
reminded of its old state while a round is telling it a new one.
-/

namespace TelafSim.Power

namespace PowerSubsystem

/-- Whether a machine has registered so far, and the last state announced for it since. -/
structure Announced where
  known : Bool
  state : PowerState
  deriving DecidableEq, Repr

def note (m : String) (a : Announced) : Out → Announced
  | .stateUpdate state m' => if m' = m ∧ a.known then { a with state := state } else a
  | .machineUpdate m' true => if m' = m then { a with known := true } else a
  | _ => a

/-- A machine counts as told RESUME when it first registers, the local one from the start. -/
def announced (s : PowerSubsystem) (m : String) : Announced :=
  s.out.foldl (note m) ⟨m = s.localMachineName, .resume⟩

/-- Whenever no round is pending every registered machine is recorded in the state last announced
for it. -/
def Agrees (s : PowerSubsystem) : Prop :=
  s.pending = none → ∀ m ∈ s.registeredMachines, s.machinesState m = some (s.announced m).state

def everRegistered (s : PowerSubsystem) : List String :=
  s.localMachineName :: s.out.filterMap (fun
    | .machineUpdate m true => some m
    | _ => none)

/-- Finishing the round overwrites no machine that has ever registered and was not a target, except
with the state already recorded. -/
def closesOk (p : Pending) (s : PowerSubsystem) : Bool :=
  p.request.machineName ≠ allMachines ∨
    ∀ m ∈ s.everRegistered, m ∈ p.targets ∨ s.recorded m = p.request.state

/-- The same for all the rounds that finish as soon as they start. -/
def chainOk : List QueuedRequest → PowerSubsystem → Bool
  | [], _ => true
  | r :: rest, s =>
    let (p, s) := s.beginRound r
    if p.expected = [] then closesOk p s && chainOk rest (s.closeRound .complete p) else true

def finishOk (status : RoundStatus) (p : Pending) (s : PowerSubsystem) : Bool :=
  closesOk p s && chainOk (s.closeRound status p).requestQueue (s.closeRound status p)

def ackOk (s : PowerSubsystem) (m : String) (r : Response) : Bool :=
  match s.pending with
  | none => true
  | some p =>
    let p' := p.answer m r
    !(m ∈ p.expected && p'.finishes r) ||
      finishOk .complete p' { s with pending := some p' }.cancelPendingTimer

/-- The condition on handling an event. -/
def recordsOk (s : PowerSubsystem) : PowerEvent → Bool
  | .setState state m corrId src =>
    let r : QueuedRequest := ⟨m, state, corrId, src, s.received.length⟩
    s.requestQueue ≠ [] || !s.shouldEnqueue m state ||
      chainOk (s.enqueue r).requestQueue (s.enqueue r)
  | .slaveAck m r => s.ackOk m r
  | .powerForceSlaveAck m r => s.ackOk m r
  | .powerAckTimeout u =>
    match s.pending with
    | none => true
    | some p => finishOk .timeout p
        { s with pendingTimerUuid := none, timeouts := s.timeouts ++ [(u, p.round)] }
  | .powerAddMachine m => m ∈ s.everRegistered ∨
      ((s.machinesState m).getD .resume = .resume ∧ s.pending.all (fun p => m ∉ p.targets))
  | .powerFTimeout => s.pending.all (fun p => s.localMachineName ∉ p.targets ∨
      s.recorded s.localMachineName = p.request.state)
  | _ => true

def stepOk (s : PowerSubsystem) : Label → Bool
  | .dispatch =>
    match s.fifo with
    | [] => true
    | e :: rest => recordsOk { s with fifo := rest } e
  | _ => true

theorem announced_append (s t : PowerSubsystem) (os : List Out) (ht : t.out = s.out ++ os)
    (hl : t.localMachineName = s.localMachineName) (m : String) :
    t.announced m = os.foldl (note m) (s.announced m) := by
  rw [announced, ht, List.foldl_append, hl]
  rfl

/-- Messages that are neither announcements nor registrations do not count. -/
def Silent (o : Out) : Prop := ∀ m a, note m a o = a

theorem foldl_note_silent {os : List Out} (h : ∀ o ∈ os, Silent o) (m : String) (a : Announced) :
    os.foldl (note m) a = a := by
  induction os generalizing a with
  | nil => rfl
  | cons o os ih =>
    rw [List.foldl_cons, h o (by simp)]
    exact ih (fun x hx => h x (by simp [hx])) a

theorem foldl_note_updates (state : PowerState) (ts : List String) (m : String) (a : Announced) :
    (ts.map (Out.stateUpdate state)).foldl (note m) a =
      if m ∈ ts ∧ a.known then { a with state := state } else a := by
  induction ts generalizing a with
  | nil => simp
  | cons t ts ih =>
    rw [List.map_cons, List.foldl_cons, ih]
    rcases eq_or_ne m t with rfl | hne
    · by_cases hk : a.known = true <;> simp [note, hk]
    · simp [note, hne, hne.symm]

theorem known_iff (s : PowerSubsystem) (m : String) :
    (s.announced m).known = true ↔ m ∈ s.everRegistered := by
  have hfold : ∀ (os : List Out) (a : Announced), (os.foldl (note m) a).known = true ↔
      a.known = true ∨ m ∈ os.filterMap (fun
        | .machineUpdate m true => some m
        | _ => none) := by
    intro os
    induction os with
    | nil => simp
    | cons o os ih =>
      intro a
      rw [List.foldl_cons, ih]
      cases o with
      | machineUpdate m' available =>
        cases available with
        | true =>
          rcases eq_or_ne m m' with rfl | hne
          · simp [note]
          · simp [note, hne, hne.symm]
        | false => simp [note]
      | stateUpdate state m' => simp only [note]; split <;> simp
      | _ => simp [note]
  rw [announced, hfold, everRegistered, List.mem_cons]
  simp

/-- What holds at every moment. -/
structure Tracked (s : PowerSubsystem) : Prop where
  registered : ∀ m ∈ s.registeredMachines, (s.announced m).known = true
  fresh : ∀ m, (s.announced m).known = false → (s.announced m).state = .resume
  present : ∀ m, (s.announced m).known = true → ∃ state, s.machinesState m = some state

structure Settled (s : PowerSubsystem) : Prop extends Tracked s where
  agrees : ∀ m, (s.announced m).known = true → s.machinesState m = some (s.announced m).state

/-- The round `p` has told its targets its state and left the other machines alone. -/
structure Telling (p : Pending) (s : PowerSubsystem) : Prop extends Tracked s where
  targets_eq : p.request.machineName ≠ allMachines →
    p.targets = s.resolveTargets p.request.machineName
  told : ∀ m ∈ p.targets, (s.announced m).known = true → (s.announced m).state = p.request.state
  others : ∀ m ∉ p.targets, (s.announced m).known = true →
    s.machinesState m = some (s.announced m).state

theorem Settled.beginRound {s : PowerSubsystem} (h : s.Settled) (r : QueuedRequest) :
    (s.beginRound r).2.Telling (s.beginRound r).1 := by
  have hann : ∀ m, (s.beginRound r).2.announced m =
      if m ∈ s.changed r ∧ (s.announced m).known then { s.announced m with state := r.state }
      else s.announced m := by
    intro m
    rw [announced_append s (s.beginRound r).2 ((s.changed r).map (.stateUpdate r.state)) rfl rfl,
      foldl_note_updates]
  have hknown : ∀ m, ((s.beginRound r).2.announced m).known = (s.announced m).known := by
    intro m
    rw [hann]
    split <;> rfl
  refine ⟨⟨?_, ?_, ?_⟩, fun _ => rfl, ?_, ?_⟩
  · intro m hm
    rw [hknown]
    exact h.registered m hm
  · intro m hk
    rw [hknown] at hk
    rw [hann, if_neg (by simp [hk])]
    exact h.fresh m hk
  · intro m hk
    rw [hknown] at hk
    exact h.present m hk
  · intro m hm hk
    rw [hknown] at hk
    rw [hann]
    split
    · rfl
    · rename_i hc
      -- a target that was not told already had the state, so it was told before
      have hrec : s.recorded m = r.state := by
        by_contra hne
        exact hc ⟨List.mem_filter.mpr ⟨hm, by simpa using hne⟩, hk⟩
      have hag := h.agrees m hk
      rw [recorded, hag] at hrec
      exact hrec
  · intro m hm hk
    rw [hknown] at hk
    rw [hann, if_neg (fun hc => hm (List.mem_of_mem_filter hc.1))]
    exact h.agrees m hk

theorem announced_closeRound (status : RoundStatus) (p : Pending) (s : PowerSubsystem)
    (m : String) : (s.closeRound status p).announced m = s.announced m := by
  have hout : (s.closeRound status p).out = s.out ++ (p.statusInd status ++ [p.rsp]) := by
    unfold closeRound
    dsimp only
    split <;> rfl
  have hlocal : (s.closeRound status p).localMachineName = s.localMachineName := by
    unfold closeRound
    dsimp only
    split <;> rfl
  rw [announced_append s _ _ hout hlocal, foldl_note_silent]
  intro o ho
  unfold Pending.statusInd at ho
  split at ho <;> simp only [List.nil_append, List.cons_append, List.mem_cons, List.not_mem_nil,
    or_false] at ho
  · subst ho
    exact fun _ _ => rfl
  · rcases ho with rfl | rfl <;> exact fun _ _ => rfl

theorem closeRound_machinesState (status : RoundStatus) (p : Pending) (s : PowerSubsystem) :
    (s.closeRound status p).machinesState =
      s.applyStateUpdate p.request.machineName p.request.state := by
  unfold closeRound
  dsimp only
  split <;> rfl

theorem closeRound_registeredMachines (status : RoundStatus) (p : Pending) (s : PowerSubsystem) :
    (s.closeRound status p).registeredMachines = s.registeredMachines := by
  unfold closeRound
  dsimp only
  split <;> rfl

theorem Telling.closeRound {p : Pending} {s : PowerSubsystem} (h : s.Telling p)
    (status : RoundStatus) (hok : closesOk p s = true) : (s.closeRound status p).Settled := by
  have hag : ∀ m, (s.announced m).known = true →
      (s.closeRound status p).machinesState m = some (s.announced m).state := by
    intro m hk
    obtain ⟨state, hst⟩ := h.present m hk
    rw [closeRound_machinesState]
    unfold applyStateUpdate
    by_cases hall : p.request.machineName = allMachines
    · rw [if_pos hall, hst, Option.map_some]
      by_cases hm : m ∈ p.targets
      · rw [h.told m hm hk]
      · have hoth := h.others m hm hk
        rcases of_decide_eq_true hok with hne | hrec
        · exact absurd hall hne
        · rcases hrec m ((known_iff s m).mp hk) with hmem | hrec
          · exact absurd hmem hm
          · rw [recorded, hoth] at hrec
            exact congrArg some hrec.symm
    · rw [if_neg hall, ← h.targets_eq hall]
      split
      · rename_i hm
        rw [h.told m hm hk]
      · rename_i hm
        exact h.others m hm hk
  refine ⟨⟨?_, ?_, ?_⟩, ?_⟩
  · intro m hm
    rw [announced_closeRound]
    rw [closeRound_registeredMachines] at hm
    exact h.registered m hm
  · intro m hk
    rw [announced_closeRound] at hk ⊢
    exact h.fresh m hk
  · intro m hk
    rw [announced_closeRound] at hk
    exact ⟨_, hag m hk⟩
  · intro m hk
    rw [announced_closeRound] at hk ⊢
    exact hag m hk

/-- Between events, whether or not a round is in progress. -/
def Consistent (s : PowerSubsystem) : Prop :=
  match s.pending with
  | none => s.Settled
  | some p => s.Telling p

theorem Consistent.settled {s : PowerSubsystem} (h : s.Consistent) (hp : s.pending = none) :
    s.Settled := by
  rw [Consistent, hp] at h
  exact h

theorem Consistent.telling {s : PowerSubsystem} (h : s.Consistent) {p : Pending}
    (hp : s.pending = some p) : s.Telling p := by
  rw [Consistent, hp] at h
  exact h

theorem Settled.processNextQueued (q : List QueuedRequest) {s : PowerSubsystem} (h : s.Settled)
    (hp : q = [] → s.pending = none) (hok : chainOk q s = true) :
    (processNextQueued q s).Consistent := by
  induction q generalizing s with
  | nil =>
    rw [Consistent, PowerSubsystem.processNextQueued, hp rfl]
    exact h
  | cons r rest ih =>
    have ht := h.beginRound r
    unfold PowerSubsystem.processNextQueued
    unfold chainOk at hok
    dsimp only at hok ⊢
    split
    · rename_i he
      rw [if_pos he, Bool.and_eq_true] at hok
      exact ih (ht.closeRound .complete hok.1) (fun _ => closeRound_pending _ _ _) hok.2
    · exact ⟨⟨ht.1.1, ht.1.2, ht.1.3⟩, ht.2, ht.3, ht.4⟩

theorem Telling.finish {p : Pending} {s : PowerSubsystem} (h : s.Telling p)
    (status : RoundStatus) (hok : finishOk status p s = true) :
    (s.finishSetStateRound status p).Consistent := by
  rw [finishOk, Bool.and_eq_true] at hok
  exact (h.closeRound status hok.1).processNextQueued _ (fun _ => closeRound_pending _ _ _) hok.2

theorem Telling.answer {p : Pending} {s : PowerSubsystem} (h : s.Telling p) (m : String)
    (r : Response) : { s with pending := some (p.answer m r) }.Telling (p.answer m r) := by
  refine ⟨⟨h.1.1, h.1.2, h.1.3⟩, ?_, ?_, ?_⟩
  · rw [p.answer_request, p.answer_targets]
    exact h.targets_eq
  · rw [p.answer_request, p.answer_targets]
    exact h.told
  · rw [p.answer_targets]
    exact h.others

theorem Consistent.recordAck {s : PowerSubsystem} (h : s.Consistent) (m : String) (r : Response)
    (hok : s.ackOk m r = true) : (s.recordAck m r).Consistent := by
  unfold PowerSubsystem.recordAck
  unfold ackOk at hok
  split
  · exact h
  · rename_i p hp
    have ht := (h.telling hp).answer m r
    simp only [hp] at hok
    by_cases hm : m ∈ p.expected
    · rw [if_neg (not_not.mpr hm)]
      dsimp only
      split
      · rename_i hfin
        have hidle : { s with pending := some (p.answer m r) }.cancelPendingTimer.Telling
          (p.answer m r) := ⟨⟨ht.1.1, ht.1.2, ht.1.3⟩, ht.2, ht.3, ht.4⟩
        refine hidle.finish .complete ?_
        simpa [hm, hfin] using hok
      · exact ht
    · rw [if_pos hm]
      exact h

theorem Consistent.onAckTimeout {s : PowerSubsystem} (h : s.Consistent) (u : ℕ)
    (hok : s.recordsOk (.powerAckTimeout u) = true) : (s.onAckTimeout u).Consistent := by
  unfold PowerSubsystem.onAckTimeout
  split
  · exact h
  · rename_i p hp
    simp only [recordsOk, hp] at hok
    have ht := h.telling hp
    exact Telling.finish (s := { s with
      pendingTimerUuid := none
      timeouts := s.timeouts ++ [(u, p.round)] })
      ⟨⟨ht.1.1, ht.1.2, ht.1.3⟩, ht.2, ht.3, ht.4⟩ .timeout hok

theorem resolveTargets_congr {s t : PowerSubsystem} (hl : t.localMachineName = s.localMachineName)
    {m : String} (hm : m ≠ allMachines) : t.resolveTargets m = s.resolveTargets m := by
  simp [resolveTargets, hm, hl]

/-- Changes that announce nothing and register nothing new. -/
theorem Consistent.silent {s t : PowerSubsystem} (h : s.Consistent)
    (hm : t.machinesState = s.machinesState)
    (hr : ∀ m ∈ t.registeredMachines, m ∈ s.registeredMachines)
    (hann : ∀ m, t.announced m = s.announced m) (hp : t.pending = s.pending)
    (hl : t.localMachineName = s.localMachineName) : t.Consistent := by
  have htr : s.Tracked → t.Tracked := by
    intro h
    refine ⟨?_, ?_, ?_⟩
    · intro m hmem
      rw [hann]
      exact h.registered m (hr m hmem)
    · intro m
      rw [hann]
      exact h.fresh m
    · intro m
      rw [hann, hm]
      exact h.present m
  unfold Consistent
  rw [hp]
  split
  · rename_i hnone
    have hs := h.settled hnone
    refine ⟨htr hs.1, ?_⟩
    intro m
    rw [hann, hm]
    exact hs.agrees m
  · rename_i p hsome
    have ht := h.telling hsome
    refine ⟨htr ht.1, ?_, ?_, ?_⟩
    · intro hne
      rw [resolveTargets_congr hl hne]
      exact ht.targets_eq hne
    · intro m
      rw [hann]
      exact ht.told m
    · intro m
      rw [hann, hm]
      exact ht.others m

theorem Consistent.publish {s t : PowerSubsystem} (h : s.Consistent) {o : Out} (ho : Silent o)
    (hm : t.machinesState = s.machinesState)
    (hr : ∀ m ∈ t.registeredMachines, m ∈ s.registeredMachines) (hout : t.out = s.out ++ [o])
    (hp : t.pending = s.pending) (hl : t.localMachineName = s.localMachineName) :
    t.Consistent := by
  refine h.silent hm hr (fun m => ?_) hp hl
  rw [announced_append s t [o] hout hl]
  exact ho m _

theorem Consistent.handleSetState {s : PowerSubsystem} (h : s.Consistent) (hacc : s.Accounted)
    (state : PowerState) (m corrId src : String)
    (hok : s.recordsOk (.setState state m corrId src) = true) :
    (s.handleSetState state m corrId src).Consistent := by
  unfold PowerSubsystem.handleSetState
  dsimp only
  split
  · exact h.publish (fun _ _ => rfl) rfl (fun _ hm => hm) rfl rfl rfl
  · split
    · exact h.publish (fun _ _ => rfl) rfl (fun _ hm => hm) rfl rfl rfl
    · rename_i hq
      split
      · rename_i he
        have hp := hacc.pending_none he
        have hs := h.settled hp
        refine Settled.processNextQueued _ ⟨⟨hs.1.1, hs.1.2, hs.1.3⟩, hs.2⟩ (fun _ => hp) ?_
        simpa [recordsOk, he, hq] using hok
      · exact h.silent rfl (fun _ hm => hm) (fun _ => rfl) rfl rfl

section AddMachine

variable {s : PowerSubsystem} {m : String} (hreg : m ∉ s.registeredMachines)
include hreg

theorem localMachineName_addMachine : (s.applyAddMachine m).localMachineName = s.localMachineName := by
  rw [applyAddMachine, if_neg hreg]
  rfl

theorem announced_addMachine (x : String) : (s.applyAddMachine m).announced x =
    if x = m then { s.announced m with known := true } else s.announced x := by
  have hout : (s.applyAddMachine m).out = s.out ++ [Out.machineUpdate m true] := by
    rw [applyAddMachine, if_neg hreg]
    rfl
  rw [announced_append s _ _ hout (localMachineName_addMachine hreg)]
  by_cases hx : x = m
  · simp [note, hx]
  · simp [note, hx, Ne.symm hx]

theorem machinesState_addMachine (x : String) : (s.applyAddMachine m).machinesState x =
    if x = m then some ((s.machinesState m).getD .resume) else s.machinesState x := by
  rw [applyAddMachine, if_neg hreg]
  rfl

theorem Tracked.applyAddMachine (h : s.Tracked) : (s.applyAddMachine m).Tracked := by
  refine ⟨?_, ?_, ?_⟩
  · intro x hx
    rw [announced_addMachine hreg]
    split
    · rfl
    · rename_i hxm
      rw [PowerSubsystem.applyAddMachine, if_neg hreg] at hx
      rcases List.mem_append.mp hx with hx | hx
      · exact h.registered x hx
      · exact absurd (List.mem_singleton.mp hx) hxm
  · intro x hk
    rw [announced_addMachine hreg] at hk ⊢
    split at hk
    · cases hk
    · rw [if_neg ‹_›]
      exact h.fresh x hk
  · intro x hk
    rw [machinesState_addMachine hreg]
    split
    · exact ⟨_, rfl⟩
    · rw [announced_addMachine hreg, if_neg ‹_›] at hk
      exact h.present x hk

/-- A record that agrees with what was announced still does, and that of a machine registered for
the first time agrees with its start. -/
theorem agrees_addMachine (h : s.Tracked) (hok : s.recordsOk (.powerAddMachine m) = true) {x : String}
    (hx : (s.announced x).known = true → s.machinesState x = some (s.announced x).state)
    (hk : ((s.applyAddMachine m).announced x).known = true) :
    (s.applyAddMachine m).machinesState x = some ((s.applyAddMachine m).announced x).state := by
  rw [announced_addMachine hreg] at hk ⊢
  rw [machinesState_addMachine hreg]
  split
  · rename_i hxm
    subst hxm
    by_cases hknown : (s.announced x).known = true
    · rw [hx hknown]
      rfl
    · have hstart : (s.machinesState x).getD .resume = .resume := by
        rcases of_decide_eq_true hok with hmem | ⟨hres, -⟩
        · exact absurd ((known_iff s x).mpr hmem) hknown
        · exact hres
      rw [hstart, h.fresh x (by simpa using hknown)]
  · rw [if_neg ‹_›] at hk
    exact hx hk

end AddMachine

/-- The first registration of a machine for which nothing was recorded or announced, or a
registration of one that was registered before. -/
theorem Consistent.applyAddMachine {s : PowerSubsystem} (h : s.Consistent) (m : String)
    (hok : s.recordsOk (.powerAddMachine m) = true) : (s.applyAddMachine m).Consistent := by
  by_cases hreg : m ∈ s.registeredMachines
  · rw [PowerSubsystem.applyAddMachine, if_pos hreg]
    exact h
  have hpending : (s.applyAddMachine m).pending = s.pending := by
    rw [PowerSubsystem.applyAddMachine, if_neg hreg]
    rfl
  rw [Consistent, hpending]
  split
  · rename_i hnone
    have hs := h.settled hnone
    exact ⟨hs.1.applyAddMachine hreg, fun x hk => agrees_addMachine hreg hs.1 hok (hs.agrees x) hk⟩
  · rename_i p hsome
    have htl := h.telling hsome
    refine ⟨htl.1.applyAddMachine hreg, ?_, ?_, ?_⟩
    · intro hne
      rw [resolveTargets_congr (localMachineName_addMachine hreg) hne]
      exact htl.targets_eq hne
    · intro x hx hk
      have hknown : (s.announced x).known = true := by
        by_cases hxm : x = m
        · -- a machine registered for the first time is no target of the round
          subst hxm
          rcases of_decide_eq_true hok with hmem | ⟨-, hp⟩
          · exact (known_iff s x).mpr hmem
          · rw [hsome] at hp
            exact absurd hx (by simpa using hp)
        · rwa [announced_addMachine hreg, if_neg hxm] at hk
      rw [announced_addMachine hreg]
      split
      · rename_i hxm
        exact hxm ▸ htl.told x hx hknown
      · exact htl.told x hx hknown
    · intro x hx hk
      exact agrees_addMachine hreg htl.1 hok (htl.others x hx) hk

theorem Consistent.retryLocalConfirm {s : PowerSubsystem} (h : s.Consistent)
    (hok : s.recordsOk .powerFTimeout = true) : s.retryLocalConfirm.Consistent := by
  have hann : ∀ x, s.retryLocalConfirm.announced x =
      if s.localMachineName = x ∧ (s.announced x).known = true then
        { s.announced x with state := s.recorded s.localMachineName }
      else s.announced x := by
    intro x
    rw [announced_append s s.retryLocalConfirm
      [.stateUpdate (s.recorded s.localMachineName) s.localMachineName] rfl rfl]
    rfl
  -- rebroadcasting the recorded state changes nothing where it is the announced one
  have hsame : (∀ (_ : (s.announced s.localMachineName).known = true),
      s.machinesState s.localMachineName = some (s.announced s.localMachineName).state) →
      ∀ x, s.retryLocalConfirm.announced x = s.announced x := by
    intro hrec x
    rw [hann]
    split
    · rename_i hx
      obtain ⟨rfl, hk⟩ := hx
      rw [recorded, hrec hk]
      rfl
    · rfl
  by_cases hp : s.pending = none
  · have hs := h.settled hp
    exact h.silent rfl (fun _ hm => hm) (hsame (hs.agrees _)) rfl rfl
  · obtain ⟨p, hp⟩ := Option.ne_none_iff_exists'.mp hp
    have ht := h.telling hp
    by_cases hl : s.localMachineName ∈ p.targets
    · have hrec : s.recorded s.localMachineName = p.request.state := by
        simp only [recordsOk, hp, Option.all_some, decide_eq_true_eq] at hok
        exact hok.resolve_left (not_not.mpr hl)
      have hknown : ∀ x, (s.retryLocalConfirm.announced x).known = (s.announced x).known := by
        intro x
        rw [hann]
        split <;> rfl
      rw [Consistent, show s.retryLocalConfirm.pending = some p from hp]
      refine ⟨⟨?_, ?_, ?_⟩, ht.targets_eq, ?_, ?_⟩
      · intro x hx
        rw [hknown]
        exact ht.registered x hx
      · intro x hk
        rw [hknown] at hk
        rw [hann, if_neg (by simp [hk])]
        exact ht.fresh x hk
      · intro x hk
        rw [hknown] at hk
        exact ht.present x hk
      · intro x hx hk
        rw [hknown] at hk
        rw [hann]
        split
        · exact hrec
        · exact ht.told x hx hk
      · intro x hx hk
        rw [hknown] at hk
        have hne : ¬ (s.localMachineName = x ∧ (s.announced x).known = true) := by
          rintro ⟨rfl, -⟩
          exact hx hl
        rw [hann, if_neg hne]
        exact ht.others x hx hk
    · exact h.silent rfl (fun _ hm => hm) (hsame (ht.others _ hl)) rfl rfl

theorem Consistent.handle {s : PowerSubsystem} (h : s.Consistent) (hacc : s.Accounted)
    (e : PowerEvent) (hok : s.recordsOk e = true) : (PowerSubsystem.handle e s).Consistent := by
  cases e with
  | setState state m corrId src => exact h.handleSetState hacc state m corrId src hok
  | getMachineNames corrId src =>
    exact h.publish (fun _ _ => rfl) rfl (fun _ hm => hm) rfl rfl rfl
  | slaveAck m r => exact h.recordAck m r hok
  | powerForceSlaveAck m r => exact h.recordAck m r hok
  | powerAddMachine m => exact h.applyAddMachine m hok
  | powerRemoveMachine m =>
    simp only [PowerSubsystem.handle, applyRemoveMachine]
    split
    · exact h
    · exact h.publish (fun _ _ => rfl) rfl (fun _ hm => List.mem_of_mem_erase hm) rfl rfl rfl
  | powerAckTimeout u => exact h.onAckTimeout u hok
  | powerFTimeout =>
    have hc : { s with ftimeoutTimerUuid := none }.Consistent :=
      h.silent rfl (fun _ hm => hm) (fun _ => rfl) rfl rfl
    exact hc.retryLocalConfirm hok

theorem Consistent.step (s : PowerSubsystem) (l : Label) (s' : PowerSubsystem)
    (h : s.Accounted ∧ s.Consistent) (hok : s.stepOk l = true) (hs : s.step l = some s') :
    s'.Accounted ∧ s'.Consistent := by
  refine ⟨Accounted.step s l s' h.1 hs, ?_⟩
  obtain ⟨e, rfl, -, -, rfl⟩ | ⟨u, t, rfl, hu, rfl⟩ | ⟨e, rest, rfl, hf, rfl⟩ := step_cases hs
  · exact h.2.silent rfl (fun _ hm => hm) (fun _ => rfl) rfl rfl
  · exact h.2.silent rfl (fun _ hm => hm) (fun _ => rfl) rfl rfl
  · simp only [stepOk, hf] at hok
    have hpop : { s with fifo := rest }.Consistent :=
      h.2.silent rfl (fun _ hm => hm) (fun _ => rfl) rfl rfl
    exact hpop.handle ⟨h.1.1, h.1.2, h.1.3⟩ e hok

theorem initial_settled (localMachineName : String) : (initial localMachineName).Settled := by
  have hknown : ∀ m, ((initial localMachineName).announced m).known = true →
      (initial localMachineName).machinesState m = some .resume := by
    intro m hm
    exact if_pos (Or.inl (of_decide_eq_true hm))
  refine ⟨⟨?_, fun _ _ => rfl, fun m hm => ⟨_, hknown m hm⟩⟩, hknown⟩
  intro m hm
  exact decide_eq_true (List.mem_singleton.mp hm)

/-- In every run whose steps meet the condition, whenever no round is pending every registered
machine is recorded in the state last announced for it since it first registered. -/
theorem recorded_agrees_announced (localMachineName : String) (ls : List Label)
    (s : PowerSubsystem) (hrun : Trace.run step (initial localMachineName) ls = some s)
    (hok : Trace.AllSteps step (fun s l => s.stepOk l = true) (initial localMachineName) ls) :
    s.Agrees := by
  have h := (Trace.run_invariant_of Consistent.step hok hrun
    ⟨initial_accounted localMachineName, initial_settled localMachineName⟩).2
  intro hp m hm
  have hs := h.settled hp
  exact hs.agrees m (hs.registered m hm)

/-- A machine that registers between two rounds. -/
theorem recorded_agrees_announced_run : ∃ s, Trace.run step (initial "mdm")
      [.post (.powerAddMachine "tcu"), .dispatch, .post (.setState .suspend "ALL_MACHINES" "c1" "pa-1"),
        .dispatch, .post (.slaveAck "mdm" .ack), .post (.slaveAck "tcu" .ack), .dispatch,
        .dispatch] = some s ∧
    s.machinesState "tcu" = some .suspend ∧ s.Agrees := by
  have hrun : (Trace.run step (initial "mdm") [.post (.powerAddMachine "tcu"), .dispatch,
      .post (.setState .suspend "ALL_MACHINES" "c1" "pa-1"), .dispatch, .post (.slaveAck "mdm" .ack),
      .post (.slaveAck "tcu" .ack), .dispatch, .dispatch]).map (fun s => s.machinesState "tcu") =
        some (some .suspend) := by decide +kernel
  obtain ⟨s, hs, ht⟩ := Option.map_eq_some_iff.mp hrun
  exact ⟨s, hs, ht, recorded_agrees_announced "mdm" _ s hs (by decide +kernel)⟩

/-- A machine that registers while an ALL_MACHINES round is pending is recorded as suspended when
the round finishes, but was never told. -/
theorem registered_mid_round_not_told : ∃ s, Trace.run step (initial "mdm")
      [.post (.setState .suspend "ALL_MACHINES" "c1" "pa-1"), .dispatch,
        .post (.powerAddMachine "tcu"), .dispatch, .post (.slaveAck "mdm" .ack), .dispatch] = some s ∧
    s.pending = none ∧ "tcu" ∈ s.registeredMachines ∧ s.machinesState "tcu" = some .suspend ∧
    s.announced "tcu" = ⟨true, .resume⟩ ∧ ¬ s.Agrees := by
  have hrun : (Trace.run step (initial "mdm") [.post (.setState .suspend "ALL_MACHINES" "c1" "pa-1"),
      .dispatch, .post (.powerAddMachine "tcu"), .dispatch, .post (.slaveAck "mdm" .ack),
      .dispatch]).map (fun s => (s.pending, decide ("tcu" ∈ s.registeredMachines),
        s.machinesState "tcu", s.announced "tcu")) =
      some (none, true, some .suspend, ⟨true, .resume⟩) := by decide +kernel
  obtain ⟨s, hs, ht⟩ := Option.map_eq_some_iff.mp hrun
  simp only [Prod.mk.injEq, decide_eq_true_eq] at ht
  obtain ⟨hp, hm, hr, ha⟩ := ht
  refine ⟨s, hs, hp, hm, hr, ha, ?_⟩
  intro hag
  have := hag hp "tcu" hm
  rw [hr, ha] at this
  exact absurd this (by decide)

end PowerSubsystem
end TelafSim.Power
