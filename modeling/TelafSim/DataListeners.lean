import TelafSim.DataCallOutline
import TelafSim.Trace

/-!
# What the listeners of a data call are told

Seven transitions end a data call session, and each makes its own notification. `Outcome` says what
a run to completion can do to the call and its listeners; from it the invariant of all runs follows.
Any thread may post any event to the session at any time: stop requests, indications of any content,
answers and timeouts.
-/

namespace TelafSim.Data

namespace CallSession

/-- The answer to start_data_call that ends the session before there is a call. -/
def startFails : SessionState → CallEvent → Bool
  | .sendingStartReq, .startRsp rsp => !CallEvent.answered rsp
  | _, _ => false

def unanswered : SessionState → Bool
  | .idle => true
  | .sendingStartReq => true
  | _ => false

def living : SessionState → Bool
  | .terminal => false
  | _ => true

/-- What a run to completion in a leaf that is not terminal does to the call and its listeners. -/
inductive Outcome (st : SessionState) (e : CallEvent) (s : CallSession) :
    SessionState → CallSession → Prop
  | failed {s' : CallSession} (hfails : startFails st e = true) (hsame : s'.notified = s.notified) :
    Outcome st e s .terminal s'
  | silent {st' : SessionState} {s' : CallSession} (hok : startFails st e = false)
    (hst : living st' = true) (hup : s'.call.status ≠ .netNoNet)
    (hsame : s'.notified = s.notified) : Outcome st e s st' s'
  | told {s' : CallSession} (hok : startFails st e = false) (hup : s'.call.status ≠ .netNoNet)
    (htold : s'.notified = s.notified ++ [s'.call]) : Outcome st e s .connected s'
  | ended {s' : CallSession} (hok : startFails st e = false) (hdown : s'.call.Down)
    (htold : s'.notified = s.notified ++ [s'.call]) : Outcome st e s .terminal s'

/-- The states that look at indications. -/
def listens : SessionState → Bool
  | .waitingForUp => true
  | .connected => true
  | .waitingForDown => true
  | _ => false

theorem react_stateInd (profileId : ℤ) {st : SessionState} (hleaf : st ≠ .active)
    (hst : listens st = false) (data : Option CallStateData) (s : CallSession) :
    react profileId st (.stateInd data) s = (st, s) := by
  rcases data with _ | data
  · cases st <;> rfl
  · simp only [react, CallEvent.signal, CallEvent.indSignal]
    cases data.callStatus <;> cases st <;> first | rfl | exact absurd rfl hleaf | cases hst

section Outcome

variable (profileId : ℤ) {s : CallSession} (hup : s.call.status ≠ .netNoNet)

include hup

theorem idle_outcome (e : CallEvent) :
    Outcome .idle e s (react profileId .idle e s).1 (react profileId .idle e s).2 := by
  rcases e with _ | _ | data | _ | _ | _ | _ | _
  case stateInd =>
    rw [react_stateInd profileId (by decide) rfl]
    exact .silent rfl rfl hup rfl
  all_goals exact .silent rfl rfl hup rfl

theorem sendingStartReq_outcome (e : CallEvent) : Outcome .sendingStartReq e s
    (react profileId .sendingStartReq e s).1 (react profileId .sendingStartReq e s).2 := by
  rcases e with _ | _ | data | rsp | _ | _ | _ | _
  case stateInd =>
    rw [react_stateInd profileId (by decide) rfl]
    exact .silent rfl rfl hup rfl
  case startRsp =>
    rcases rsp with _ | code | data
    · exact .failed rfl rfl
    · exact .failed rfl rfl
    · have hstatus :
          (react profileId .sendingStartReq (.startRsp (some (.ok data))) s).2.call.status =
            .netConnecting := adoptIfname_status _ _
      refine .silent rfl rfl ?_ (adoptIfname_notified _ _)
      rw [hstatus]
      decide
  all_goals exact .silent rfl rfl hup rfl

theorem waitingForUp_outcome (e : CallEvent) : Outcome .waitingForUp e s
    (react profileId .waitingForUp e s).1 (react profileId .waitingForUp e s).2 := by
  rcases e with _ | _ | data | _ | _ | _ | _ | _
  case stateInd =>
    rcases data with _ | data
    · exact .silent rfl rfl hup rfl
    · cases hstatus : data.callStatus
      all_goals simp only [react, CallEvent.signal, CallEvent.indSignal, hstatus, sessionPath, hop,
        fall, stay, isInd, if_true, List.map, Chart.applyAll, List.foldl, Chart.liftAction,
        Chart.liftEvent, callChart, waitingForUpSt]
      case netConnected =>
        refine .told rfl ?_ (congrArg (· ++ [_]) (connectedInd_notified data s))
        exact fun h => by cases (connectedInd_status data s).symm.trans h
      case netNoNet => exact .ended rfl (noNetInd_down data s) (noNetInd_notified data s)
      all_goals exact .silent rfl rfl hup rfl
  case bringupTimeout => exact .ended rfl (s.call.setEndReason {}).down_setStatus rfl
  all_goals exact .silent rfl rfl hup rfl

theorem connected_outcome (e : CallEvent) : Outcome .connected e s
    (react profileId .connected e s).1 (react profileId .connected e s).2 := by
  rcases e with _ | _ | data | _ | _ | _ | _ | _
  case stateInd =>
    rcases data with _ | data
    · exact .silent rfl rfl hup rfl
    · have haddress : data.callStatus ≠ .netNoNet →
          (s.addressInd data).call.status ≠ .netNoNet := by
        rw [addressInd_status]
        exact id
      cases hstatus : data.callStatus
      all_goals simp only [react, CallEvent.signal, CallEvent.indSignal, hstatus, sessionPath,
        fall, stay, isInd, if_true, List.map, Chart.applyAll, List.foldl, Chart.liftAction,
        Chart.liftEvent, callChart, connectedSt]
      case netConnected =>
        have hrepeated : (s.repeatedInd data).call.status ≠ .netNoNet := by
          rwa [repeatedInd_status]
        obtain hsame | htold := repeatedInd_notified data s
        · exact .silent rfl rfl hrepeated hsame
        · exact .told rfl hrepeated htold
      case netNoNet => exact .ended rfl (noNetInd_down data s) (noNetInd_notified data s)
      case netReconfigured | netNewAddr | netDelAddr =>
        exact .told rfl (haddress (by simp [hstatus])) (addressInd_notified data s)
      all_goals exact .silent rfl rfl hup rfl
  all_goals exact .silent rfl rfl hup rfl

theorem sendingStopReq_outcome (e : CallEvent) : Outcome .sendingStopReq e s
    (react profileId .sendingStopReq e s).1 (react profileId .sendingStopReq e s).2 := by
  rcases e with _ | _ | data | _ | rsp | _ | _ | _
  case stateInd =>
    rw [react_stateInd profileId (by decide) rfl]
    exact .silent rfl rfl hup rfl
  case stopRsp =>
    rcases rsp with _ | _ | data
    · exact .silent rfl rfl hup rfl
    · exact .silent rfl rfl hup rfl
    · have hgoing : DataCallStatus.netDisconnecting ≠ .netNoNet := by decide
      exact .silent rfl rfl hgoing rfl
  all_goals exact .silent rfl rfl hup rfl

theorem waitingForDown_outcome (e : CallEvent) : Outcome .waitingForDown e s
    (react profileId .waitingForDown e s).1 (react profileId .waitingForDown e s).2 := by
  rcases e with _ | _ | data | _ | _ | _ | _ | _
  case stateInd =>
    rcases data with _ | data
    · exact .silent rfl rfl hup rfl
    · cases hstatus : data.callStatus
      all_goals simp only [react, CallEvent.signal, CallEvent.indSignal, hstatus, sessionPath,
        fall, stay, isInd, if_true, List.map, Chart.applyAll, List.foldl, Chart.liftAction,
        Chart.liftEvent, callChart, waitingForDownSt]
      case netNoNet => exact .ended rfl (noNetInd_down data s) (noNetInd_notified data s)
      all_goals exact .silent rfl rfl hup rfl
  case teardownTimeout => exact .ended rfl s.call.down_setStatus rfl
  all_goals exact .silent rfl rfl hup rfl

theorem reconciling_outcome (e : CallEvent) : Outcome .reconciling e s
    (react profileId .reconciling e s).1 (react profileId .reconciling e s).2 := by
  rcases e with _ | _ | data | _ | _ | rsp | _ | _
  case stateInd =>
    rw [react_stateInd profileId (by decide) rfl]
    exact .silent rfl rfl hup rfl
  case listRsp =>
    rcases rsp with _ | _ | data
    · exact .ended rfl s.call.down_setStatus rfl
    · exact .ended rfl s.call.down_setStatus rfl
    · cases hlisted : stillUp profileId data
      all_goals simp only [react, CallEvent.signal, CallEvent.listsUp, hlisted, sessionPath, hop,
        fall, List.map, Chart.applyAll, List.foldl, Chart.liftAction, Chart.liftEvent, callChart,
        reconcilingSt]
      · exact .ended rfl s.call.down_setStatus rfl
      · have hback : DataCallStatus.netConnected ≠ .netNoNet := by decide
        exact .told rfl hback rfl
  all_goals exact .silent rfl rfl hup rfl

theorem react_outcome {st : SessionState} (hleaf : st ≠ .active) (hliving : living st = true)
    (e : CallEvent) : Outcome st e s (react profileId st e s).1 (react profileId st e s).2 := by
  cases st with
  | idle => exact idle_outcome profileId hup e
  | active => exact absurd rfl hleaf
  | sendingStartReq => exact sendingStartReq_outcome profileId hup e
  | waitingForUp => exact waitingForUp_outcome profileId hup e
  | connected => exact connected_outcome profileId hup e
  | sendingStopReq => exact sendingStopReq_outcome profileId hup e
  | waitingForDown => exact waitingForDown_outcome profileId hup e
  | reconciling => exact reconciling_outcome profileId hup e
  | terminal => cases hliving

end Outcome

theorem unanswered_of_react {profileId : ℤ} {st : SessionState} {e : CallEvent} {s : CallSession}
    (h : unanswered (react profileId st e s).1 = true) : unanswered st = true := by
  have hback : ∀ st sg, unanswered (sessionPath st sg).1 = true → unanswered st = true := by
    decide +kernel
  exact hback st _ h

/-- Nobody was told of an end yet. -/
structure Unended (st : SessionState) (s : CallSession) : Prop where
  up : s.call.status ≠ .netNoNet
  quiet : ∀ c ∈ s.notified, c.status ≠ .netNoNet
  early : unanswered st = true → s.notified = []

/-- The listeners were told of the end once and last, by the call as it still stands. -/
structure Ended (s : CallSession) : Prop where
  told : ∃ earlier, s.notified = earlier ++ [s.call] ∧ ∀ c ∈ earlier, c.status ≠ .netNoNet
  down : s.call.Down

variable {profileId : ℤ} {st : SessionState} {e : CallEvent} {s : CallSession}

theorem Unended.react (h : s.Unended st) (hleaf : st ≠ .active) (hliving : living st = true)
    (hok : startFails st e = false) (hst : living (react profileId st e s).1 = true) :
    (react profileId st e s).2.Unended (react profileId st e s).1 := by
  have hout := react_outcome profileId h.up hleaf hliving e
  have hearly : unanswered (CallSession.react profileId st e s).1 = true → s.notified = [] :=
    fun hst' => h.early (unanswered_of_react hst')
  generalize CallSession.react profileId st e s = r at hout hst hearly
  obtain ⟨st', s'⟩ := r
  cases hout with
  | failed hfails => rw [hok] at hfails; cases hfails
  | silent _ _ hup hsame => exact ⟨hup, hsame ▸ h.quiet, hsame ▸ hearly⟩
  | told _ hup htold =>
    refine ⟨hup, ?_, fun h => by cases h⟩
    intro c hc
    rw [htold] at hc
    obtain hc | hc := List.mem_append.mp hc
    · exact h.quiet c hc
    · rwa [List.mem_singleton.mp hc]
  | ended => cases hst

theorem Unended.ended (h : s.Unended st) (hleaf : st ≠ .active) (hliving : living st = true)
    (hok : startFails st e = false) (hst : living (CallSession.react profileId st e s).1 = false) :
    (CallSession.react profileId st e s).2.Ended := by
  have hout := react_outcome profileId h.up hleaf hliving e
  generalize CallSession.react profileId st e s = r at hout hst
  obtain ⟨st', s'⟩ := r
  cases hout with
  | failed hfails => rw [hok] at hfails; cases hfails
  | silent _ hliving' => rw [hst] at hliving'; cases hliving'
  | told => cases hst
  | ended _ hdown htold => exact ⟨⟨s.notified, htold, h.quiet⟩, hdown⟩

theorem eq_of_startFails (h : startFails st e = true) : st = .sendingStartReq := by
  cases st <;> first | rfl | cases h

theorem Unended.failed (h : s.Unended st) (hfails : startFails st e = true) :
    (CallSession.react profileId st e s).1 = .terminal ∧
      (CallSession.react profileId st e s).2.notified = [] := by
  obtain rfl := eq_of_startFails hfails
  have hout := sendingStartReq_outcome profileId h.up e
  generalize CallSession.react profileId .sendingStartReq e s = r at hout
  obtain ⟨st', s'⟩ := r
  cases hout with
  | failed _ hsame => exact ⟨rfl, hsame.trans (h.early rfl)⟩
  | silent hok => rw [hfails] at hok; cases hok
  | told hok => rw [hfails] at hok; cases hok
  | ended hok => rw [hfails] at hok; cases hok

end CallSession

/-- A session's thread: its chart and its queue. -/
structure CallSessionAO where
  profileId : ℤ
  hsm : Hsm SessionState CallEvent CallSession
  queue : List CallEvent

namespace CallSessionAO

def state (a : CallSessionAO) : StateFn SessionState := a.hsm.state

def session (a : CallSessionAO) : CallSession := a.hsm.ext

abbrev call (a : CallSessionAO) : SimulaDataCall := a.session.call

abbrev notified (a : CallSessionAO) : List SimulaDataCall := a.session.notified

/-- The constructor and `start`: the chart rests in Idle with Start in the queue. -/
def create (profileId slotId : ℤ) (ipFamilyType : IpFamilyType) (operationType : OperationType)
    (ifname : String) (startCb : Option ℕ) : CallSessionAO where
  profileId := profileId
  hsm := ⟨some .idle, some .idle, false,
    { slotId := slotId
      operationType := operationType
      call := { ipFamilyType := ipFamilyType, interfaceName := ifname }
      startCb := startCb }, []⟩
  queue := [.start]

inductive Label
  | post (e : CallEvent)
  | repost
  | take

/-- A thread posts an event, the worker posts a recalled one, or it runs the next to completion. -/
def step (a : CallSessionAO) : Label → Option CallSessionAO
  | .post e => some { a with queue := a.queue ++ [e] }
  | .repost =>
    match a.session.recalling with
    | [] => none
    | e :: rest => some { a with
        queue := a.queue ++ [e]
        hsm := { a.hsm with ext := { a.session with recalling := rest } } }
  | .take =>
    match a.session.recalling, a.queue with
    | [], e :: rest => ((CallSession.callChart a.profileId).dispatch (kMaxNest + 1) e a.hsm).map
        (fun h => { a with hsm := h, queue := rest })
    | _, _ => none

/-- The step takes an error or a timeout for the answer to start_data_call. -/
def startFails (a : CallSessionAO) : Label → Bool
  | .take =>
    match a.state, a.queue with
    | some st, e :: _ => CallSession.startFails st e
    | _, _ => false
  | _ => false

section Steps

variable {a a' : CallSessionAO}

theorem step_posts {l : Label} (h : a.step l = some a') (hl : l ≠ .take) :
    a'.state = a.state ∧ a'.call = a.call ∧ a'.notified = a.notified := by
  cases l with
  | post e =>
    obtain rfl := Option.some.inj h
    exact ⟨rfl, rfl, rfl⟩
  | repost =>
    simp only [step] at h
    split at h
    · cases h
    · obtain rfl := Option.some.inj h
      exact ⟨rfl, rfl, rfl⟩
  | take => exact absurd rfl hl

/-- In a leaf the session's chart does `react`. -/
theorem step_take (h : a.step .take = some a') {st : SessionState} (hst : a.state = some st)
    (hleaf : st ≠ .active) : ∃ e, a.startFails .take = CallSession.startFails st e ∧
      a'.state = some (CallSession.react a.profileId st e a.session).1 ∧
      a'.session = (CallSession.react a.profileId st e a.session).2 := by
  simp only [step] at h
  split at h
  · rename_i e rest _ hq
    obtain ⟨h', hdisp, hstate, hext⟩ := CallSession.dispatch_react a.profileId hleaf e hst
    rw [hdisp] at h
    obtain rfl := Option.some.inj h
    refine ⟨e, ?_, hstate, hext⟩
    simp only [startFails, hst, hq]
  · cases h

theorem step_terminal {l : Label} (h : a.step l = some a') (hst : a.state = some .terminal) :
    a'.state = some .terminal ∧ a'.call = a.call ∧ a'.notified = a.notified := by
  by_cases hl : l = .take
  · subst hl
    obtain ⟨e, -, hstate, hsession⟩ := step_take h hst (by decide)
    exact ⟨hstate, congrArg CallSession.call hsession, congrArg CallSession.notified hsession⟩
  · rw [← hst]
    exact step_posts h hl

theorem run_terminal {labels : List Label} (h : Trace.run step a labels = some a')
    (hst : a.state = some .terminal) :
    a'.state = some .terminal ∧ a'.call = a.call ∧ a'.notified = a.notified := by
  refine Trace.run_invariant (I := fun b => b.state = some .terminal ∧ b.call = a.call ∧
    b.notified = a.notified) ?_ h ⟨hst, rfl, rfl⟩
  rintro b l b' ⟨hst, hcall, hnotified⟩ hstep
  obtain ⟨hst', hcall', hnotified'⟩ := step_terminal hstep hst
  exact ⟨hst', hcall'.trans hcall, hnotified'.trans hnotified⟩

end Steps

/-- The listeners are told nothing of an end before there is one, and then once. -/
structure Sound (a : CallSessionAO) : Prop where
  leaf : ∃ st, a.state = some st ∧ st ≠ .active
  unended : ∀ {st}, a.state = some st → CallSession.living st = true → a.session.Unended st
  ended : a.state = some .terminal → a.session.Ended

/-- The session ended before there was a call to tell of. -/
structure Failed (a : CallSessionAO) : Prop where
  state : a.state = some .terminal
  notified : a.notified = []

section Invariants

variable {a a' : CallSessionAO}

theorem create_sound (profileId slotId : ℤ) (ipFamilyType : IpFamilyType)
    (operationType : OperationType) (ifname : String) (startCb : Option ℕ) :
    (create profileId slotId ipFamilyType operationType ifname startCb).Sound where
  leaf := ⟨.idle, rfl, by decide⟩
  unended hst _ := by
    obtain rfl := Option.some.inj hst
    exact ⟨by simp [create, session], fun c hc => absurd hc List.not_mem_nil, fun _ => rfl⟩
  ended hst := by cases hst

theorem Sound.of_same (ha : a.Sound) (hsame : a'.state = a.state ∧ a'.call = a.call ∧
    a'.notified = a.notified) : a'.Sound := by
  obtain ⟨hstate, hcall, hnotified⟩ := hsame
  dsimp only [call, notified] at hcall hnotified
  refine ⟨?_, ?_, ?_⟩
  · rw [hstate]
    exact ha.leaf
  · intro st hst hliving
    rw [hstate] at hst
    obtain ⟨hup, hquiet, hearly⟩ := ha.unended hst hliving
    rw [← hcall] at hup
    rw [← hnotified] at hquiet hearly
    exact ⟨hup, hquiet, hearly⟩
  · intro hst
    rw [hstate] at hst
    obtain ⟨htold, hdown⟩ := ha.ended hst
    rw [← hcall] at hdown
    rw [← hcall, ← hnotified] at htold
    exact ⟨htold, hdown⟩

theorem Sound.take (ha : a.Sound) (hok : a.startFails .take = false)
    (hstep : a.step .take = some a') : a'.Sound := by
  obtain ⟨st, hst, hleaf⟩ := ha.leaf
  by_cases hterm : st = .terminal
  · subst hterm
    obtain ⟨hstate, hsame⟩ := step_terminal hstep hst
    exact ha.of_same ⟨hstate.trans hst.symm, hsame⟩
  · have hliving : CallSession.living st = true := by
      cases st <;> first | rfl | exact absurd rfl hterm
    obtain ⟨e, hfails, hstate, hsession⟩ := step_take hstep hst hleaf
    rw [hok] at hfails
    have hunended := ha.unended hst hliving
    refine ⟨⟨_, hstate, CallSession.react_ne_active _ hleaf _ _⟩, ?_, ?_⟩
    · intro st' hst' hliving'
      obtain rfl := Option.some.inj (hstate.symm.trans hst')
      rw [hsession]
      exact hunended.react hleaf hliving hfails.symm hliving'
    · intro hst'
      have hend := Option.some.inj (hstate.symm.trans hst')
      rw [hsession]
      refine hunended.ended hleaf hliving hfails.symm ?_
      rw [hend]
      rfl

theorem Sound.step {l : Label} (ha : a.Sound) (hok : a.startFails l = false)
    (hstep : a.step l = some a') : a'.Sound := by
  by_cases hl : l = .take
  · subst hl
    exact ha.take hok hstep
  · exact ha.of_same (step_posts hstep hl)

theorem Sound.failed {l : Label} (ha : a.Sound) (hfails : a.startFails l = true)
    (hstep : a.step l = some a') : a'.Failed := by
  cases l with
  | post | repost => cases hfails
  | take =>
    obtain ⟨st, hst, hleaf⟩ := ha.leaf
    obtain ⟨e, hfails', hstate, hsession⟩ := step_take hstep hst hleaf
    rw [hfails] at hfails'
    obtain rfl := CallSession.eq_of_startFails hfails'.symm
    obtain ⟨hterm, hnone⟩ := (ha.unended hst rfl).failed hfails'.symm
    refine ⟨?_, ?_⟩
    · rw [hstate]
      exact congrArg some hterm
    · rw [CallSessionAO.notified, hsession]
      exact hnone

theorem Failed.step {l : Label} (ha : a.Failed) (hstep : a.step l = some a') : a'.Failed := by
  obtain ⟨hstate, -, hnotified⟩ := step_terminal hstep ha.state
  exact ⟨hstate, hnotified.trans ha.notified⟩

end Invariants

/-- The listeners heard of the end once, and last. -/
structure ToldOnce (a : CallSessionAO) : Prop where
  once : a.notified.countP (fun c => c.status = .netNoNet) = 1
  last : a.notified.getLast?.map (·.status) = some .netNoNet

theorem Sound.toldOnce {a : CallSessionAO} (ha : a.Sound) (hst : a.state = some .terminal) :
    a.ToldOnce := by
  obtain ⟨⟨earlier, htold, hquiet⟩, hdown⟩ := ha.ended hst
  have hnone : earlier.countP (fun c => c.status = .netNoNet) = 0 := by
    rw [List.countP_eq_zero]
    intro c hc
    simpa using hquiet c hc
  refine ⟨?_, ?_⟩
  · rw [notified, htold, List.countP_append, hnone]
    simp [hdown.status]
  · rw [notified, htold, List.getLast?_concat]
    exact congrArg some hdown.status

/-- A session whose start_data_call failed or timed out notifies no one. Any other notifies its
listeners of NET_NO_NET once before it rests in Terminal, and not again; from then on both families
are NET_NO_NET and the bearer is unknown. -/
theorem end_told_once (profileId slotId : ℤ) (ipFamilyType : IpFamilyType)
    (operationType : OperationType) (ifname : String) (startCb : Option ℕ) {labels : List Label}
    {a : CallSessionAO} (hrun : Trace.run step
      (create profileId slotId ipFamilyType operationType ifname startCb) labels = some a) :
    (¬ Trace.AllSteps step (fun a l => a.startFails l = false)
        (create profileId slotId ipFamilyType operationType ifname startCb) labels →
      a.notified = []) ∧
    (Trace.AllSteps step (fun a l => a.startFails l = false)
        (create profileId slotId ipFamilyType operationType ifname startCb) labels →
      a.state = some .terminal → a.ToldOnce ∧
        ∀ {later : List Label} {a' : CallSessionAO}, Trace.run step a later = some a' →
          a'.notified = a.notified ∧ a'.call.ipv4.status = .netNoNet ∧
            a'.call.ipv6.status = .netNoNet ∧ a'.call.bearerTech = .unknown) := by
  have hsound := create_sound profileId slotId ipFamilyType operationType ifname startCb
  constructor
  · intro hfails
    have hfailed : a.Failed := by
      apply Trace.run_of_not_allSteps _ _ _ hrun hsound hfails
      · exact fun a l a' ha hok hstep => ha.step hok hstep
      · exact fun a l a' ha hmiss hstep => ha.failed (by simpa using hmiss) hstep
      · exact fun a l a' ha hstep => ha.step hstep
    exact hfailed.notified
  · intro hok hst
    have ha : a.Sound :=
      Trace.run_invariant_of (fun a l a' ha hok hstep => ha.step hok hstep) hok hrun hsound
    refine ⟨ha.toldOnce hst, ?_⟩
    intro later a' hlater
    obtain ⟨-, hcall, hnotified⟩ := run_terminal hlater hst
    have hdown := (ha.ended hst).down
    rw [hcall]
    exact ⟨hnotified, hdown.ipv4, hdown.ipv6, hdown.bearer⟩

/-- The call comes up over IPv4, a stop is lost, and the list no longer shows the call. -/
def reconciledRun : List Label :=
  [.take, .post (.startRsp (some (.ok (some ⟨some "rmnet0", none⟩)))), .take,
    .post (.stateInd (some ⟨some "CONNECTED", none, some ⟨some "10.0.0.2", none, none, none, none⟩,
      none, some "LTE", none⟩)), .take, .post (.stop (some 1)), .take,
    .post (.stateInd (some ⟨some "NO_NET", none, none, none, none, none⟩)), .take,
    .post (.stopRsp none), .take, .post (.listRsp (some (.ok (some ⟨none, some []⟩)))), .take]

/-- The start is refused while a stop waits. -/
def refusedRun : List Label :=
  [.take, .post (.stop (some 1)), .take, .post (.startRsp (some (.error (some "BUSY")))), .take]

theorem end_told_once_runs :
    (∃ a, Trace.run step (create 1 1 .ipv4v6 .dataLocal "" (some 0)) reconciledRun = some a ∧
      a.notified.length = 2 ∧ a.ToldOnce) ∧
    ∃ a, Trace.run step (create 1 1 .ipv4v6 .dataLocal "" (some 0)) refusedRun = some a ∧
      a.notified = [] := by
  constructor
  · have hend : (Trace.run step (create 1 1 .ipv4v6 .dataLocal "" (some 0)) reconciledRun).any
        (fun a => a.state = some .terminal ∧ a.notified.length = 2) = true := by decide +kernel
    simp only [Option.any_eq_true, decide_eq_true_eq] at hend
    obtain ⟨a, hrun, hst, hlength⟩ := hend
    have hok : Trace.AllSteps step (fun a l => a.startFails l = false)
        (create 1 1 .ipv4v6 .dataLocal "" (some 0)) reconciledRun := by decide +kernel
    exact ⟨a, hrun, hlength,
      ((end_told_once 1 1 .ipv4v6 .dataLocal "" (some 0) hrun).2 hok hst).1⟩
  · have hend : (Trace.run step (create 1 1 .ipv4v6 .dataLocal "" (some 0)) refusedRun).isSome =
        true := by decide +kernel
    obtain ⟨a, hrun⟩ := Option.isSome_iff_exists.mp hend
    have hfails : ¬ Trace.AllSteps step (fun a l => a.startFails l = false)
        (create 1 1 .ipv4v6 .dataLocal "" (some 0)) refusedRun := by decide +kernel
    exact ⟨a, hrun, (end_told_once 1 1 .ipv4v6 .dataLocal "" (some 0) hrun).1 hfails⟩

end CallSessionAO

end TelafSim.Data
