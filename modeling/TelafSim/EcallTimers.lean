import TelafSim.EcallManager
import TelafSim.Switchboard

/-!
# The HLAP timers of the modem's eCalls

Every event of a timer sets the status it is reported with. The events of a timer take turns, and
its status follows the last of them, as long as no event starts a timer that runs, stops or expires
one that does not, or releases a call slot with a timer still running: a slot is released without a
word.
-/

namespace TelafSim.Ecall

open Switchboard

def TimerAction.starts : TimerAction → Bool
  | .started => true
  | .stopped => false
  | .expired => false

def TimerStatus.isActive : TimerStatus → Bool
  | .active => true
  | .inactive => false

theorem TimerStatus.isActive_iff (status : TimerStatus) : status.isActive ↔ status = .active := by
  cases status <;> simp [isActive]

def Publication.action (phoneId : ℤ) (timer : Timer) : Publication → Option TimerAction
  | .hlapTimerEvent phoneId' timer' action =>
    if phoneId' = phoneId ∧ timer' = timer then some action else none
  | _ => none

def Request.concernsCall : Request → Bool
  | .startEcall _ _ _ _ _ => true
  | .endEcall _ _ => true
  | .requestNetworkDeregistration _ => true
  | _ => false

def Callback.report (phoneId : ℤ) : Callback → Option ((ℤ × Timer) × TimerAction)
  | .startTimer timer => some ((phoneId, timer), .started)
  | .sendEvent timer .start => some ((phoneId, timer), .started)
  | .sendEvent timer .stop => some ((phoneId, timer), .stopped)
  | .expiryTimer timer => some ((phoneId, timer), .expired)
  | _ => none

namespace EcallManagerAO

variable {m : EcallManagerAO} {phoneId : ℤ}

def actions (m : EcallManagerAO) (phoneId : ℤ) (timer : Timer) : List TimerAction :=
  m.published.filterMap (Publication.action phoneId timer)

/-- The status and the actions of every timer. -/
def board (m : EcallManagerAO) : Switchboard (ℤ × Timer) TimerAction where
  on := fun k => (m.timerStatus k.1 k.2).isActive
  log := fun k => m.actions k.1 k.2

/-- STARTED and its end take turns, and a timer is active exactly if its last action is STARTED. -/
def Agrees (m : EcallManagerAO) : Prop :=
  ∀ phoneId timer,
    Alternates TimerAction.starts (m.actions phoneId timer) ∧
      (m.timerStatus phoneId timer = .active ↔
        (m.actions phoneId timer).getLast? = some .started)

theorem lit_iff (l : List TimerAction) :
    lit TimerAction.starts l = true ↔ l.getLast? = some .started := by
  unfold lit
  cases l.getLast? with
  | none => simp
  | some a => cases a <;> simp [TimerAction.starts]

theorem agrees_iff_faithful : m.Agrees ↔ m.board.Faithful TimerAction.starts := by
  constructor
  · intro h
    refine ⟨fun k => (h k.1 k.2).1, ?_⟩
    intro k
    rw [Bool.eq_iff_iff, lit_iff]
    exact (TimerStatus.isActive_iff _).trans (h k.1 k.2).2
  · intro h p t
    refine ⟨h.alternates (p, t), ?_⟩
    rw [← lit_iff, ← TimerStatus.isActive_iff]
    exact Bool.eq_iff_iff.mp (h.agrees (p, t))

theorem board_pub {x : Publication} (hx : ∀ p t, x.action p t = none) :
    (m.pub x).board = m.board := by
  simp [board, pub, actions, timerStatus, hx]

@[simp] theorem board_pubRsp (corrId : ℕ) (data : RspData) :
    (m.pubRsp corrId data).board = m.board := board_pub (fun _ _ => rfl)

@[simp] theorem board_sendError (corrId : ℕ) (code : ErrorCode) (detail : String) :
    (m.sendError corrId code detail).board = m.board := board_pub (fun _ _ => rfl)

@[simp] theorem board_postFifo (e : Event) : (m.postFifo e).board = m.board := rfl

@[simp] theorem board_setSession (s : Option EcallSession) :
    (m.setSession phoneId s).board = m.board := rfl

@[simp] theorem board_cancel (key : TimerKey) : (m.cancel key).board = m.board := rfl

@[simp] theorem board_schedule (key : TimerKey) (periodMs : ℤ) :
    (m.schedule key periodMs).board = m.board := by
  unfold schedule
  split <;> rfl

theorem board_reportTimer (timer : Timer) (action : TimerAction) :
    (m.reportTimer phoneId timer action).board =
      m.board.turn TimerAction.starts ((phoneId, timer), action) := by
  unfold board Switchboard.turn
  refine congrArg₂ Switchboard.mk ?_ ?_
  · funext k
    obtain ⟨p, t⟩ := k
    by_cases hp : p = phoneId
    · subst hp
      by_cases ht : t = timer
      · subst ht
        cases action <;> simp [reportTimer, setTimerStatus, timerStatus, pub, TimerAction.starts,
          TimerStatus.isActive]
      · simp [reportTimer, setTimerStatus, timerStatus, pub, ht]
    · simp [reportTimer, setTimerStatus, timerStatus, pub, hp]
  · funext k
    obtain ⟨p, t⟩ := k
    by_cases h : phoneId = p ∧ timer = t
    · obtain ⟨rfl, rfl⟩ := h
      simp [reportTimer, setTimerStatus, actions, pub, Publication.action]
    · have hne : (p, t) ≠ (phoneId, timer) := by
        intro he
        cases he
        exact h ⟨rfl, rfl⟩
      simp [reportTimer, setTimerStatus, actions, pub, Publication.action, h,
        Function.update_of_ne hne]

theorem board_clearCallSlot :
    (m.clearCallSlot phoneId).board = m.board.clear (fun k => k.1 = phoneId) := by
  unfold board Switchboard.clear
  congr 1
  funext k
  obtain ⟨p, t⟩ := k
  by_cases hp : p = phoneId
  · subst hp
    simp [clearCallSlot, timerStatus, defaultTimerStatus, TimerStatus.isActive]
  · simp [clearCallSlot, timerStatus, hp, allTimers, setSession, cancel]

theorem board_perform {c : Callback} (hc : c ≠ .onTerminal) :
    (m.perform phoneId c).board = m.board.turns TimerAction.starts (c.report phoneId).toList := by
  cases c with
  | changeCallState action remotePartyNumber =>
    simp only [perform]
    split
    · rfl
    · exact board_pub (fun _ _ => rfl)
  | startTimer timer =>
    simp only [perform, scheduleHlapExpiry, board_schedule, board_reportTimer]
    rfl
  | sendEvent timer status =>
    cases status <;> simp only [perform, board_reportTimer] <;> rfl
  | expiryTimer timer =>
    simp only [perform, board_reportTimer]
    rfl
  | msdTransmissionStatus status => exact board_pub (fun _ _ => rfl)
  | onTerminal => exact absurd rfl hc
  | startRedialTimer delayMs => exact board_schedule _ _
  | onRedial willRedial reason => exact board_pub (fun _ _ => rfl)

theorem board_openSession (corrId : ℕ) (type : EcallType) (isMsdTransmitted : Bool)
    (remotePartyNumber dialNumber : String) :
    (m.openSession corrId phoneId type isMsdTransmitted remotePartyNumber dialNumber).board =
      m.board := by
  unfold openSession
  rw [board_postFifo, board_pubRsp]
  rfl

def reports (phoneId : ℤ) (cs : List Callback) : List ((ℤ × Timer) × TimerAction) :=
  cs.filterMap (Callback.report phoneId)

theorem board_performAll {cs : List Callback} (hcs : .onTerminal ∉ cs) :
    (cs.foldl (perform phoneId) m).board =
      m.board.turns TimerAction.starts (reports phoneId cs) := by
  induction cs generalizing m with
  | nil => rfl
  | cons c cs ih =>
    simp only [List.mem_cons, not_or] at hcs
    rw [List.foldl_cons, ih hcs.2, board_perform (Ne.symm hcs.1)]
    unfold reports turns
    rw [← List.foldl_append]
    cases hr : c.report phoneId <;> simp [hr]

theorem board_drive {r : EcallSession × List Callback} (hr : .onTerminal ∉ r.2) :
    (m.drive phoneId r).board = m.board.turns TimerAction.starts (reports phoneId r.2) :=
  board_performAll hr

end EcallManagerAO

namespace EcallSession

open EcallManagerAO (reports)

def noneRuns (on : Timer → Bool) : Bool := allTimers.all (fun t => !on t)

theorem noneRuns_iff {on : Timer → Bool} : noneRuns on ↔ ∀ t, on t = false := by
  simp [noneRuns, mem_allTimers]

/-- From the CRC check on: the timers that are started are idle. -/
def crcReady (s : EcallSession) (on : Timer → Bool) : Bool :=
  if .t7 ∈ s.failedTimers then !on .t7 else s.isCustomNumberEcall || (!on .t7 && !on .t6)

/-- The MSD is sent: a T5 that is stopped runs. -/
def sendReady (s : EcallSession) (on : Timer → Bool) : Bool :=
  s.isNgEcall || !s.isMsdTransmitted ||
    (if s.msdPull || s.isCustomNumberEcall then s.crcReady on
    else .t5 ∈ s.failedTimers || (on .t5 && s.crcReady on))

/-- The call is set up: T2 and T5 are idle, and T5 runs when the MSD is sent. -/
def startReady (s : EcallSession) (on : Timer → Bool) : Bool :=
  s.redialMode = some .callOrig ||
    ((s.isCustomNumberEcall || (!on .t2 && (s.isNgEcall || !s.isMsdTransmitted || !on .t5))) &&
      s.sendReady (Function.update on .t5 true))

/-- The PSAP hangs up: T2 runs, unless the call is redialled, and T9 does not. -/
def hangupReady (s : EcallSession) (on : Timer → Bool) : Bool :=
  match s.state with
  | .callConnect | .decodeSendMsd | .crcCheckonMsd | .decodeMsd | .callConversation =>
    s.isCustomNumberEcall || (on .t2 && !on .t9)
  | .redialing => s.isCustomNumberEcall || !on .t9
  | .psapCallback | .terminal => true

/-- The user hangs up: the slot is released, with no timer running. -/
def releaseReady (s : EcallSession) (on : Timer → Bool) : Bool :=
  match s.state with
  | .psapCallback => noneRuns on
  | .terminal => true
  | _ => s.isCustomNumberEcall && noneRuns on

def pullReady (s : EcallSession) (on : Timer → Bool) : Bool :=
  s.state ≠ .callConversation || s.isNgEcall || !s.isMsdTransmitted || s.crcReady on

/-- A timer's expiry is heeded: it runs, and one that is started next is idle. -/
def expiryReady (s : EcallSession) (timer : Timer) (mode : OperatingMode) (on : Timer → Bool) :
    Bool :=
  match s.state, timer with
  | .decodeSendMsd, .t5 => .t5 ∉ s.failedTimers || on .t5
  | .crcCheckonMsd, .t7 => on .t7
  | .decodeMsd, .t6 => s.isCustomNumberEcall || s.isNgEcall || on .t6
  | .callConversation, .t2 =>
    s.isCustomNumberEcall || (on .t2 && (s.redialMode = some .callDrop || !on .t9))
  | .psapCallback, .t9 =>
    s.isCustomNumberEcall ||
      (on .t9 && if mode = .ecallOnly then !on .t10 else noneRuns (Function.update on .t9 false))
  | .psapCallback, .t10 => on .t10
  | _, _ => true

def redialReady (s : EcallSession) (on : Timer → Bool) : Bool :=
  s.state ≠ .redialing ||
    (if s.redialConnects then s.sendReady on
    else s.redialAttempt < s.redialTimeGaps.length || s.isCustomNumberEcall || !on .t9)

variable {s : EcallSession} {p : ℤ} {on : ℤ × Timer → Bool}

abbrev RegularReports (p : ℤ) (on : ℤ × Timer → Bool) (cs : List Callback) : Prop :=
  Regular TimerAction.starts on (reports p cs)

theorem regular_crc (hng : s.isNgEcall = false) :
    RegularReports p on s.enterCrcCheckOnMsd.2 ↔ s.crcReady (fun t => on (p, t)) := by
  unfold crcReady enterCrcCheckOnMsd
  by_cases h7 : .t7 ∈ s.failedTimers <;> by_cases h6 : .t6 ∈ s.failedTimers <;>
    cases hc : s.isCustomNumberEcall <;>
    simp [h7, h6, hc, hng, reports, Regular, regulatory, transitionTo, enterDecodeMsd, tell,
      Callback.report, TimerAction.starts, enterCallConversation, RegularReports,
      List.filterMap_cons]

theorem crcReady_congr {on' : Timer → Bool} {on : Timer → Bool} (h7 : on' .t7 = on .t7)
    (h6 : on' .t6 = on .t6) : s.crcReady on' = s.crcReady on := by
  simp only [crcReady, h7, h6]

theorem regular_send :
    RegularReports p on s.enterDecodeSendMsd.2 ↔ s.sendReady (fun t => on (p, t)) := by
  unfold sendReady enterDecodeSendMsd
  cases hng : s.isNgEcall with
  | true =>
    cases hmsd : s.isMsdTransmitted <;> cases hc : s.isCustomNumberEcall <;>
      simp [hng, hc, reports, Regular, regulatory, transitionTo, enterDecodeMsd, tell,
        Callback.report, enterCallConversation, RegularReports, changeCallState,
        List.filterMap_cons]
  | false =>
    have hcrc : ∀ on, RegularReports p on (s.transitionTo .crcCheckonMsd enterCrcCheckOnMsd).2 ↔
        s.crcReady (fun t => on (p, t)) := fun _ => regular_crc hng
    cases hmsd : s.isMsdTransmitted with
    | false =>
      cases hc : s.isCustomNumberEcall <;> cases hpull : s.msdPull <;>
        simp [reports, Regular, transitionTo, tell, Callback.report, enterCallConversation,
          RegularReports, changeCallState, List.filterMap_cons]
    | true =>
      -- the CRC check does not read T5, so stopping it before makes no difference to it
      have hstop := hcrc (Function.update on (p, .t5) false)
      have hsame : s.crcReady (fun t => Function.update on (p, .t5) false (p, t)) =
          s.crcReady (fun t => on (p, t)) := crcReady_congr (by simp) (by simp)
      rw [hsame] at hstop
      have hcrc := hcrc on
      simp only [RegularReports, reports] at hstop hcrc ⊢
      cases hpull : s.msdPull <;> cases hc : s.isCustomNumberEcall <;>
        by_cases h5 : .t5 ∈ s.failedTimers <;>
        simp [hc, h5, hcrc, hstop, Regular, regulatory, tell, Callback.report, TimerAction.starts,
          changeCallState, List.filterMap_cons]

theorem regular_start :
    RegularReports p on s.start.2 ↔ s.startReady (fun t => on (p, t)) := by
  have hsend : ∀ on, RegularReports p on
      ({ s with state := .callConnect }.transitionTo .decodeSendMsd enterDecodeSendMsd).2 ↔
        s.sendReady (fun t => on (p, t)) := fun _ => regular_send
  simp only [RegularReports, reports] at hsend ⊢
  unfold start transitionTo startReady enterCallConnect
  cases hr : s.redial.filter (·.mode = .callOrig) with
  | some r =>
    simp [redialMode_of_filter hr, Regular, tell, enterRedialing, Callback.report,
      changeCallState, List.filterMap_cons]
  | none =>
    have hmode := redial_filter_eq_none.mp hr
    simp only
    generalize ({ s with state := .callConnect }.transitionTo .decodeSendMsd enterDecodeSendMsd) =
      rest at hsend ⊢
    cases hc : s.isCustomNumberEcall <;> cases hng : s.isNgEcall <;>
      cases hmsd : s.isMsdTransmitted <;> by_cases h5 : .t5 ∈ s.failedTimers <;>
      simp [hmode, hc, hng, hmsd, h5, hsend, Regular, regulatory, tell, Callback.report,
        TimerAction.starts, changeCallState, List.filterMap_cons, sendReady, crcReady, and_assoc]

theorem regular_hangup :
    RegularReports p on s.hangup.2 ↔ s.hangupReady (fun t => on (p, t)) := by
  unfold hangupReady hangup
  cases hst : s.state <;> cases hc : s.isCustomNumberEcall <;>
    simp [hc, RegularReports, reports, Regular, regulatory, transitionToPsapCallback, transitionTo,
      enterPsapCallback, tell, Callback.report, TimerAction.starts, changeCallState,
      List.filterMap_cons]

theorem state_hangup (hst : s.state ≠ .terminal) : s.hangup.1.state = .psapCallback := by
  unfold hangup
  cases h : s.state <;>
    simp_all [transitionToPsapCallback, transitionTo, enterPsapCallback, tell]

theorem reports_hangup_custom (hc : s.isCustomNumberEcall) : reports p s.hangup.2 = [] := by
  unfold hangup
  cases s.state <;>
    simp [hc, reports, regulatory, transitionToPsapCallback, transitionTo, enterPsapCallback, tell,
      Callback.report, changeCallState, List.filterMap_cons]

theorem settle_hangup (hc : s.isCustomNumberEcall = false) (hpsap : s.state ≠ .psapCallback)
    (hend : s.state ≠ .terminal) :
    settle TimerAction.starts on (reports p s.hangup.2) (p, .t9) = true := by
  unfold hangup
  cases hst : s.state <;>
    simp_all [reports, regulatory, transitionToPsapCallback, transitionTo, enterPsapCallback, tell,
      Callback.report, changeCallState, List.filterMap_cons, settle, TimerAction.starts]

theorem regular_pull :
    RegularReports p on s.msdPullRequest.2 ↔ s.pullReady (fun t => on (p, t)) := by
  unfold pullReady msdPullRequest
  by_cases hst : s.state = .callConversation
  · cases hng : s.isNgEcall with
    | true =>
      cases hc : s.isCustomNumberEcall <;>
        simp [hst, RegularReports, reports, Regular, regulatory, Callback.report,
          List.filterMap_cons]
    | false =>
      simp only [hst, if_true, Bool.false_eq_true, if_false]
      refine regular_send.trans ?_
      simp [sendReady, crcReady]
  · simp [hst, RegularReports, reports, Regular]

theorem regular_redialExpiry :
    RegularReports p on s.onRedialTimerExpiry.2 ↔ s.redialReady (fun t => on (p, t)) := by
  have hsend : RegularReports p on (s.transitionTo .decodeSendMsd enterDecodeSendMsd).2 ↔
      s.sendReady (fun t => on (p, t)) := regular_send
  simp only [RegularReports, reports] at hsend ⊢
  unfold redialReady onRedialTimerExpiry
  by_cases hst : s.state = .redialing
  · cases hconn : s.redialConnects with
    | true =>
      simp [hst, hsend, tell, Callback.report, changeCallState, List.filterMap_cons]
    | false =>
      cases hgap : s.redialTimeGaps[s.redialAttempt]? with
      | some gap =>
        have hlt := (List.getElem?_eq_some_iff.mp hgap).1
        simp [hst, hlt, Regular, tell, Callback.report, changeCallState, List.filterMap_cons]
      | none =>
        have hge := List.getElem?_eq_none_iff.mp hgap
        cases hc : s.isCustomNumberEcall <;>
          simp [hst, hc, hge, Regular, regulatory, transitionToPsapCallback, transitionTo,
            enterPsapCallback, tell, Callback.report, TimerAction.starts, changeCallState,
            List.filterMap_cons]
  · simp [hst, Regular]

theorem regular_hlapExpiry {timer : Timer} {mode : OperatingMode} (h : ¬ s.endsCall timer mode) :
    RegularReports p on (s.onHlapTimerExpiry timer mode).2 ↔
      s.expiryReady timer mode (fun t => on (p, t)) := by
  unfold expiryReady onHlapTimerExpiry
  -- all other expiries are ignored, and nothing is asked of them
  cases hst : s.state <;> cases timer <;> simp [RegularReports, reports, Regular]
  case decodeSendMsd.t5 =>
    by_cases h5 : .t5 ∈ s.failedTimers <;>
      simp [h5, Regular, transmissionFailure, transitionTo, enterCallConversation, tell,
        Callback.report, TimerAction.starts, List.filterMap_cons]
  case crcCheckonMsd.t7 =>
    simp [Regular, transmissionFailure, transitionTo, enterCallConversation, tell,
      Callback.report, TimerAction.starts, List.filterMap_cons]
  case decodeMsd.t6 =>
    cases hc : s.isCustomNumberEcall <;> cases hng : s.isNgEcall <;>
      simp [Regular, transmissionFailure, transitionTo, enterCallConversation, tell,
        Callback.report, TimerAction.starts, List.filterMap_cons]
  case callConversation.t2 =>
    cases hc : s.isCustomNumberEcall with
    | true => simp [Regular]
    | false =>
      cases hr : s.redial.filter (·.mode = .callDrop) with
      | some r =>
        simp [redialMode_of_filter hr, Regular, tell, enterRedialing, Callback.report,
          TimerAction.starts, changeCallState, List.filterMap_cons]
      | none =>
        simp [redial_filter_eq_none.mp hr, hc, Regular, tell, transitionToPsapCallback,
          transitionTo, enterPsapCallback, regulatory, Callback.report, TimerAction.starts,
          changeCallState, List.filterMap_cons]
  case psapCallback.t9 =>
    cases hc : s.isCustomNumberEcall with
    | true => simp [Regular]
    | false =>
      have hmode : mode = .ecallOnly := by
        by_contra hne
        exact h ⟨hst, rfl, hc, hne⟩
      simp [hmode, Regular, tell, Callback.report, TimerAction.starts]
  case psapCallback.t10 =>
    simp [Regular, Callback.report, TimerAction.starts]

end EcallSession

namespace EcallManagerAO

open EcallSession (RegularReports)

variable {m : EcallManagerAO} {phoneId : ℤ}

def running (m : EcallManagerAO) (phoneId : ℤ) (timer : Timer) : Bool :=
  (m.timerStatus phoneId timer).isActive

/-- The phone's session, if there is one, finds its timers as the condition asks. -/
def finds (m : EcallManagerAO) (phoneId : ℤ)
    (ready : EcallSession → (Timer → Bool) → Bool) : Bool :=
  (m.sessions phoneId).all (fun s => ready s (m.running phoneId))

/-- The event finds the timers as it needs them. -/
def timely (m : EcallManagerAO) : Event → Bool
  | .messageReceived _ (.startEcall phoneId _ _ _ _) =>
    (m.sessions phoneId).all (fun s =>
      !(s.state = .psapCallback || s.state = .terminal) ||
        EcallSession.noneRuns (m.running phoneId))
  | .messageReceived _ (.endEcall phoneId callIndex) =>
    m.finds phoneId (fun s on => s.callIndex ≠ callIndex || s.releaseReady on)
  | .sessionStart phoneId => m.finds phoneId EcallSession.startReady
  | .sessionHangup phoneId => m.finds phoneId EcallSession.releaseReady
  | .sessionHangupFromPsap phoneId => m.finds phoneId EcallSession.hangupReady
  | .sessionMsdPull phoneId => m.finds phoneId EcallSession.pullReady
  | .timerExpiry (.hlap phoneId timer) =>
    m.finds phoneId (fun s => s.expiryReady timer (m.getOperatingMode phoneId))
  | .timerExpiry (.redial phoneId) => m.finds phoneId EcallSession.redialReady
  | _ => true

theorem agrees_congr {m' : EcallManagerAO} (h : m'.board = m.board) : m'.Agrees ↔ m.Agrees := by
  rw [agrees_iff_faithful, agrees_iff_faithful, h]

theorem board_dispatchMessage (corrId : ℕ) {q : Request} (hq : q.concernsCall = false) :
    (m.dispatchMessage corrId q).board = m.board := by
  cases q with
  | startEcall | endEcall | requestNetworkDeregistration => cases hq
  | answerEcall p callIndex =>
    simp only [dispatchMessage, handleAnswerEcall]
    split <;> exact board_sendError ..
  | sendMsd p =>
    simp only [dispatchMessage, handleSendMsd]
    split
    · exact board_sendError ..
    · rw [board_postFifo, board_pubRsp]
  | updateHlapTimer p type duration =>
    simp only [dispatchMessage, handleUpdateHlapTimer]
    split
    · exact board_sendError ..
    · exact board_pubRsp ..
  | requestHlapTimer p type =>
    simp only [dispatchMessage, handleRequestHlapTimer]
    split
    · exact board_sendError ..
    · exact board_pubRsp ..
  | configureEcallRedial config timeGap =>
    simp only [dispatchMessage, handleConfigureEcallRedial]
    split
    · exact board_pubRsp ..
    · exact board_sendError ..
  | setOperatingMode p mode => exact (board_pub (fun _ _ => rfl)).trans (board_pubRsp ..)
  | setConfig data => exact board_pubRsp ..
  | _ => exact board_pubRsp ..

section Agrees

variable (h : m.Agrees)

include h

theorem agrees_drive {r : EcallSession × List Callback} (hr : EcallSession.Keeps r) :
    (m.drive phoneId r).Agrees ↔ RegularReports phoneId m.board.on r.2 := by
  rw [agrees_iff_faithful, board_drive hr]
  exact faithful_turns_iff (agrees_iff_faithful.mp h) _

theorem agrees_runSession {f : EcallSession → EcallSession × List Callback}
    {ready : EcallSession → (Timer → Bool) → Bool} (hkeeps : ∀ s, EcallSession.Keeps (f s))
    (hready : ∀ s, RegularReports phoneId m.board.on (f s).2 ↔ ready s (m.running phoneId)) :
    (m.runSession phoneId f).Agrees ↔ m.finds phoneId ready := by
  unfold runSession finds
  cases m.sessions phoneId with
  | none => simpa using h
  | some s => simpa using (agrees_drive h (hkeeps s)).trans (hready s)

theorem agrees_release {r : EcallSession × List Callback} (hr : EcallSession.Keeps r) :
    ((m.drive phoneId r).clearCallSlot phoneId).Agrees ↔
      RegularReports phoneId m.board.on r.2 ∧
        ∀ t, settle TimerAction.starts m.board.on (reports phoneId r.2) (phoneId, t) = false := by
  rw [agrees_iff_faithful, board_clearCallSlot, board_drive hr,
    faithful_clear_turns_iff (agrees_iff_faithful.mp h)]
  refine and_congr_right (fun _ => ⟨fun hoff t => hoff (phoneId, t) (by simp), ?_⟩)
  rintro hoff ⟨p, t⟩ hp
  obtain rfl : p = phoneId := by simpa using hp
  exact hoff t

/-- A slot may be released without a report exactly if no timer runs. -/
theorem agrees_release_quiet {r : EcallSession × List Callback} (hr : EcallSession.Keeps r)
    (hquiet : reports phoneId r.2 = []) :
    ((m.drive phoneId r).clearCallSlot phoneId).Agrees ↔
      EcallSession.noneRuns (m.running phoneId) := by
  rw [agrees_release h hr, RegularReports, hquiet, EcallSession.noneRuns_iff]
  exact and_iff_right trivial

theorem agrees_clearCallSlot :
    (m.clearCallSlot phoneId).Agrees ↔ EcallSession.noneRuns (m.running phoneId) := by
  have hfaithful := agrees_iff_faithful.mp h
  have hclear := faithful_clear_turns_iff hfaithful (fun k => k.1 = phoneId) []
  rw [agrees_iff_faithful, board_clearCallSlot, EcallSession.noneRuns_iff]
  refine hclear.trans ?_
  simp only [Regular, true_and, settle, List.foldl_nil, Prod.forall, decide_eq_true_eq]
  exact ⟨fun hoff t => hoff phoneId t rfl, fun hoff p t hp => hp ▸ hoff t⟩

theorem agrees_hangupFromUser (s : EcallSession) :
    (m.hangupFromUser phoneId s).Agrees ↔ s.releaseReady (m.running phoneId) := by
  by_cases hend : s.state = .terminal
  · have hnone : s.hangup = (s, []) := by simp [EcallSession.hangup, hend]
    have hsame : (m.drive phoneId (s, [])).Agrees := (agrees_congr rfl).mpr h
    simpa [hangupFromUser, hnone, hend, EcallSession.releaseReady] using hsame
  simp only [hangupFromUser, EcallSession.state_hangup hend, if_true]
  by_cases hpsap : s.state = .psapCallback
  · have hnone : s.hangup = (s, []) := by simp [EcallSession.hangup, hpsap]
    rw [agrees_release_quiet h s.keeps_hangup (by rw [hnone]; rfl)]
    simp [EcallSession.releaseReady, hpsap]
  have hready : s.releaseReady (m.running phoneId) =
      (s.isCustomNumberEcall && EcallSession.noneRuns (m.running phoneId)) := by
    unfold EcallSession.releaseReady
    cases hst : s.state <;> simp_all
  rw [hready]
  cases hc : s.isCustomNumberEcall with
  | true =>
    rw [agrees_release_quiet h s.keeps_hangup (EcallSession.reports_hangup_custom hc),
      Bool.true_and]
  | false =>
    -- T9 has been started, and nobody is told that it is dropped
    rw [agrees_release h s.keeps_hangup]
    simp only [Bool.false_and, Bool.false_eq_true, iff_false, not_and]
    intro _ hoff
    have hon : settle TimerAction.starts m.board.on (reports phoneId s.hangup.2) (phoneId, .t9) =
        true := EcallSession.settle_hangup hc hpsap hend
    rw [hoff .t9] at hon
    cases hon

theorem agrees_hlapExpiry (s : EcallSession) (timer : Timer) (mode : OperatingMode) :
    (m.drive phoneId (s.onHlapTimerExpiry timer mode)).Agrees ↔
      s.expiryReady timer mode (m.running phoneId) := by
  by_cases hends : s.endsCall timer mode
  · -- EXPIRED is published, then the slot is released
    have hrun : m.drive phoneId (s.onHlapTimerExpiry timer mode) =
        (m.drive phoneId ({ s with state := .terminal }, [.expiryTimer .t9])).clearCallSlot
          phoneId := by
      rw [EcallSession.onHlapTimerExpiry_of_endsCall hends]
      rfl
    rw [hrun, agrees_release h (by simp)]
    obtain ⟨hst, rfl, hc, hmode⟩ := hends
    have hon : ∀ t, m.board.on (phoneId, t) = m.running phoneId t := fun _ => rfl
    simp [EcallSession.expiryReady, hst, hc, hmode, RegularReports, reports, Callback.report,
      Regular, TimerAction.starts, settle, EcallSession.noneRuns_iff, Function.update_apply, hon]
  · rw [agrees_drive h (EcallSession.keeps_hlapExpiry hends), EcallSession.regular_hlapExpiry hends]
    rfl

theorem agrees_handleStartEcall (corrId : ℕ) (type : EcallType) (isMsdTransmitted : Bool)
    (remotePartyNumber dialNumber : String) :
    (m.handleStartEcall corrId phoneId type isMsdTransmitted remotePartyNumber dialNumber).Agrees ↔
      m.timely (.messageReceived corrId
        (.startEcall phoneId type isMsdTransmitted remotePartyNumber dialNumber)) := by
  cases hs : m.sessions phoneId with
  | none =>
    simp only [handleStartEcall, timely, hs, Option.all_none, iff_true]
    exact (agrees_congr (board_openSession ..)).mpr h
  | some s =>
    by_cases hst : s.state = .psapCallback ∨ s.state = .terminal
    · simp only [handleStartEcall, timely, hs, if_pos hst]
      rw [agrees_congr (board_openSession ..), agrees_clearCallSlot h]
      rcases hst with hst | hst <;> simp [hst]
    · simp only [handleStartEcall, timely, hs, if_neg hst]
      rw [agrees_congr (board_sendError ..)]
      rw [not_or] at hst
      simpa [hst.1, hst.2] using h

theorem agrees_handleEndEcall (corrId : ℕ) (callIndex : ℤ) :
    (m.handleEndEcall corrId phoneId callIndex).Agrees ↔
      m.timely (.messageReceived corrId (.endEcall phoneId callIndex)) := by
  cases hs : m.sessions phoneId with
  | none =>
    simp only [handleEndEcall, timely, finds, hs, Option.filter_none, Option.all_none, iff_true]
    exact (agrees_congr (board_sendError ..)).mpr h
  | some s =>
    by_cases hidx : (s.callIndex : ℤ) = callIndex
    · simp only [handleEndEcall, timely, finds, hs, Option.filter_some, hidx, decide_true, if_true]
      rw [agrees_congr (board_pubRsp ..), agrees_hangupFromUser h]
      simp [hidx]
    · simp only [handleEndEcall, timely, finds, hs, Option.filter_some, hidx, decide_false,
        Bool.false_eq_true, if_false]
      rw [agrees_congr (board_sendError ..)]
      simpa [hidx] using h

/-- The guard of the deregistration: T10 is there to be stopped. -/
theorem agrees_deregistration (corrId : ℕ) :
    (m.handleRequestNetworkDeregistration corrId phoneId).Agrees := by
  unfold handleRequestNetworkDeregistration
  split
  · exact (agrees_congr (board_sendError ..)).mpr h
  · rename_i hmay
    have h10 : m.board.on (phoneId, .t10) = true := by
      simp [mayDeregister] at hmay
      simp [board, hmay.2, TimerStatus.isActive]
    have hpub : (m.pubRsp corrId .empty).Agrees := (agrees_congr (board_pubRsp ..)).mpr h
    dsimp only
    split
    · exact hpub
    · rename_i s hs
      rw [agrees_drive hpub s.keeps_deregistration, board_pubRsp]
      unfold EcallSession.networkDeregistrationRequest
      split_ifs <;> simp [RegularReports, reports, Callback.report, Regular, TimerAction.starts, h10]

theorem agrees_handleEvent (e : Event) : (m.handleEvent e).Agrees ↔ m.timely e := by
  cases e with
  | messageReceived corrId q =>
    cases q with
    | startEcall p type msd remote dial => exact agrees_handleStartEcall h ..
    | endEcall p callIndex => exact agrees_handleEndEcall h ..
    | requestNetworkDeregistration p => exact iff_of_true (agrees_deregistration h corrId) rfl
    | _ => exact iff_of_true ((agrees_congr (board_dispatchMessage corrId rfl)).mpr h) rfl
  | sessionStart p =>
    exact agrees_runSession h (fun s => s.keeps_start) (fun _ => EcallSession.regular_start)
  | sessionHangup p =>
    simp only [handleEvent, runSessionHangup, timely, finds, Bool.false_eq_true, if_false]
    cases m.sessions p with
    | none => simpa using h
    | some s => exact agrees_hangupFromUser h s
  | sessionHangupFromPsap p =>
    exact agrees_runSession h (fun s => s.keeps_hangup) (fun _ => EcallSession.regular_hangup)
  | sessionMsdPull p =>
    exact agrees_runSession h (fun s => s.keeps_pull) (fun _ => EcallSession.regular_pull)
  | timerExpiry key =>
    -- forgetting the uuid is no matter of the timers
    have hforget : ({ m with timerUuids := Function.update m.timerUuids key none }).Agrees :=
      (agrees_congr rfl).mpr h
    cases key with
    | redial p =>
      exact agrees_runSession hforget (fun s => s.keeps_redialExpiry)
        (fun _ => EcallSession.regular_redialExpiry)
    | hlap p timer =>
      simp only [handleEvent, runTimerExpiry, runSession, timely, finds]
      cases m.sessions p with
      | none => simpa using hforget
      | some s => exact agrees_hlapExpiry hforget s timer _
  | forceTimerFailure timer =>
    refine iff_of_true ((agrees_congr ?_).mpr h) rfl
    simp only [handleEvent, applyForceTimerFailure]
    split <;> rfl
  | forceRedialMode config n => exact iff_of_true ((agrees_congr rfl).mpr h) rfl
  | resubscribe => exact iff_of_true ((agrees_congr (board_pub (fun _ _ => rfl))).mpr h) rfl
  | stop => exact iff_of_true ((agrees_congr (board_pub (fun _ _ => rfl))).mpr h) rfl

end Agrees

/-- The step handles nothing, or an event that finds the timers as it needs them. -/
def inTime (m : EcallManagerAO) : Label → Bool
  | .handle => m.fifo.head?.all m.timely
  | _ => true

theorem step_agrees {m' : EcallManagerAO} {l : Label} (h : m.Agrees) (hstep : m.step l = some m') :
    m.inTime l ↔ m'.Agrees := by
  cases l with
  | elapse uuid =>
    obtain ⟨key, -, rfl⟩ := Option.map_eq_some_iff.mp hstep
    exact iff_of_true rfl ((agrees_congr rfl).mpr h)
  | handle =>
    simp only [step, handle] at hstep
    cases hfifo : m.fifo with
    | nil =>
      rw [hfifo] at hstep
      cases hstep
    | cons e fifo =>
      simp only [hfifo, Option.ite_none_left_eq_some, Option.some.injEq] at hstep
      obtain ⟨-, rfl⟩ := hstep
      have htaken : ({ m with fifo := fifo }).Agrees := (agrees_congr rfl).mpr h
      simp only [inTime, hfifo, List.head?_cons, Option.all_some]
      exact (agrees_handleEvent htaken e).symm
  | _ =>
    cases hstep
    exact iff_of_true rfl ((agrees_congr (board_postFifo _)).mpr h)

theorem ready_agrees (isNgEcallDevice : Bool) : (ready isNgEcallDevice).Agrees := by
  intro p t
  refine ⟨alternates_nil, ?_⟩
  simp [ready, timerStatus, defaultTimerStatus, actions, Publication.action]

/-- Along a run the events of every timer take turns and its status follows them, if and only if
every event that is handled finds the timers as it needs them. -/
theorem agrees_iff_inTime (isNgEcallDevice : Bool) {l : List Label} {m : EcallManagerAO}
    (hrun : Trace.run step (ready isNgEcallDevice) l = some m) :
    Trace.Always step Agrees (ready isNgEcallDevice) l ↔
      Trace.AllSteps step (fun m l => m.inTime l) (ready isNgEcallDevice) l := by
  refine Trace.always_iff_allSteps (J := fun _ => True) (fun _ _ _ _ _ => trivial) ?_ hrun trivial
    (ready_agrees isNgEcallDevice)
  intro m l m' _ h hstep
  exact step_agrees h hstep

/-- A call with an MSD is ended by T2, and T9 runs out. -/
def expiredRun : List Label :=
  [.handleMessage 0 (.startEcall 1 .test true "" ""), .handle, .handle, .elapse 0, .handle,
    .elapse 1, .handle]

def endedRun : List Label :=
  [.handleMessage 0 (.startEcall 1 .test false "" ""), .handle, .handle,
    .handleMessage 1 (.endEcall 1 1), .handle]

theorem agrees_expiredRun :
    ∃ m, Trace.run step (ready false) expiredRun = some m ∧
      m.actions 1 .t9 = [.started, .expired] ∧ m.sessions 1 = none ∧
      Trace.Always step Agrees (ready false) expiredRun := by
  have hrun : (Trace.run step (ready false) expiredRun).map
      (fun m => (m.actions 1 .t9, m.sessions 1)) = some ([.started, .expired], none) := by
    decide +kernel
  obtain ⟨m, hm, heq⟩ := Option.map_eq_some_iff.mp hrun
  obtain ⟨hactions, hsession⟩ := Prod.mk.inj heq
  exact ⟨m, hm, hactions, hsession, (agrees_iff_inTime _ hm).mpr (by decide +kernel)⟩

/-- T9 is reported inactive, and the last that was told of it is STARTED. -/
theorem ended_drops_t9 :
    ∃ m, Trace.run step (ready false) endedRun = some m ∧ m.actions 1 .t9 = [.started] ∧
      m.timerStatus 1 .t9 = .inactive ∧ ¬ m.Agrees := by
  have hrun : (Trace.run step (ready false) endedRun).map
      (fun m => (m.actions 1 .t9, m.timerStatus 1 .t9)) = some ([.started], .inactive) := by
    decide +kernel
  obtain ⟨m, hm, heq⟩ := Option.map_eq_some_iff.mp hrun
  obtain ⟨hactions, hstatus⟩ := Prod.mk.inj heq
  refine ⟨m, hm, hactions, hstatus, ?_⟩
  intro h
  have h9 := (h 1 .t9).2
  rw [hactions, hstatus] at h9
  exact absurd (h9.mpr rfl) (by decide)

end EcallManagerAO

end TelafSim.Ecall
