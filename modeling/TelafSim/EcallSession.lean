import Mathlib.Data.Finset.Insert
import Mathlib.Data.Int.Order.Basic
import Mathlib.Tactic

/-!
# An eCall

`EcallSession` of `sml/mpss/ecall/session.py`. A session is driven synchronously by its manager and
reads nothing back from it but the operating mode. So an entry point is a function of the session
that returns the session in its new state, with the callbacks it made in the order it made them.
-/

namespace TelafSim.Ecall

/-- The HLAP timers. -/
inductive Timer
  | t2
  | t5
  | t6
  | t7
  | t9
  | t10
  deriving DecidableEq, Repr

inductive SessionState
  | callConnect
  | decodeSendMsd
  | crcCheckonMsd
  | decodeMsd
  | callConversation
  | psapCallback
  | terminal
  | redialing
  deriving DecidableEq, Repr

inductive RedialMode
  | callOrig
  | callDrop
  deriving DecidableEq, Repr

inductive OperatingMode
  | normal
  | ecallOnly
  | none
  deriving DecidableEq, Repr

inductive Direction
  | mo
  | mt
  deriving DecidableEq, Repr

inductive CallAction
  | callDialing
  | callAlerting
  | callActive
  | callEnded
  deriving DecidableEq, Repr

inductive MsdStatus
  | startReceived
  | msdTransmissionStarted
  | msdTransmissionSuccess
  | msdTransmissionFailure
  | llAckReceived
  | outbandMsdTransmissionStarted
  | outbandMsdTransmissionSuccess
  deriving DecidableEq, Repr

inductive RedialReason
  | callOrigFailure
  | callDrop
  | maxRedialAttempted
  | callConnected
  deriving DecidableEq, Repr

/-- The two statuses `send_event` knows. -/
inductive TimerCommand
  | start
  | stop
  deriving DecidableEq, Repr

/-- A call of one of the closures in `SessionCallbacks`. -/
inductive Callback
  | changeCallState (action : CallAction) (remotePartyNumber : String)
  | startTimer (timer : Timer)
  | sendEvent (timer : Timer) (status : TimerCommand)
  | expiryTimer (timer : Timer)
  | msdTransmissionStatus (status : MsdStatus)
  | onTerminal
  | startRedialTimer (delayMs : ℤ)
  | onRedial (willRedial : Bool) (reason : RedialReason)
  deriving DecidableEq, Repr

/-- The redialling a call was started with: a table of gaps is never empty. -/
structure Redial where
  mode : RedialMode
  succeedAt : Option ℤ
  timeGaps : List ℤ
  nonempty : timeGaps ≠ []
  deriving DecidableEq

/-- The wait before the first attempt. -/
def Redial.firstGap (r : Redial) : ℤ := r.timeGaps.head r.nonempty

structure EcallSession where
  callIndex : ℕ
  remotePartyNumber : String
  isMsdTransmitted : Bool
  isNgEcall : Bool
  isCustomNumberEcall : Bool
  direction : Direction
  failedTimers : Finset Timer
  /-- `None` dials normally. -/
  redial : Option Redial
  redialAttempt : ℕ
  updateInProgress : Bool
  /-- `_event_id` is MSD_PULL_REQUEST_FROM_PSAP: once set it is never cleared. -/
  msdPull : Bool
  state : SessionState
  deriving DecidableEq

namespace EcallSession

def redialMode (s : EcallSession) : Option RedialMode := s.redial.map Redial.mode

def redialSucceedAt (s : EcallSession) : Option ℤ := s.redial.bind Redial.succeedAt

def redialTimeGaps (s : EcallSession) : List ℤ := (s.redial.map Redial.timeGaps).getD []

/-- Callbacks made for a regulatory number only. -/
def regulatory (s : EcallSession) (cs : List Callback) : List Callback :=
  if s.isCustomNumberEcall then [] else cs

def changeCallState (s : EcallSession) (action : CallAction) : Callback :=
  .changeCallState action s.remotePartyNumber

def tell (cs : List Callback) (r : EcallSession × List Callback) : EcallSession × List Callback :=
  (r.1, cs ++ r.2)

def transitionTo (state : SessionState) (enter : EcallSession → EcallSession × List Callback)
    (s : EcallSession) : EcallSession × List Callback :=
  enter { s with state := state }

def enterCallConversation (s : EcallSession) : EcallSession × List Callback := (s, [])

def enterPsapCallback (s : EcallSession) : EcallSession × List Callback :=
  (s, s.regulatory [.startTimer .t9])

def transitionToPsapCallback (s : EcallSession) : EcallSession × List Callback :=
  s.transitionTo .psapCallback enterPsapCallback

def endUpdate (s : EcallSession) : EcallSession :=
  if s.msdPull then { s with updateInProgress := false } else s

def enterDecodeMsd (s : EcallSession) : EcallSession × List Callback :=
  if !s.isNgEcall then
    if .t6 ∉ s.failedTimers then
      tell (s.regulatory [.sendEvent .t6 .start] ++
          [.msdTransmissionStatus .msdTransmissionSuccess] ++ s.regulatory [.sendEvent .t6 .stop])
        (s.endUpdate.transitionTo .callConversation enterCallConversation)
    else
      -- a custom number waits here as well, but for nothing
      (s, s.regulatory [.startTimer .t6])
  else
    tell [.msdTransmissionStatus .outbandMsdTransmissionSuccess]
      (s.endUpdate.transitionTo .callConversation enterCallConversation)

def enterCrcCheckOnMsd (s : EcallSession) : EcallSession × List Callback :=
  if .t7 ∉ s.failedTimers then
    let r := s.transitionTo .decodeMsd enterDecodeMsd
    (r.1, s.regulatory [.sendEvent .t7 .start] ++ r.2 ++
      s.regulatory [.sendEvent .t7 .stop, .msdTransmissionStatus .llAckReceived])
  else (s, [.startTimer .t7])

def enterDecodeSendMsd (s : EcallSession) : EcallSession × List Callback :=
  if !s.isNgEcall then
    if s.isMsdTransmitted then
      if s.msdPull then
        tell (s.regulatory [.msdTransmissionStatus .startReceived] ++
            [.msdTransmissionStatus .msdTransmissionStarted])
          (s.transitionTo .crcCheckonMsd enterCrcCheckOnMsd)
      else
        tell [.msdTransmissionStatus .msdTransmissionStarted, s.changeCallState .callActive]
          (if !s.isCustomNumberEcall then
            tell [.msdTransmissionStatus .startReceived]
              (if .t5 ∉ s.failedTimers then
                tell [.sendEvent .t5 .stop] (s.transitionTo .crcCheckonMsd enterCrcCheckOnMsd)
              else (s, []))
          else s.transitionTo .crcCheckonMsd enterCrcCheckOnMsd)
    else
      tell ((if !s.isCustomNumberEcall && s.msdPull then
            [.msdTransmissionStatus .msdTransmissionStarted]
          else []) ++ [s.changeCallState .callActive])
        (s.transitionTo .callConversation enterCallConversation)
  else
    if s.isMsdTransmitted then
      tell (s.regulatory [.msdTransmissionStatus .outbandMsdTransmissionStarted] ++
          [s.changeCallState .callActive])
        (s.transitionTo .decodeMsd enterDecodeMsd)
    else s.transitionTo .callConversation enterCallConversation

def enterRedialing (r : Redial) (s : EcallSession) : EcallSession × List Callback :=
  ({ s with state := .redialing, redialAttempt := 1 }, [.startRedialTimer r.firstGap])

def enterCallConnect (s : EcallSession) : EcallSession × List Callback :=
  tell [s.changeCallState .callDialing]
    (match s.redial.filter (·.mode = .callOrig) with
    | some r => tell [s.changeCallState .callEnded] (s.enterRedialing r)
    | none =>
      tell ([s.changeCallState .callAlerting] ++ s.regulatory [.startTimer .t2] ++
          (if !s.isCustomNumberEcall && !s.isNgEcall && s.isMsdTransmitted then
            if .t5 ∉ s.failedTimers then [.sendEvent .t5 .start] else [.startTimer .t5]
          else []))
        (s.transitionTo .decodeSendMsd enterDecodeSendMsd))

def start (s : EcallSession) : EcallSession × List Callback :=
  s.transitionTo .callConnect enterCallConnect

def hangup (s : EcallSession) : EcallSession × List Callback :=
  match s.state with
  | .callConnect | .decodeSendMsd | .crcCheckonMsd | .decodeMsd | .callConversation =>
    tell ([s.changeCallState .callEnded] ++ s.regulatory [.sendEvent .t2 .stop])
      s.transitionToPsapCallback
  | .redialing => tell [s.changeCallState .callEnded] s.transitionToPsapCallback
  | .psapCallback | .terminal => (s, [])

def msdPullRequest (s : EcallSession) : EcallSession × List Callback :=
  let s := { s with msdPull := true }
  if s.state = .callConversation then
    if s.isNgEcall then
      ({ s with updateInProgress := false },
        s.regulatory [.msdTransmissionStatus .outbandMsdTransmissionStarted] ++
          [.msdTransmissionStatus .outbandMsdTransmissionSuccess])
    else { s with updateInProgress := true }.transitionTo .decodeSendMsd enterDecodeSendMsd
  else (s, [])

def networkDeregistrationRequest (s : EcallSession) : EcallSession × List Callback :=
  if s.state = .psapCallback && !s.isCustomNumberEcall then (s, [.sendEvent .t10 .stop]) else (s, [])

/-- A timer that ran out during the transmission of the MSD. -/
def transmissionFailure (timer : Timer) (s : EcallSession) : EcallSession × List Callback :=
  tell [.expiryTimer timer, .msdTransmissionStatus .msdTransmissionFailure]
    (s.transitionTo .callConversation enterCallConversation)

def onHlapTimerExpiry (timer : Timer) (mode : OperatingMode) (s : EcallSession) :
    EcallSession × List Callback :=
  if s.state = .decodeSendMsd ∧ timer = .t5 ∧ .t5 ∈ s.failedTimers then s.transmissionFailure .t5
  else if s.state = .crcCheckonMsd ∧ timer = .t7 then s.transmissionFailure .t7
  else if s.state = .decodeMsd ∧ timer = .t6 ∧ !s.isCustomNumberEcall ∧ !s.isNgEcall then
    s.transmissionFailure .t6
  else if s.state = .callConversation ∧ timer = .t2 ∧ !s.isCustomNumberEcall then
    tell [.expiryTimer .t2, s.changeCallState .callEnded]
      (match s.redial.filter (·.mode = .callDrop) with
      | some r => s.enterRedialing r
      | none => s.transitionToPsapCallback)
  else if s.state = .psapCallback ∧ timer = .t9 then
    if !s.isCustomNumberEcall then
      tell [.expiryTimer .t9]
        (if mode ≠ .ecallOnly then ({ s with state := .terminal }, [.onTerminal])
        else (s, [.startTimer .t10]))
    else (s, [])
  else if s.state = .psapCallback ∧ timer = .t10 then (s, [.expiryTimer .t10])
  else (s, [])

def redialReason (s : EcallSession) : RedialReason :=
  if s.redialMode = some .callOrig then .callOrigFailure else .callDrop

/-- The attempt under way is the one that connects. -/
def redialConnects (s : EcallSession) : Bool := s.redialSucceedAt = some (s.redialAttempt : ℤ)

def onRedialTimerExpiry (s : EcallSession) : EcallSession × List Callback :=
  if s.state ≠ .redialing then (s, [])
  else
    tell [s.changeCallState .callDialing]
      (if s.redialConnects then
        tell [s.changeCallState .callActive, .onRedial false .callConnected]
          (s.transitionTo .decodeSendMsd enterDecodeSendMsd)
      else
        tell [s.changeCallState .callEnded]
          (match s.redialTimeGaps[s.redialAttempt]? with
          | some gap =>
            ({ s with redialAttempt := s.redialAttempt + 1 },
              [.onRedial true s.redialReason, .startRedialTimer gap])
          | none => tell [.onRedial false .maxRedialAttempted] s.transitionToPsapCallback))

section Outcomes

variable {s : EcallSession}

theorem redial_filter_eq_none {mode : RedialMode} :
    s.redial.filter (·.mode = mode) = none ↔ s.redialMode ≠ some mode := by
  unfold redialMode
  cases s.redial <;> simp

theorem redialMode_of_filter {mode : RedialMode} {r : Redial}
    (h : s.redial.filter (·.mode = mode) = some r) : s.redialMode = some mode := by
  by_contra hne
  rw [redial_filter_eq_none.mpr hne] at h
  cases h

def endsCall (s : EcallSession) (timer : Timer) (mode : OperatingMode) : Prop :=
  s.state = .psapCallback ∧ timer = .t9 ∧ s.isCustomNumberEcall = false ∧ mode ≠ .ecallOnly

theorem onHlapTimerExpiry_of_endsCall {timer : Timer} {mode : OperatingMode}
    (h : s.endsCall timer mode) :
    s.onHlapTimerExpiry timer mode =
      ({ s with state := .terminal }, [.expiryTimer .t9, .onTerminal]) := by
  obtain ⟨hst, rfl, hc, hmode⟩ := h
  simp [onHlapTimerExpiry, hst, hc, hmode, tell]

/-- What the expiry of a HLAP timer comes to, with what the state was. -/
inductive HlapReaction (s : EcallSession) :
    Timer → OperatingMode → EcallSession × List Callback → Prop
  | failed {timer : Timer} {mode : OperatingMode}
      (hst : s.state = .decodeSendMsd ∨ s.state = .crcCheckonMsd ∨ s.state = .decodeMsd) :
    HlapReaction s timer mode (s.transmissionFailure timer)
  | redialed {mode : OperatingMode} {r : Redial} (hst : s.state = .callConversation)
      (hr : s.redial.filter (·.mode = .callDrop) = some r) :
    HlapReaction s .t2 mode
      (tell [.expiryTimer .t2, s.changeCallState .callEnded] (s.enterRedialing r))
  | calledBack {mode : OperatingMode} (hst : s.state = .callConversation) :
    HlapReaction s .t2 mode
      (tell [.expiryTimer .t2, s.changeCallState .callEnded] s.transitionToPsapCallback)
  | ended {timer : Timer} {mode : OperatingMode} (hends : s.endsCall timer mode) :
    HlapReaction s timer mode ({ s with state := .terminal }, [.expiryTimer .t9, .onTerminal])
  | goesOn {mode : OperatingMode} (hst : s.state = .psapCallback) :
    HlapReaction s .t9 mode (s, [.expiryTimer .t9, .startTimer .t10])
  | expired {mode : OperatingMode} (hst : s.state = .psapCallback) :
    HlapReaction s .t10 mode (s, [.expiryTimer .t10])
  | ignored {timer : Timer} {mode : OperatingMode} : HlapReaction s timer mode (s, [])

theorem reaction_hlapExpiry (s : EcallSession) (timer : Timer) (mode : OperatingMode) :
    HlapReaction s timer mode (s.onHlapTimerExpiry timer mode) := by
  unfold onHlapTimerExpiry
  split
  · rename_i h
    obtain ⟨hst, rfl, -⟩ := h
    exact .failed (.inl hst)
  split
  · rename_i h
    obtain ⟨hst, rfl⟩ := h
    exact .failed (.inr (.inl hst))
  split
  · rename_i h
    obtain ⟨hst, rfl, -⟩ := h
    exact .failed (.inr (.inr hst))
  split
  · rename_i h
    obtain ⟨hst, rfl, -⟩ := h
    cases hr : s.redial.filter (·.mode = .callDrop) with
    | some r => exact .redialed hst hr
    | none => exact .calledBack hst
  split
  · rename_i h
    obtain ⟨hst, rfl⟩ := h
    split
    · rename_i hc
      split
      · rename_i hmode
        exact .ended ⟨hst, rfl, by simpa using hc, hmode⟩
      · exact .goesOn hst
    · exact .ignored
  split
  · rename_i h
    obtain ⟨hst, rfl⟩ := h
    exact .expired hst
  · exact .ignored

/-- The slot is kept. -/
def Keeps (r : EcallSession × List Callback) : Prop := .onTerminal ∉ r.2

@[simp] theorem keeps_mk (cs : List Callback) : Keeps (s, cs) ↔ .onTerminal ∉ cs := Iff.rfl

@[simp] theorem keeps_tell (cs : List Callback) (r : EcallSession × List Callback) :
    Keeps (tell cs r) ↔ .onTerminal ∉ cs ∧ Keeps r := by
  simp [Keeps, tell]

@[simp] theorem mem_regulatory {c : Callback} {cs : List Callback} :
    c ∈ s.regulatory cs ↔ s.isCustomNumberEcall = false ∧ c ∈ cs := by
  unfold regulatory
  cases s.isCustomNumberEcall <;> simp

theorem keeps_conversation : Keeps (s.transitionTo .callConversation enterCallConversation) :=
  List.not_mem_nil

theorem keeps_psapCallback : Keeps s.transitionToPsapCallback := by
  simp [transitionToPsapCallback, transitionTo, enterPsapCallback]

theorem keeps_decodeMsd : Keeps (s.transitionTo .decodeMsd enterDecodeMsd) := by
  unfold transitionTo enterDecodeMsd
  split_ifs <;> simp [keeps_conversation]

theorem keeps_crc : Keeps (s.transitionTo .crcCheckonMsd enterCrcCheckOnMsd) := by
  have h := keeps_decodeMsd (s := { s with state := .crcCheckonMsd })
  unfold transitionTo enterCrcCheckOnMsd
  split_ifs
  · simp
  · simpa [Keeps] using h

theorem keeps_send : Keeps (s.transitionTo .decodeSendMsd enterDecodeSendMsd) := by
  unfold transitionTo enterDecodeSendMsd
  split_ifs <;> simp [keeps_crc, keeps_decodeMsd, keeps_conversation, changeCallState]

theorem keeps_start : Keeps s.start := by
  unfold start transitionTo enterCallConnect
  split
  · simp [enterRedialing, changeCallState]
  · split_ifs <;> simp [keeps_send, changeCallState]

theorem keeps_hangup : Keeps s.hangup := by
  unfold hangup
  split <;> simp [keeps_psapCallback, changeCallState]

theorem keeps_pull : Keeps s.msdPullRequest := by
  unfold msdPullRequest
  dsimp only
  split_ifs
  · simp
  · exact keeps_send
  · simp

theorem keeps_deregistration : Keeps s.networkDeregistrationRequest := by
  unfold networkDeregistrationRequest
  split_ifs <;> simp

theorem keeps_redialExpiry : Keeps s.onRedialTimerExpiry := by
  unfold onRedialTimerExpiry
  split_ifs
  · simp
  · simp [keeps_send, changeCallState]
  · split <;> simp [keeps_psapCallback, changeCallState]

theorem keeps_hlapExpiry {timer : Timer} {mode : OperatingMode} (h : ¬ s.endsCall timer mode) :
    Keeps (s.onHlapTimerExpiry timer mode) := by
  have hreaction := reaction_hlapExpiry s timer mode
  generalize s.onHlapTimerExpiry timer mode = r at hreaction ⊢
  cases hreaction with
  | failed => simp [transmissionFailure, keeps_conversation]
  | redialed => simp [enterRedialing, changeCallState]
  | calledBack => simp [keeps_psapCallback, changeCallState]
  | ended hends => exact absurd hends h
  | goesOn | expired | ignored => simp

end Outcomes

end EcallSession

end TelafSim.Ecall
