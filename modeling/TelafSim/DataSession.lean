import TelafSim.HsmControl
import Mathlib.Tactic.DeriveFintype

/-!
# The chart of a data call session

The states of `SimulaDataCallSession` in `DataConnectionManager.cpp`. A handler updates the call at
once and leaves the rest as effects, in the order of the source: calls of response callbacks, of
`onFinished_` and of listeners, requests through the bridge, recalled events and timers. Callbacks
are known by an id. `react` is what one run to completion does in each state.
-/

namespace TelafSim.Data

inductive CallStatus
  | idle
  | connecting
  | connected
  | disconnecting
  | reconfigured
  | newAddr
  | delAddr
  | noNet
  deriving DecidableEq, Repr

/-- The data of a call_state indication, or an item of list_data_call. -/
structure CallState where
  profileId : ℤ
  status : CallStatus
  ifname : String
  addr : Option String
  deriving DecidableEq

structure RspData where
  ifname : String
  calls : List CallState
  deriving DecidableEq

inductive Rsp
  | error (code : String)
  | ok (data : RspData)
  deriving DecidableEq

inductive ErrorCode
  | success
  | operationTimeout
  | opInProgress
  | genericFailure
  | invalidState
  | wire (code : String)
  deriving DecidableEq

inductive RpcKind
  | startDataCall
  | stopDataCall
  | listDataCall
  deriving DecidableEq, Repr

/-- `none` is the nullopt of a request that was not answered. -/
inductive SessionEvent
  | start
  | stop (cb : ℕ)
  | stateInd (data : Option CallState)
  | startRsp (rsp : Option Rsp)
  | stopRsp (rsp : Option Rsp)
  | listRsp (rsp : Option Rsp)
  | bringupTimeout
  | teardownTimeout
  deriving DecidableEq

inductive TimerKind
  | bringup
  | teardown
  deriving DecidableEq, Repr

inductive SessionEffect
  | respond (cb : ℕ) (call : Bool) (code : ErrorCode)
  | finished
  | notify
  | rpc (kind : RpcKind) (ifname : String)
  | repost (e : SessionEvent)
  | arm (timer : TimerKind)
  | disarm (timer : TimerKind)
  deriving DecidableEq

structure Session where
  startCb : ℕ
  stopCb : Option ℕ
  deferred : List SessionEvent
  status : CallStatus
  ifname : String
  addr : String
  effects : List SessionEffect
  deriving DecidableEq

inductive SessionState
  | idle
  | active
  | sendingStartReq
  | waitingForUp
  | connected
  | sendingStopReq
  | waitingForDown
  | reconciling
  | terminal
  deriving DecidableEq, Repr

namespace Session

def emit (es : List SessionEffect) (s : Session) : Session := { s with effects := s.effects ++ es }

def setStatus (status : CallStatus) (s : Session) : Session := { s with status := status }

/-- An empty name is not adopted. -/
def setInterfaceName (ifname : String) (s : Session) : Session :=
  if ifname = "" then s else { s with ifname := ifname }

def applyAddrInfo (data : CallState) (s : Session) : Session :=
  { s with addr := data.addr.getD s.addr }

def addrInfoDiffers (data : CallState) (s : Session) : Bool := data.addr.any (· ≠ s.addr)

def respondStart (call : Bool) (code : ErrorCode) (s : Session) : Session :=
  s.emit [.respond s.startCb call code]

def respondStop (call : Bool) (code : ErrorCode) (s : Session) : Session :=
  s.emit (s.stopCb.toList.map (.respond · call code))

def recallAll (s : Session) : Session :=
  { s.emit (s.deferred.map .repost) with deferred := [] }

/-- The call went down: report it. -/
def goDown (s : Session) : Session := (s.setStatus .noNet).emit [.notify]

end Session

/-- The list shows the call of `profileId` connected. -/
def stillUp (profileId : ℤ) (data : RspData) : Bool :=
  data.calls.any (fun c => c.profileId = profileId ∧ c.status = .connected)

open Session

abbrev SessionReply := Reply SessionState Session

def idleSt : Event SessionEvent → Session → SessionReply
  | .entry, s => .handled s
  | .exit, s => .handled s
  | .user .start, s => .toState (some .sendingStartReq) s
  | _, s => .super none s

def activeSt : Event SessionEvent → Session → SessionReply
  | .entry, s => .handled s
  | .exit, s => .handled s
  | .user (.stop cb), s => .handled (s.emit [.respond cb true .opInProgress])
  | _, s => .super none s

/-- A failed start reports the end of the session here and again on entering Terminal. -/
def sendingStartReqSt : Event SessionEvent → Session → SessionReply
  | .entry, s => .handled (s.emit [.rpc .startDataCall s.ifname])
  | .user (.stop cb), s => .handled { s with deferred := s.deferred ++ [.stop cb] }
  | .user (.startRsp none), s =>
    .toState (some .terminal) ((s.respondStart false .operationTimeout).emit [.finished])
  | .user (.startRsp (some (.error code))), s =>
    .toState (some .terminal) ((s.respondStart false (.wire code)).emit [.finished])
  | .user (.startRsp (some (.ok data))), s =>
    .toState (some .waitingForUp)
      (((s.setStatus .connecting).setInterfaceName data.ifname).respondStart true .success)
  | _, s => .super (some .active) s

def waitingForUpSt : Event SessionEvent → Session → SessionReply
  | .entry, s => .handled (s.emit [.arm .bringup]).recallAll
  | .exit, s => .handled (s.emit [.disarm .bringup])
  | .user (.stateInd none), s => .handled s
  | .user (.stateInd (some data)), s =>
    if data.status = .connected then
      .toState (some .connected)
        (((s.setStatus data.status).setInterfaceName data.ifname).applyAddrInfo data)
    else if data.status = .noNet then .toState (some .terminal) s.goDown
    else .handled s
  | .user .bringupTimeout, s => .toState (some .terminal) s.goDown
  | .user (.stop cb), s => .toState (some .sendingStopReq) { s with stopCb := some cb }
  | _, s => .super (some .active) s

def connectedSt : Event SessionEvent → Session → SessionReply
  | .entry, s => .handled (s.emit [.notify])
  | .user (.stateInd none), s => .handled s
  | .user (.stateInd (some data)), s =>
    match data.status with
    | .reconfigured | .newAddr | .delAddr =>
      .handled (((s.setStatus data.status).applyAddrInfo data).emit [.notify])
    | .connected =>
      if s.addrInfoDiffers data then .handled ((s.applyAddrInfo data).emit [.notify])
      else .handled s
    | .noNet => .toState (some .terminal) s.goDown
    | _ => .handled s
  | .user (.stop cb), s => .toState (some .sendingStopReq) { s with stopCb := some cb }
  | _, s => .super (some .active) s

def sendingStopReqSt : Event SessionEvent → Session → SessionReply
  | .entry, s => .handled (s.emit [.rpc .stopDataCall s.ifname])
  | .user (.stopRsp (some (.ok _))), s =>
    .toState (some .waitingForDown) ((s.setStatus .disconnecting).respondStop true .success)
  | .user (.stopRsp _), s => .toState (some .reconciling) s
  | _, s => .super (some .active) s

def waitingForDownSt : Event SessionEvent → Session → SessionReply
  | .entry, s => .handled (s.emit [.arm .teardown])
  | .exit, s => .handled (s.emit [.disarm .teardown])
  | .user (.stateInd none), s => .handled s
  | .user (.stateInd (some data)), s =>
    if data.status = .noNet then .toState (some .terminal) s.goDown else .handled s
  | .user .teardownTimeout, s => .toState (some .terminal) s.goDown
  | _, s => .super (some .active) s

def reconcilingSt (profileId : ℤ) : Event SessionEvent → Session → SessionReply
  | .entry, s => .handled (s.emit [.rpc .listDataCall ""])
  | .user (.listRsp (some (.ok data))), s =>
    if stillUp profileId data then
      .toState (some .connected) ((s.setStatus .connected).respondStop false .genericFailure)
    else .toState (some .terminal)
      (((s.setStatus .noNet).respondStop true .success).emit [.notify])
  | .user (.listRsp _), s =>
    .toState (some .terminal)
      (((s.setStatus .noNet).respondStop false .genericFailure).emit [.notify])
  | _, s => .super (some .active) s

/-- Every event is swallowed, the empty one included. -/
def terminalSt : Event SessionEvent → Session → SessionReply
  | .entry, s => .handled (s.emit [.finished])
  | _, s => .handled s

def sessionChart (profileId : ℤ) : Chart SessionState SessionEvent Session where
  handler
    | .idle => idleSt
    | .active => activeSt
    | .sendingStartReq => sendingStartReqSt
    | .waitingForUp => waitingForUpSt
    | .connected => connectedSt
    | .sendingStopReq => sendingStopReqSt
    | .waitingForDown => waitingForDownSt
    | .reconciling => reconcilingSt profileId
    | .terminal => terminalSt

/-- What the control of the chart reads of an event. -/
inductive SessionSignal
  | start
  | stop
  | connectedInd
  | noNetInd
  | otherInd
  | startRsp (ok : Bool)
  | stopRsp (ok : Bool)
  | listRsp (up : Bool)
  | bringupTimeout
  | teardownTimeout
  deriving DecidableEq, Fintype

def indSignal : Option CallState → SessionSignal
  | none => .otherInd
  | some data =>
    if data.status = .connected then .connectedInd
    else if data.status = .noNet then .noNetInd
    else .otherInd

def rspOk : Option Rsp → Bool
  | some (.ok _) => true
  | _ => false

def listsUp (profileId : ℤ) : Option Rsp → Bool
  | some (.ok data) => stillUp profileId data
  | _ => false

def SessionEvent.signal (profileId : ℤ) : SessionEvent → SessionSignal
  | .start => .start
  | .stop _ => .stop
  | .stateInd data => indSignal data
  | .startRsp rsp => .startRsp (rspOk rsp)
  | .stopRsp rsp => .stopRsp (rspOk rsp)
  | .listRsp rsp => .listRsp (listsUp profileId rsp)
  | .bringupTimeout => .bringupTimeout
  | .teardownTimeout => .teardownTimeout

def SessionSignal.event : SessionSignal → SessionEvent
  | .start => .start
  | .stop => .stop 0
  | .connectedInd => .stateInd (some ⟨0, .connected, "", none⟩)
  | .noNetInd => .stateInd (some ⟨0, .noNet, "", none⟩)
  | .otherInd => .stateInd none
  | .startRsp ok => .startRsp (if ok then some (.ok ⟨"", []⟩) else none)
  | .stopRsp ok => .stopRsp (if ok then some (.ok ⟨"", []⟩) else none)
  | .listRsp up => .listRsp (if up then some (.ok ⟨"", [⟨0, .connected, "", none⟩]⟩) else none)
  | .bringupTimeout => .bringupTimeout
  | .teardownTimeout => .teardownTimeout

instance : Fintype SessionState where
  elems := {.idle, .active, .sendingStartReq, .waitingForUp, .connected, .sendingStopReq,
    .waitingForDown, .reconciling, .terminal}
  complete st := by cases st <;> decide

def sessionControl : Chart SessionState SessionSignal Unit :=
  (sessionChart 0).bare SessionSignal.event ⟨0, none, [], .idle, "", "", []⟩

def bareSession (st : SessionState) (sg : SessionSignal) :
    Option (Hsm SessionState SessionSignal Unit) :=
  sessionControl.dispatch (kMaxNest + 1) sg ⟨some st, some st, false, (), []⟩

section Control

variable (profileId : ℤ)

/-- Every answer of a handler is that to the representative of the event's signal. -/
theorem sessionChart_answer (st : SessionState) (ev : Event SessionEvent) (s : Session) :
    ((sessionChart profileId).handler st ev s).status =
        (sessionControl.handler st (ev.map (SessionEvent.signal profileId)) ()).status ∧
      ((sessionChart profileId).handler st ev s).temp =
        (sessionControl.handler st (ev.map (SessionEvent.signal profileId)) ()).temp := by
  rcases ev with _ | _ | _ | _ | e
  case user =>
    rcases e with _ | cb | data | rsp | rsp | rsp | _ | _
    case stateInd =>
      rcases data with _ | ⟨p, status, ifname, addr⟩
      · cases st <;> exact ⟨rfl, rfl⟩
      · cases st <;> cases status <;> try exact ⟨rfl, rfl⟩
        dsimp only [sessionChart, connectedSt]
        split <;> exact ⟨rfl, rfl⟩
    case startRsp => rcases rsp with _ | _ | _ <;> cases st <;> exact ⟨rfl, rfl⟩
    case stopRsp => rcases rsp with _ | _ | _ <;> cases st <;> exact ⟨rfl, rfl⟩
    case listRsp =>
      rcases rsp with _ | _ | data
      · cases st <;> exact ⟨rfl, rfl⟩
      · cases st <;> exact ⟨rfl, rfl⟩
      · simp only [Event.map, SessionEvent.signal, listsUp]
        cases hup : stillUp profileId data <;> cases st <;> try exact ⟨rfl, rfl⟩
        all_goals
          simp only [sessionChart, reconcilingSt, hup]
          exact ⟨rfl, rfl⟩
    all_goals cases st <;> exact ⟨rfl, rfl⟩
  all_goals cases st <;> exact ⟨rfl, rfl⟩

theorem sessionChart_controlled :
    (sessionChart profileId).Controlled sessionControl (SessionEvent.signal profileId) where
  status st ev s := (sessionChart_answer profileId st ev s).1
  temp st ev s := (sessionChart_answer profileId st ev s).2
  empty st s := by cases st <;> rfl

end Control

/-- A transition between two children of Active. -/
def hop (st st' : SessionState) (sg : SessionSignal) :
    SessionState × List (Action SessionState SessionSignal) :=
  (st', [(st, .user sg), (st, .exit), (st', .entry), (st', .init)])

/-- A transition from a child of Active to Terminal. -/
def fall (st : SessionState) (sg : SessionSignal) :
    SessionState × List (Action SessionState SessionSignal) :=
  (.terminal, [(st, .user sg), (st, .exit), (.active, .exit), (.terminal, .entry),
    (.terminal, .init)])

/-- Handled by the state itself, or passed on to Active. -/
def stay (st : SessionState) (sg : SessionSignal) (handled : Bool) :
    SessionState × List (Action SessionState SessionSignal) :=
  (st, if handled then [(st, .user sg)] else [(st, .user sg), (.active, .user sg)])

def isInd : SessionSignal → Bool
  | .connectedInd => true
  | .noNetInd => true
  | .otherInd => true
  | _ => false

/-- Where a run to completion leads from a leaf, and its actions. -/
def sessionPath : SessionState → SessionSignal →
    SessionState × List (Action SessionState SessionSignal)
  | .idle, .start => (.sendingStartReq, [(.idle, .user .start), (.idle, .exit), (.active, .entry),
      (.sendingStartReq, .entry), (.sendingStartReq, .init)])
  | .idle, sg => stay .idle sg true
  | .sendingStartReq, .startRsp true => hop .sendingStartReq .waitingForUp (.startRsp true)
  | .sendingStartReq, .startRsp false => fall .sendingStartReq (.startRsp false)
  | .sendingStartReq, sg => stay .sendingStartReq sg (sg = .stop)
  | .waitingForUp, .stop => hop .waitingForUp .sendingStopReq .stop
  | .waitingForUp, .connectedInd => hop .waitingForUp .connected .connectedInd
  | .waitingForUp, .noNetInd => fall .waitingForUp .noNetInd
  | .waitingForUp, .bringupTimeout => fall .waitingForUp .bringupTimeout
  | .waitingForUp, sg => stay .waitingForUp sg (isInd sg)
  | .connected, .stop => hop .connected .sendingStopReq .stop
  | .connected, .noNetInd => fall .connected .noNetInd
  | .connected, sg => stay .connected sg (isInd sg)
  | .sendingStopReq, .stopRsp true => hop .sendingStopReq .waitingForDown (.stopRsp true)
  | .sendingStopReq, .stopRsp false => hop .sendingStopReq .reconciling (.stopRsp false)
  | .sendingStopReq, sg => stay .sendingStopReq sg false
  | .waitingForDown, .noNetInd => fall .waitingForDown .noNetInd
  | .waitingForDown, .teardownTimeout => fall .waitingForDown .teardownTimeout
  | .waitingForDown, sg => stay .waitingForDown sg (isInd sg)
  | .reconciling, .listRsp true => hop .reconciling .connected (.listRsp true)
  | .reconciling, .listRsp false => fall .reconciling (.listRsp false)
  | .reconciling, sg => stay .reconciling sg false
  | st, sg => stay st sg true

theorem bareSession_eq : ∀ st sg, st ≠ .active →
    (bareSession st sg).map (fun k => (k.state, k.log)) =
      some (some (sessionPath st sg).1, (sessionPath st sg).2) := by
  decide +kernel

/-- A chart with the control of the session's takes the path of the event's signal. -/
theorem dispatch_of_controlled {ε X : Type} {C : Chart SessionState ε X} {sig : ε → SessionSignal}
    (hC : C.Controlled sessionControl sig) {st : SessionState} (hst : st ≠ .active) (e : ε)
    {h : Hsm SessionState ε X} (hh : h.state = some st) :
    ∃ h', C.dispatch (kMaxNest + 1) e h = some h' ∧
      h'.state = some (sessionPath st (sig e)).1 ∧
      h'.ext = C.applyAll h.ext ((sessionPath st (sig e)).2.map (Chart.liftAction e)) := by
  obtain ⟨k, hk, hpath⟩ := Option.map_eq_some_iff.mp (bareSession_eq st (sig e) hst)
  obtain ⟨hstate, hlog⟩ := Prod.mk.inj hpath
  rw [← hlog, ← hstate]
  exact ⟨_, Chart.dispatch_eq_of_bare hC _ (by rw [hh]; exact hk), rfl, rfl⟩

def startFailure : Option Rsp → ErrorCode
  | some (.error code) => .wire code
  | _ => .operationTimeout

/-- Run to completion in a leaf. -/
def react (profileId : ℤ) : SessionState → SessionEvent → Session → SessionState × Session
  | .idle, .start, s => (.sendingStartReq, s.emit [.rpc .startDataCall s.ifname])
  | .sendingStartReq, .stop cb, s =>
    (.sendingStartReq, { s with deferred := s.deferred ++ [.stop cb] })
  | .sendingStartReq, .startRsp (some (.ok data)), s => (.waitingForUp,
      ((((s.setStatus .connecting).setInterfaceName data.ifname).respondStart true
        .success).emit [.arm .bringup]).recallAll)
  | .sendingStartReq, .startRsp rsp, s => (.terminal,
      ((s.respondStart false (startFailure rsp)).emit [.finished]).emit [.finished])
  | .waitingForUp, .stateInd (some data), s =>
    if data.status = .connected then
      (.connected, ((((s.setStatus data.status).setInterfaceName data.ifname).applyAddrInfo
        data).emit [.disarm .bringup]).emit [.notify])
    else if data.status = .noNet then
      (.terminal, (s.goDown.emit [.disarm .bringup]).emit [.finished])
    else (.waitingForUp, s)
  | .waitingForUp, .bringupTimeout, s =>
    (.terminal, (s.goDown.emit [.disarm .bringup]).emit [.finished])
  | .waitingForUp, .stop cb, s => (.sendingStopReq,
      ({ s with stopCb := some cb }.emit [.disarm .bringup]).emit [.rpc .stopDataCall s.ifname])
  | .connected, .stateInd (some data), s =>
    if data.status = .noNet then (.terminal, s.goDown.emit [.finished])
    else (.connected, (connectedSt (.user (.stateInd (some data))) s).ext)
  | .connected, .stop cb, s =>
    (.sendingStopReq, { s with stopCb := some cb }.emit [.rpc .stopDataCall s.ifname])
  | .sendingStopReq, .stopRsp (some (.ok _)), s => (.waitingForDown,
      ((s.setStatus .disconnecting).respondStop true .success).emit [.arm .teardown])
  | .sendingStopReq, .stopRsp _, s => (.reconciling, s.emit [.rpc .listDataCall ""])
  | .waitingForDown, .stateInd (some data), s =>
    if data.status = .noNet then
      (.terminal, (s.goDown.emit [.disarm .teardown]).emit [.finished])
    else (.waitingForDown, s)
  | .waitingForDown, .teardownTimeout, s =>
    (.terminal, (s.goDown.emit [.disarm .teardown]).emit [.finished])
  | .reconciling, .listRsp (some (.ok data)), s =>
    if stillUp profileId data then
      (.connected, ((s.setStatus .connected).respondStop false .genericFailure).emit [.notify])
    else (.terminal,
      (((s.setStatus .noNet).respondStop true .success).emit [.notify]).emit [.finished])
  | .reconciling, .listRsp _, s => (.terminal,
      (((s.setStatus .noNet).respondStop false .genericFailure).emit [.notify]).emit [.finished])
  -- the tail states leave Stop to Active
  | .sendingStopReq, .stop cb, s => (.sendingStopReq, s.emit [.respond cb true .opInProgress])
  | .waitingForDown, .stop cb, s => (.waitingForDown, s.emit [.respond cb true .opInProgress])
  | .reconciling, .stop cb, s => (.reconciling, s.emit [.respond cb true .opInProgress])
  | st, _, s => (st, s)

theorem react_eq (profileId : ℤ) {st : SessionState} (hst : st ≠ .active) (e : SessionEvent)
    (s : Session) : react profileId st e s = ((sessionPath st (e.signal profileId)).1,
      (sessionChart profileId).applyAll s
        ((sessionPath st (e.signal profileId)).2.map (Chart.liftAction e))) := by
  rcases e with _ | cb | data | rsp | rsp | rsp | _ | _
  case stateInd =>
    rcases data with _ | ⟨p, status, ifname, addr⟩
    · cases st <;> first | exact absurd rfl hst | rfl
    · cases st <;> cases status <;> first | exact absurd rfl hst | rfl
  case startRsp =>
    rcases rsp with _ | _ | _ <;> cases st <;> first | exact absurd rfl hst | rfl
  case stopRsp =>
    rcases rsp with _ | _ | _ <;> cases st <;> first | exact absurd rfl hst | rfl
  case listRsp =>
    rcases rsp with _ | _ | data
    · cases st <;> first | exact absurd rfl hst | rfl
    · cases st <;> first | exact absurd rfl hst | rfl
    · simp only [SessionEvent.signal, listsUp]
      cases st <;> cases hup : stillUp profileId data <;> first | exact absurd rfl hst | rfl | skip
      all_goals
        simp only [react, hup, sessionPath, hop, fall, List.map_cons, List.map_nil,
          Chart.applyAll, Chart.liftAction, Chart.liftEvent, List.foldl, sessionChart,
          reconcilingSt]
        rfl
  all_goals cases st <;> first | exact absurd rfl hst | rfl

theorem dispatch_react (profileId : ℤ) {st : SessionState} (hst : st ≠ .active) (e : SessionEvent)
    {h : Hsm SessionState SessionEvent Session} (hh : h.state = some st) :
    ∃ h', (sessionChart profileId).dispatch (kMaxNest + 1) e h = some h' ∧
      h'.state = some (react profileId st e h.ext).1 ∧ h'.ext = (react profileId st e h.ext).2 := by
  rw [react_eq profileId hst e h.ext]
  exact dispatch_of_controlled (sessionChart_controlled profileId) hst e hh

theorem sessionPath_ne_active : ∀ st sg, st ≠ .active → (sessionPath st sg).1 ≠ .active := by
  decide +kernel

theorem react_ne_active (profileId : ℤ) {st : SessionState} (hst : st ≠ .active) (e : SessionEvent)
    (s : Session) : (react profileId st e s).1 ≠ .active := by
  rw [react_eq profileId hst]
  exact sessionPath_ne_active st _ hst

end TelafSim.Data
