import TelafSim.DataSession
import TelafSim.Trace

/-!
# The data connection manager and its sessions

The states of `SimulaDataConnectionManager`, and the threads around it: clients that check
readiness and then post their call, the bridge's worker that posts indications and answers
requests, and one worker for each session. A worker takes an event, runs its chart to completion
and performs the effects one by one.

A session lives as long as the map or a callback of the bridge holds it. Whoever lets go of it last
stops it, and waits for its worker to empty its queue. A finish message carries the id of the
session that posted it for the record only: the source sends the profile alone.
-/

namespace TelafSim.Data

inductive Readiness
  | available
  | unavailable
  | failed
  | other
  deriving DecidableEq, Repr

instance : Fintype Readiness where
  elems := {.available, .unavailable, .failed, .other}
  complete r := by cases r <;> decide

inductive ManagerEvent
  | readiness (status : Readiness)
  | connectivity (up : Bool)
  | startDataCall (profileId : ℤ) (ifname : String) (cb : ℕ)
  | stopDataCall (profileId : ℤ) (cb : ℕ)
  | stateInd (data : Option CallState)
  | sessionFinished (profileId : ℤ) (poster : ℕ)
  deriving DecidableEq

structure SessionAO where
  profileId : ℤ
  hsm : Hsm SessionState SessionEvent Session
  queue : List SessionEvent
  running : Bool
  armed : List TimerKind
  firing : List TimerKind

/-- What a request carries to the modem. -/
structure Request where
  corrId : ℕ
  kind : RpcKind
  profileId : ℤ
  ifname : String
  deriving DecidableEq

/-- A request the bridge has not answered yet. -/
structure Rpc extends Request where
  session : ℕ
  deriving DecidableEq

structure Manager where
  activeSessions : List (ℤ × ℕ)
  sessions : List SessionAO
  rpcs : List Rpc
  issued : ℕ
  managerJoin : Option ℕ
  bridgeHolds : Option ℕ
  bridgeJoin : Option ℕ
  responded : List (ℕ × ErrorCode)
  erased : List (ℕ × ℕ)

inductive ManagerState
  | operating
  | notReady
  | ready
  deriving DecidableEq, Repr

namespace SessionAO

def state (a : SessionAO) : StateFn SessionState := a.hsm.state

def effects (a : SessionAO) : List SessionEffect := a.hsm.ext.effects

/-- The constructor and `start`: the chart rests in Idle with Start in the queue. -/
def create (profileId : ℤ) (ifname : String) (startCb : ℕ) : SessionAO where
  profileId := profileId
  hsm := ⟨some .idle, some .idle, false, ⟨startCb, none, [], .idle, ifname, "", []⟩, []⟩
  queue := [.start]
  running := true
  armed := []
  firing := []

def postFifo (e : SessionEvent) (a : SessionAO) : SessionAO :=
  if a.running then { a with queue := a.queue ++ [e] } else a

def halt (a : SessionAO) : SessionAO := { a with running := false }

def setEffects (es : List SessionEffect) (a : SessionAO) : SessionAO :=
  { a with hsm := { a.hsm with ext := { a.hsm.ext with effects := es } } }

/-- The worker takes the next event. -/
def take (a : SessionAO) : Option SessionAO :=
  match a.effects, a.queue with
  | [], e :: rest => ((sessionChart a.profileId).dispatch (kMaxNest + 1) e a.hsm).map
      (fun h => { a with hsm := h, queue := rest })
  | _, _ => none

def arm (t : TimerKind) (a : SessionAO) : SessionAO := { a with armed := t :: a.armed.erase t }

def disarm (t : TimerKind) (a : SessionAO) : SessionAO := { a with armed := a.armed.erase t }

end SessionAO

namespace Manager

def find (profileId : ℤ) (m : Manager) : Option ℕ :=
  (m.activeSessions.find? (fun s => s.1 = profileId)).map Prod.snd

def modifySession (sid : ℕ) (f : SessionAO → SessionAO) (m : Manager) : Manager :=
  { m with sessions := m.sessions.modify sid f }

def respond (cb : ℕ) (code : ErrorCode) (m : Manager) : Manager :=
  { m with responded := m.responded ++ [(cb, code)] }

/-- The bridge takes a request of the session `sid`, under a correlation id of its own. -/
def request (sid : ℕ) (profileId : ℤ) (kind : RpcKind) (ifname : String) (m : Manager) : Manager :=
  { m with
    rpcs := m.rpcs ++ [⟨⟨m.issued, kind, profileId, ifname⟩, sid⟩]
    issued := m.issued + 1 }

def startSession (profileId : ℤ) (ifname : String) (cb : ℕ) (m : Manager) : Manager :=
  { m with
    activeSessions := m.activeSessions ++ [(profileId, m.sessions.length)]
    sessions := m.sessions ++ [.create profileId ifname cb] }

/-- The map lets go of the session; unless the bridge holds it too, it is destroyed. -/
def erase (profileId : ℤ) (poster : ℕ) (m : Manager) : Manager :=
  match m.find profileId with
  | none => m
  | some sid =>
    let m := { m with
      activeSessions := m.activeSessions.filter (fun s => s.1 ≠ profileId)
      erased := m.erased ++ [(poster, sid)] }
    if m.bridgeHolds = some sid then m
    else { m.modifySession sid .halt with managerJoin := some sid }

def callStatus (sid : ℕ) (m : Manager) : Option CallStatus :=
  (m.sessions[sid]?).map (fun a => a.hsm.ext.status)

def startDataCall (profileId : ℤ) (ifname : String) (cb : ℕ) (m : Manager) : Manager :=
  match m.find profileId with
  | some sid =>
    if m.callStatus sid = some .connected then m.respond cb .success
    else m.respond cb .opInProgress
  | none => m.startSession profileId ifname cb

def stopDataCall (profileId : ℤ) (cb : ℕ) (m : Manager) : Manager :=
  match m.find profileId with
  | some sid => m.modifySession sid (.postFifo (.stop cb))
  | none => m.respond cb .invalidState

def deliverStateInd (data : CallState) (m : Manager) : Manager :=
  match m.find data.profileId with
  | some sid => m.modifySession sid (.postFifo (.stateInd (some data)))
  | none => m

end Manager

open Manager

abbrev ManagerReply := Reply ManagerState Manager

def operatingSt : Event ManagerEvent → Manager → ManagerReply
  | .entry, m => .handled m
  | .exit, m => .handled m
  | .user (.sessionFinished profileId poster), m => .handled (m.erase profileId poster)
  | _, m => .super none m

/-- A start or stop that was queued before the manager degraded is dropped. -/
def notReadySt : Event ManagerEvent → Manager → ManagerReply
  | .entry, m => .handled m
  | .exit, m => .handled m
  | .user (.readiness .available), m => .toState (some .ready) m
  | .user (.readiness _), m => .handled m
  | .user (.connectivity _), m => .handled m
  | .user (.startDataCall _ _ _), m => .handled m
  | .user (.stopDataCall _ _), m => .handled m
  | .user (.sessionFinished _ _), m => .unhandled m
  | _, m => .super (some .operating) m

def readySt : Event ManagerEvent → Manager → ManagerReply
  | .entry, m => .handled m
  | .exit, m => .handled m
  | .user (.readiness .unavailable), m => .toState (some .notReady) m
  | .user (.readiness .failed), m => .toState (some .notReady) m
  | .user (.readiness _), m => .handled m
  | .user (.connectivity false), m => .toState (some .notReady) m
  | .user (.connectivity true), m => .handled m
  | .user (.startDataCall profileId ifname cb), m => .handled (m.startDataCall profileId ifname cb)
  | .user (.stopDataCall profileId cb), m => .handled (m.stopDataCall profileId cb)
  | .user (.stateInd none), m => .handled m
  | .user (.stateInd (some data)), m => .handled (m.deliverStateInd data)
  | .user (.sessionFinished _ _), m => .unhandled m
  | _, m => .super (some .operating) m

def managerChart : Chart ManagerState ManagerEvent Manager where
  handler
    | .operating => operatingSt
    | .notReady => notReadySt
    | .ready => readySt

/-- Run to completion in a leaf. -/
def manage : ManagerState → ManagerEvent → Manager → ManagerState × Manager
  | .notReady, .readiness .available, m => (.ready, m)
  | .ready, .readiness .unavailable, m => (.notReady, m)
  | .ready, .readiness .failed, m => (.notReady, m)
  | .ready, .connectivity false, m => (.notReady, m)
  | .ready, .startDataCall profileId ifname cb, m => (.ready, m.startDataCall profileId ifname cb)
  | .ready, .stopDataCall profileId cb, m => (.ready, m.stopDataCall profileId cb)
  | .ready, .stateInd (some data), m => (.ready, m.deliverStateInd data)
  | st, .sessionFinished profileId poster, m => (st, m.erase profileId poster)
  | st, _, m => (st, m)

inductive ManagerSignal
  | readiness (status : Readiness)
  | connectivity (up : Bool)
  | startDataCall
  | stopDataCall
  | stateInd (data : Bool)
  | sessionFinished
  deriving DecidableEq, Fintype

def ManagerEvent.signal : ManagerEvent → ManagerSignal
  | .readiness status => .readiness status
  | .connectivity up => .connectivity up
  | .startDataCall _ _ _ => .startDataCall
  | .stopDataCall _ _ => .stopDataCall
  | .stateInd data => .stateInd data.isSome
  | .sessionFinished _ _ => .sessionFinished

def ManagerSignal.event : ManagerSignal → ManagerEvent
  | .readiness status => .readiness status
  | .connectivity up => .connectivity up
  | .startDataCall => .startDataCall 0 "" 0
  | .stopDataCall => .stopDataCall 0 0
  | .stateInd data => .stateInd (if data then some ⟨0, .idle, "", none⟩ else none)
  | .sessionFinished => .sessionFinished 0 0

instance : Fintype ManagerState where
  elems := {.operating, .notReady, .ready}
  complete st := by cases st <;> decide

def managerControl : Chart ManagerState ManagerSignal Unit :=
  managerChart.bare ManagerSignal.event ⟨[], [], [], 0, none, none, none, [], []⟩

theorem managerChart_controlled : managerChart.Controlled managerControl ManagerEvent.signal where
  status st ev m := by
    rcases ev with _ | _ | _ | _ | e <;> try (cases st <;> rfl)
    rcases e with r | up | _ | _ | data | _
    · cases st <;> cases r <;> rfl
    · cases st <;> cases up <;> rfl
    · cases st <;> rfl
    · cases st <;> rfl
    · cases st <;> cases data <;> rfl
    · cases st <;> rfl
  temp st ev m := by
    rcases ev with _ | _ | _ | _ | e <;> try (cases st <;> rfl)
    rcases e with r | up | _ | _ | data | _
    · cases st <;> cases r <;> rfl
    · cases st <;> cases up <;> rfl
    · cases st <;> rfl
    · cases st <;> rfl
    · cases st <;> cases data <;> rfl
    · cases st <;> rfl
  empty st m := by cases st <;> rfl

def bareManager (st : ManagerState) (sg : ManagerSignal) :
    Option (Hsm ManagerState ManagerSignal Unit) :=
  managerControl.dispatch (kMaxNest + 1) sg ⟨some st, some st, false, (), []⟩

/-- A transition between the two children of Operating. -/
def turn (st st' : ManagerState) (sg : ManagerSignal) :
    ManagerState × List (Action ManagerState ManagerSignal) :=
  (st', [(st, .user sg), (st, .exit), (st', .entry), (st', .init)])

/-- Where a run to completion leads from a leaf, and its actions. -/
def managerPath : ManagerState → ManagerSignal →
    ManagerState × List (Action ManagerState ManagerSignal)
  | .notReady, .readiness .available => turn .notReady .ready (.readiness .available)
  | .ready, .readiness .unavailable => turn .ready .notReady (.readiness .unavailable)
  | .ready, .readiness .failed => turn .ready .notReady (.readiness .failed)
  | .ready, .connectivity false => turn .ready .notReady (.connectivity false)
  | .notReady, .stateInd data =>
    (.notReady, [(.notReady, .user (.stateInd data)), (.operating, .user (.stateInd data))])
  | st, .sessionFinished =>
    (st, [(st, .user .sessionFinished), (.operating, .user .sessionFinished)])
  | st, sg => (st, [(st, .user sg)])

theorem bareManager_eq : ∀ st sg, st ≠ .operating →
    (bareManager st sg).map (fun k => (k.state, k.log)) =
      some (some (managerPath st sg).1, (managerPath st sg).2) := by
  decide +kernel

theorem manage_eq {st : ManagerState} (hst : st ≠ .operating) (e : ManagerEvent) (m : Manager) :
    manage st e m = ((managerPath st e.signal).1,
      managerChart.applyAll m ((managerPath st e.signal).2.map (Chart.liftAction e))) := by
  rcases e with r | up | _ | _ | data | _
  · cases st <;> cases r <;> first | exact absurd rfl hst | rfl
  · cases st <;> cases up <;> first | exact absurd rfl hst | rfl
  · cases st <;> first | exact absurd rfl hst | rfl
  · cases st <;> first | exact absurd rfl hst | rfl
  · cases st <;> cases data <;> first | exact absurd rfl hst | rfl
  · cases st <;> first | exact absurd rfl hst | rfl

theorem dispatch_manage {st : ManagerState} (hst : st ≠ .operating) (e : ManagerEvent)
    {h : Hsm ManagerState ManagerEvent Manager} (hh : h.state = some st) :
    ∃ h', managerChart.dispatch (kMaxNest + 1) e h = some h' ∧
      h'.state = some (manage st e h.ext).1 ∧ h'.ext = (manage st e h.ext).2 := by
  obtain ⟨k, hk, hpath⟩ := Option.map_eq_some_iff.mp (bareManager_eq st e.signal hst)
  obtain ⟨hstate, hlog⟩ := Prod.mk.inj hpath
  rw [manage_eq hst e h.ext, ← hlog, ← hstate]
  exact ⟨_, Chart.dispatch_eq_of_bare managerChart_controlled _ (by rw [hh]; exact hk), rfl, rfl⟩

theorem manage_ne_operating {st : ManagerState} (hst : st ≠ .operating) (e : ManagerEvent)
    (m : Manager) : (manage st e m).1 ≠ .operating := by
  have htarget : ∀ st sg, st ≠ .operating → (managerPath st sg).1 ≠ .operating := by decide +kernel
  rw [manage_eq hst]
  exact htarget st _ hst

/-- Everything a run to completion can do to the sessions. -/
inductive Managed (st : ManagerState) (m : Manager) : ManagerEvent → Manager → Prop
  | readiness (r : Readiness) : Managed st m (.readiness r) m
  | connectivity (up : Bool) : Managed st m (.connectivity up) m
  | dropStart (p : ℤ) (ifname : String) (cb : ℕ) (hst : st = .notReady) :
    Managed st m (.startDataCall p ifname cb) m
  | dropStop (p : ℤ) (cb : ℕ) (hst : st = .notReady) : Managed st m (.stopDataCall p cb) m
  | dropInd (data : Option CallState)
    (hdata : ∀ cs ∈ data, st = .notReady ∨ m.find cs.profileId = none) :
    Managed st m (.stateInd data) m
  | refuseStart (p : ℤ) (ifname : String) (cb sid : ℕ) (code : ErrorCode)
    (hfind : m.find p = some sid) : Managed st m (.startDataCall p ifname cb) (m.respond cb code)
  | refuseStop (p : ℤ) (cb : ℕ) (hfind : m.find p = none) :
    Managed st m (.stopDataCall p cb) (m.respond cb .invalidState)
  | start (p : ℤ) (ifname : String) (cb : ℕ) (hst : st = .ready) (hfind : m.find p = none) :
    Managed st m (.startDataCall p ifname cb) (m.startSession p ifname cb)
  | stop (p : ℤ) (cb sid : ℕ) (hfind : m.find p = some sid) :
    Managed st m (.stopDataCall p cb) (m.modifySession sid (.postFifo (.stop cb)))
  | ind (data : CallState) (sid : ℕ) (hfind : m.find data.profileId = some sid) :
    Managed st m (.stateInd (some data)) (m.modifySession sid (.postFifo (.stateInd (some data))))
  | finished (p : ℤ) (poster : ℕ) : Managed st m (.sessionFinished p poster) (m.erase p poster)

theorem manage_managed {st : ManagerState} (hst : st ≠ .operating) (e : ManagerEvent)
    (m : Manager) : Managed st m e (manage st e m).2 := by
  cases e with
  | readiness r => cases st <;> cases r <;> exact .readiness _
  | connectivity up => cases st <;> cases up <;> exact .connectivity _
  | startDataCall p ifname cb =>
    cases st with
    | operating => exact absurd rfl hst
    | notReady => exact .dropStart p ifname cb rfl
    | ready =>
      dsimp only [manage, Manager.startDataCall]
      split
      · rename_i sid hfind
        split <;> exact .refuseStart p ifname cb sid _ hfind
      · rename_i hfind
        exact .start p ifname cb rfl hfind
  | stopDataCall p cb =>
    cases st with
    | operating => exact absurd rfl hst
    | notReady => exact .dropStop p cb rfl
    | ready =>
      dsimp only [manage, Manager.stopDataCall]
      split
      · rename_i sid hfind
        exact .stop p cb sid hfind
      · rename_i hfind
        exact .refuseStop p cb hfind
  | stateInd data =>
    cases data with
    | none => cases st <;> exact .dropInd none (fun _ h => by cases h)
    | some data =>
      cases st with
      | operating => exact absurd rfl hst
      | notReady => exact .dropInd (some data) (fun _ _ => .inl rfl)
      | ready =>
        dsimp only [manage, Manager.deliverStateInd]
        split
        · rename_i sid hfind
          exact .ind data sid hfind
        · rename_i hfind
          refine .dropInd (some data) ?_
          rintro cs ⟨⟩
          exact .inr hfind
  | sessionFinished p poster => cases st <;> exact .finished p poster

end TelafSim.Data
