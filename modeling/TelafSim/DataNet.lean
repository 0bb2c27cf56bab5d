import TelafSim.CallView
import TelafSim.DataFit

/-!
# The PA, the modem and the messages between them

The data connection manager of the PA and that of the modem, with the requests and the messages
that are on their way. The bridge's link may go down and come up at any time, and a message to the
PA may be lost while it is down; a request may be lost at any time. The order of what is not lost is
kept. The bridge may give up on a request whenever it likes, and a response to a request it has
given up on is dropped.
-/

namespace TelafSim.Data

open Mpss Manager

structure DataNet where
  pa : DataSystem
  mpss : DataConnectionAO
  link : Bool
  toMpss : List Request
  toPa : List Message

namespace DataSystem

def Label.fromModem : Label → Bool
  | .post (.stateInd _) => true
  | .reply _ (some _) => true
  | _ => false

def sent (d : DataSystem) : Label → List Request
  | .effect sid =>
    match d.manager.sessions[sid]? with
    | none => []
    | some a =>
      match a.effects with
      | .rpc kind ifname :: _ => [⟨d.manager.issued, kind, a.profileId, ifname⟩]
      | _ => []
  | _ => []

def receive (d : DataSystem) : Message → Option DataSystem
  | .ind data => d.step (.post (.stateInd (some data)))
  | .rsp corrId rsp =>
    match d.manager.rpcs.findIdx? (fun r => r.corrId = corrId) with
    | none => some d
    | some i => d.step (.reply i (some rsp))

end DataSystem

namespace DataNet

def started (mpss : DataConnectionAO) : DataNet := ⟨.started, mpss, true, [], []⟩

inductive Label
  | pa (l : DataSystem.Label)
  | link (up : Bool)
  | arrive
  | loseRequest (i : ℕ)
  | forceCallDrop (profileId : ℤ)
  | elapse (profileId : ℤ)
  | handle
  | deliver
  | lose (i : ℕ)

def step (d : DataNet) : Label → Option DataNet
  | .pa l =>
    if l.fromModem then none
    else (d.pa.step l).map (fun pa =>
      { d with pa := pa, toMpss := d.toMpss ++ if d.link then d.pa.sent l else [] })
  | .link up => some { d with link := up }
  | .arrive =>
    match d.toMpss with
    | [] => none
    | q :: rest => some { d with mpss := d.mpss.postFifo (.messageReceived q), toMpss := rest }
  | .loseRequest i =>
    if i < d.toMpss.length then some { d with toMpss := d.toMpss.eraseIdx i } else none
  | .forceCallDrop profileId => some { d with mpss := d.mpss.postFifo (.forceCallDrop profileId) }
  | .elapse profileId => (d.mpss.elapse profileId).map (fun m => { d with mpss := m })
  | .handle => d.mpss.handle.map (fun r => { d with mpss := r.1, toPa := d.toPa ++ r.2 })
  | .deliver =>
    match d.link, d.toPa with
    | true, msg :: rest => (d.pa.receive msg).map (fun pa => { d with pa := pa, toPa := rest })
    | _, _ => none
  | .lose i =>
    if !d.link && i < d.toPa.length then some { d with toPa := d.toPa.eraseIdx i } else none

section Inversion

variable {d d' : DataNet}

theorem step_pa {l : DataSystem.Label} (h : d.step (.pa l) = some d') :
    l.fromModem = false ∧ ∃ pa, d.pa.step l = some pa ∧
      d' = { d with pa := pa, toMpss := d.toMpss ++ if d.link then d.pa.sent l else [] } := by
  simp only [step] at h
  split at h
  · cases h
  · rename_i hl
    obtain ⟨pa, hpa, rfl⟩ := Option.map_eq_some_iff.mp h
    exact ⟨by simpa using hl, pa, hpa, rfl⟩

theorem step_arrive (h : d.step .arrive = some d') : ∃ q rest, d.toMpss = q :: rest ∧
    d' = { d with mpss := d.mpss.postFifo (.messageReceived q), toMpss := rest } := by
  simp only [step] at h
  split at h
  · cases h
  · rename_i q rest hq
    exact ⟨q, rest, hq, (Option.some.inj h).symm⟩

theorem step_loseRequest {i : ℕ} (h : d.step (.loseRequest i) = some d') :
    d' = { d with toMpss := d.toMpss.eraseIdx i } := by
  simp only [step, Option.ite_none_right_eq_some, Option.some.injEq] at h
  exact h.2.symm

theorem step_elapse {profileId : ℤ} (h : d.step (.elapse profileId) = some d') :
    ∃ m, d.mpss.elapse profileId = some m ∧ d' = { d with mpss := m } := by
  obtain ⟨m, hm, rfl⟩ := Option.map_eq_some_iff.mp h
  exact ⟨m, hm, rfl⟩

theorem step_handle (h : d.step .handle = some d') : ∃ e rest, d.mpss.fifo = e :: rest ∧
    d' = { d with mpss := ({ d.mpss with fifo := rest }.dispatch e).1,
                  toPa := d.toPa ++ ({ d.mpss with fifo := rest }.dispatch e).2 } := by
  obtain ⟨r, hr, rfl⟩ := Option.map_eq_some_iff.mp h
  simp only [DataConnectionAO.handle] at hr
  split at hr
  · cases hr
  · rename_i e rest hfifo
    obtain rfl := Option.some.inj hr
    exact ⟨e, rest, hfifo, rfl⟩

theorem step_deliver (h : d.step .deliver = some d') : ∃ msg rest pa, d.toPa = msg :: rest ∧
    d.pa.receive msg = some pa ∧ d' = { d with pa := pa, toPa := rest } := by
  simp only [step] at h
  split at h
  · rename_i msg rest _ hmsg
    obtain ⟨pa, hpa, rfl⟩ := Option.map_eq_some_iff.mp h
    exact ⟨msg, rest, pa, hmsg, hpa, rfl⟩
  · cases h

theorem step_lose {i : ℕ} (h : d.step (.lose i) = some d') : ∃ msg, d.toPa[i]? = some msg ∧
    d' = { d with toPa := d.toPa.eraseIdx i } := by
  simp only [step, Bool.and_eq_true, decide_eq_true_eq, Option.ite_none_right_eq_some,
    Option.some.injEq] at h
  exact ⟨_, List.getElem?_eq_getElem h.1.2, h.2.symm⟩

end Inversion

end DataNet

namespace Manager

def current (profileId : ℤ) (m : Manager) : Option SessionAO :=
  (m.find profileId).bind (fun sid => m.sessions[sid]?)

def own (profileId : ℤ) (m : Manager) : List Rpc :=
  m.rpcs.filter (fun r => m.find profileId = some r.session)

end Manager

def SessionEffect.asks : SessionEffect → Option RpcKind
  | .rpc kind _ => some kind
  | _ => none

/-- The indications for the session of a profile. -/
def ManagerEvent.tells (profileId : ℤ) : ManagerEvent → Option SessionSignal
  | .stateInd (some data) =>
    if data.profileId = profileId then some (statusSignal data.status) else none
  | _ => none

/-- What a message tells the session of a profile, with the requests it waits for. -/
def hears (profileId : ℤ) (own : List Rpc) : Message → Option SessionSignal
  | .ind data => if data.profileId = profileId then some (statusSignal data.status) else none
  | .rsp corrId rsp => (own.find? (fun r => r.corrId = corrId)).map
      (fun r => (rspEvent r.kind (some rsp)).signal profileId)

namespace DataNet

def view (profileId : ℤ) (d : DataNet) : CallView where
  st := (d.pa.manager.current profileId).bind SessionAO.state
  queue := ((d.pa.manager.current profileId).elim [] SessionAO.queue).map
    (SessionEvent.signal profileId)
  unsent := ((d.pa.manager.current profileId).elim [] SessionAO.effects).filterMap
    SessionEffect.asks
  asked := (d.pa.manager.own profileId).map (fun r => r.kind)
  queued := d.pa.queue.filterMap (ManagerEvent.tells profileId)
  wire := d.toPa.filterMap (hears profileId (d.pa.manager.own profileId))
  status := d.mpss.status profileId
  doomed := d.mpss.doomed profileId

/-- No step loses the agreement on the call of the profile. -/
def keepsAgreement (p : ℤ) (d : DataNet) : Label → Bool
  -- the session gives up on a call the modem holds
  | .pa (.take sid) =>
    match (d.view p).st, (d.view p).queue with
    | some st, sg :: _ => !(d.pa.manager.find p = some sid && givesUp st sg && (d.view p).held)
    | _, _ => true
  | .pa .manage =>
    match d.pa.queue.head? with
    -- a finish message erases the successor of the session that posted it
    | some (.sessionFinished q _) =>
      !(q = p && (d.view p).st ≠ some .terminal && (d.view p).held)
    -- NO_NET reaches a manager that is not ready
    | some (.stateInd (some data)) =>
      !(data.profileId = p && data.status = .noNet && d.pa.hsm.state = some .notReady &&
        (d.view p).believes)
    | _ => true
  -- NO_NET is lost
  | .lose i =>
    match d.toPa[i]? with
    | some (.ind data) => !(data.profileId = p && data.status = .noNet && (d.view p).believes)
    | _ => true
  | .handle =>
    match d.mpss.fifo.head? with
    -- the modem opens a call nobody waits for, or behind news of an earlier one
    | some (.messageReceived q) =>
      !(q.kind = .startDataCall && q.profileId = p && d.mpss.opens q) ||
        ((d.pa.manager.own p).any (fun r => r.corrId = q.corrId) &&
          !(d.view p).coming.contains .noNetInd && !(d.view p).coming.contains .connectedInd)
    -- a call connects after its stop was accepted
    | some (.timeout .connect q) =>
      !(q = p && d.mpss.status p = some .connecting && d.mpss.doomed p)
    | _ => true
  | _ => true

/-- Nothing is on its way, queued or armed, the link is up and the manager is ready. -/
structure Quiet (d : DataNet) : Prop where
  pa : d.pa.Quiet
  calling : d.pa.calling = []
  timers : ∀ a ∈ d.pa.manager.sessions, a.armed = [] ∧ a.firing = []
  ready : d.pa.hsm.state = some .ready
  link : d.link
  toMpss : d.toMpss = []
  toPa : d.toPa = []
  fifo : d.mpss.fifo = []
  callTimers : ∀ c ∈ d.mpss.sessions.entries, c.2.timer = none

instance (d : DataNet) : Decidable d.Quiet :=
  decidable_of_iff (d.pa.Quiet ∧ d.pa.calling = [] ∧
      (∀ a ∈ d.pa.manager.sessions, a.armed = [] ∧ a.firing = []) ∧ d.pa.hsm.state = some .ready ∧
      d.link ∧ d.toMpss = [] ∧ d.toPa = [] ∧ d.mpss.fifo = [] ∧
      ∀ c ∈ d.mpss.sessions.entries, c.2.timer = none)
    ⟨fun ⟨h1, h2, h3, h4, h5, h6, h7, h8, h9⟩ => ⟨h1, h2, h3, h4, h5, h6, h7, h8, h9⟩,
      fun h => ⟨h.pa, h.calling, h.timers, h.ready, h.link, h.toMpss, h.toPa, h.fifo,
        h.callTimers⟩⟩

/-- The PA has a session for the profile in Connected_St. -/
def paConnected (profileId : ℤ) (d : DataNet) : Bool :=
  (d.pa.manager.current profileId).any (fun a => a.state = some .connected)

/-- `_sessions[profileId]` of the modem exists and is CONNECTED. -/
def mpssConnected (profileId : ℤ) (d : DataNet) : Bool :=
  d.mpss.status profileId = some .connected

end DataNet

end TelafSim.Data
