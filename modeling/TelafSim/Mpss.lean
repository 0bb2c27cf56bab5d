import TelafSim.DataManager
import Mathlib.Data.List.AList

/-!
# The data connections of the modem

`DataConnectionAO` of `sml/mpss/data/connection.py` in its Ready state, with the call sessions it
owns and their interface names. One event of its fifo is handled at a time; a handler changes the
sessions and publishes responses and indications. A scheduled timer belongs to its session from
then on: it is cancelled whenever the session is torn down or another one is scheduled. Once it has
fired its event stays in the fifo.
-/

namespace TelafSim.Mpss

open Data

/-- The signals of a `CallSession`. -/
inductive CallSignal
  | connect
  | connected
  | disconnect
  | terminate
  | forceDrop
  deriving DecidableEq, Repr

inductive CallTimer
  | connect
  | disconnect
  deriving DecidableEq, Repr

structure CallSession where
  profileId : ℤ
  status : CallStatus
  ifname : String
  addr : Option String
  timer : Option CallTimer
  deriving DecidableEq

namespace CallSession

def create (profileId : ℤ) (ifname : String) : CallSession := ⟨profileId, .idle, ifname, none, none⟩

/-- The chart has no nesting; a signal its state does not name is ignored. -/
def chart : CallStatus → CallSignal → CallStatus
  | .idle, .connect => .connecting
  | .connecting, .connected => .connected
  | .connecting, .forceDrop => .noNet
  | .connected, .disconnect => .disconnecting
  | .connected, .forceDrop => .noNet
  | .disconnecting, .terminate => .noNet
  | .disconnecting, .forceDrop => .noNet
  | status, _ => status

def dispatch (sg : CallSignal) (c : CallSession) : CallSession :=
  { c with status := chart c.status sg }

def setTimer (timer : Option CallTimer) (c : CallSession) : CallSession := { c with timer := timer }

def toDataCallState (c : CallSession) : CallState := ⟨c.profileId, c.status, c.ifname, c.addr⟩

end CallSession

structure IfnamePool where
  stem : String
  poolSize : ℕ
  inUse : List String

namespace IfnamePool

def allocate (requested : String) (pool : IfnamePool) : Option (String × IfnamePool) :=
  if requested ≠ "" then
    if requested ∈ pool.inUse then none
    else some (requested, { pool with inUse := requested :: pool.inUse })
  else
    (((List.range pool.poolSize).map (fun i => pool.stem ++ toString i)).find?
      (fun name => name ∉ pool.inUse)).map
      (fun name => (name, { pool with inUse := name :: pool.inUse }))

def release (ifname : String) (pool : IfnamePool) : IfnamePool :=
  { pool with inUse := pool.inUse.filter (· ≠ ifname) }

end IfnamePool

inductive MpssEvent
  | messageReceived (q : Request)
  | timeout (t : CallTimer) (profileId : ℤ)
  | forceCallDrop (profileId : ℤ)
  deriving DecidableEq

def MpssEvent.profileId : MpssEvent → ℤ
  | .messageReceived q => q.profileId
  | .timeout _ profileId => profileId
  | .forceCallDrop profileId => profileId

def MpssEvent.corrId : MpssEvent → Option ℕ
  | .messageReceived q => some q.corrId
  | _ => none

/-- What the modem publishes to the PA. -/
inductive Message
  | rsp (corrId : ℕ) (rsp : Rsp)
  | ind (data : CallState)
  deriving DecidableEq

structure CallTimingPreset where
  callConnectDelayMs : ℕ
  callDisconnectDelayMs : ℕ

structure DataConnectionAO where
  sessions : AList (fun _ : ℤ => CallSession)
  pool : IfnamePool
  timing : CallTimingPreset
  /-- The addresses of an interface that is up. -/
  addrInfo : String → Option String
  fifo : List MpssEvent

namespace DataConnectionAO

def start (timing : CallTimingPreset) (stem : String) (poolSize : ℕ)
    (addrInfo : String → Option String) : DataConnectionAO :=
  ⟨∅, ⟨stem, poolSize, []⟩, timing, addrInfo, []⟩

def postFifo (e : MpssEvent) (m : DataConnectionAO) : DataConnectionAO :=
  { m with fifo := m.fifo ++ [e] }

def setSession (profileId : ℤ) (c : CallSession) (m : DataConnectionAO) : DataConnectionAO :=
  { m with sessions := m.sessions.insert profileId c }

/-- The session leaves the map and its interface is free again. -/
def dropSession (profileId : ℤ) (c : CallSession) (m : DataConnectionAO) : DataConnectionAO :=
  { m with sessions := m.sessions.erase profileId, pool := m.pool.release c.ifname }

/-- Without a delay the timer's event goes to the fifo at once. -/
def schedule (t : CallTimer) (delayMs : ℕ) (profileId : ℤ) (c : CallSession)
    (m : DataConnectionAO) : DataConnectionAO :=
  if delayMs = 0 then (m.setSession profileId (c.setTimer none)).postFifo (.timeout t profileId)
  else m.setSession profileId (c.setTimer (some t))

def scheduleCallConnect (profileId : ℤ) (c : CallSession) (m : DataConnectionAO) :
    DataConnectionAO :=
  m.schedule .connect m.timing.callConnectDelayMs profileId c

def scheduleCallDisconnect (profileId : ℤ) (c : CallSession) (m : DataConnectionAO) :
    DataConnectionAO :=
  m.schedule .disconnect m.timing.callDisconnectDelayMs profileId c

def sendError (q : Request) (code : String) : List Message := [.rsp q.corrId (.error code)]

/-- The rest of `handleStart` when no call stands in the way. -/
def openCall (q : Request) (m : DataConnectionAO) : DataConnectionAO × List Message :=
  if q.ifname ≠ "" ∧ q.ifname ∈ m.pool.inUse then (m, sendError q "INVALID_OPERATION")
  else
    match m.pool.allocate q.ifname with
    | none => (m, sendError q "NO_RESOURCES")
    | some (assigned, pool) =>
      let c := (CallSession.create q.profileId assigned).dispatch .connect
      ({ m with pool := pool }.scheduleCallConnect q.profileId c,
        [.rsp q.corrId (.ok ⟨assigned, []⟩), .ind c.toDataCallState])

def handleStart (q : Request) (m : DataConnectionAO) : DataConnectionAO × List Message :=
  match m.sessions.lookup q.profileId with
  | none => m.openCall q
  | some c =>
    if c.status = .connecting ∨ c.status = .disconnecting then (m, sendError q "OP_IN_PROGRESS")
    else if c.status = .connected then
      if q.ifname ≠ "" ∧ q.ifname ≠ c.ifname then (m, sendError q "DEVICE_IN_USE")
      -- no indication follows
      else (m, [.rsp q.corrId (.ok ⟨c.ifname, []⟩)])
    else m.openCall q

/-- A call that is still connecting ignores `begin_disconnecting`. -/
def handleStop (q : Request) (m : DataConnectionAO) : DataConnectionAO × List Message :=
  match m.sessions.lookup q.profileId with
  | none => (m, sendError q "INVALID_ARGUMENTS")
  | some c =>
    if c.status = .noNet then (m, sendError q "INVALID_ARGUMENTS")
    else
      let c := c.dispatch .disconnect
      (m.scheduleCallDisconnect q.profileId c,
        [.rsp q.corrId (.ok ⟨"", []⟩), .ind c.toDataCallState])

def calls (m : DataConnectionAO) : List CallState :=
  (m.sessions.entries.filter (fun s => s.2.status ≠ .noNet)).map (fun s => s.2.toDataCallState)

def handleList (q : Request) (m : DataConnectionAO) : DataConnectionAO × List Message :=
  (m, [.rsp q.corrId (.ok ⟨"", m.calls⟩)])

def onConnectTimer (profileId : ℤ) (m : DataConnectionAO) : DataConnectionAO × List Message :=
  match m.sessions.lookup profileId with
  | none => (m, [])
  | some c =>
    if c.status ≠ .connecting then (m, [])
    else
      -- whichever timer the session holds is cancelled
      let c := { c with timer := none, addr := m.addrInfo c.ifname }.dispatch .connected
      (m.setSession profileId c, [.ind c.toDataCallState])

def onDisconnectTimer (profileId : ℤ) (m : DataConnectionAO) : DataConnectionAO × List Message :=
  match m.sessions.lookup profileId with
  | none => (m, [])
  | some c =>
    let c := c.dispatch .terminate
    (m.dropSession profileId c, [.ind c.toDataCallState])

def applyForceCallDrop (profileId : ℤ) (m : DataConnectionAO) : DataConnectionAO × List Message :=
  match m.sessions.lookup profileId with
  | none => (m, [])
  | some c =>
    if c.status = .noNet then ({ m with sessions := m.sessions.erase profileId }, [])
    else
      let c := c.dispatch .forceDrop
      (m.dropSession profileId c, [.ind c.toDataCallState])

/-- Every call that is up is announced again with the new bearer. -/
def applyNetworkRatChanged (m : DataConnectionAO) : DataConnectionAO × List Message :=
  (m, (m.sessions.entries.filter (fun s => s.2.status = .connected)).map
    (fun s => .ind s.2.toDataCallState))

/-- `patch` writes the servers of the payload into an address; there is none without such a field. -/
def applyForceDns (profileId : ℤ) (patch : Option (String → String)) (m : DataConnectionAO) :
    DataConnectionAO × List Message :=
  match m.sessions.lookup profileId with
  | none => (m, [])
  | some c =>
    if c.status ≠ .connected then (m, [])
    else
      match patch with
      | none => (m, [])
      | some f =>
        let c := { c with addr := c.addr.map f }
        ({ m with addrInfo := fun ifname => (m.addrInfo ifname).map f }.setSession profileId c,
          [.ind c.toDataCallState])

def dispatch (m : DataConnectionAO) : MpssEvent → DataConnectionAO × List Message
  | .messageReceived q =>
    match q.kind with
    | .startDataCall => m.handleStart q
    | .stopDataCall => m.handleStop q
    | .listDataCall => m.handleList q
  | .timeout .connect profileId => m.onConnectTimer profileId
  | .timeout .disconnect profileId => m.onDisconnectTimer profileId
  | .forceCallDrop profileId => m.applyForceCallDrop profileId

def handle (m : DataConnectionAO) : Option (DataConnectionAO × List Message) :=
  match m.fifo with
  | [] => none
  | e :: rest => some ({ m with fifo := rest }.dispatch e)

def elapse (profileId : ℤ) (m : DataConnectionAO) : Option DataConnectionAO :=
  match m.sessions.lookup profileId with
  | none => none
  | some c => c.timer.map (fun t =>
      (m.setSession profileId (c.setTimer none)).postFifo (.timeout t profileId))

/-! ### The call of one profile -/

def status (profileId : ℤ) (m : DataConnectionAO) : Option CallStatus :=
  (m.sessions.lookup profileId).map (fun c => c.status)

/-- A disconnect timer of the profile is running, or its event is in the fifo. -/
def doomed (profileId : ℤ) (m : DataConnectionAO) : Bool :=
  (m.sessions.lookup profileId).any (fun c => c.timer = some .disconnect) ||
    m.fifo.contains (.timeout .disconnect profileId)

/-- The start is not refused and no call stands in its way. -/
def opens (q : Request) (m : DataConnectionAO) : Bool :=
  (m.status q.profileId).isNone && !(q.ifname ≠ "" && m.pool.inUse.contains q.ifname) &&
    (m.pool.allocate q.ifname).isSome

section Calls

variable {p q : ℤ} {m : DataConnectionAO} {c : CallSession}

theorem status_eq_some {s : CallStatus} :
    m.status p = some s ↔ ∃ c, m.sessions.lookup p = some c ∧ c.status = s :=
  Option.map_eq_some_iff

theorem lookup_setSession (p q : ℤ) (c : CallSession) (m : DataConnectionAO) :
    (m.setSession q c).sessions.lookup p = if p = q then some c else m.sessions.lookup p := by
  by_cases h : p = q
  · subst h
    rw [if_pos rfl]
    exact AList.lookup_insert m.sessions
  · rw [if_neg h]
    exact AList.lookup_insert_ne h

theorem lookup_dropSession (p q : ℤ) (c : CallSession) (m : DataConnectionAO) :
    (m.dropSession q c).sessions.lookup p = if p = q then none else m.sessions.lookup p := by
  by_cases h : p = q
  · subst h
    rw [if_pos rfl]
    exact AList.lookup_erase p m.sessions
  · rw [if_neg h]
    exact AList.lookup_erase_ne h

theorem status_setSession (p : ℤ) (c : CallSession) (m : DataConnectionAO) :
    (m.setSession p c).status = Function.update m.status p (some c.status) := by
  funext q
  rw [status, lookup_setSession, Function.update_apply]
  split <;> rfl

theorem status_scheduled (p : ℤ) (c : CallSession) (m : DataConnectionAO) (t : CallTimer)
    (delayMs : ℕ) :
    (m.schedule t delayMs p c).status = Function.update m.status p (some c.status) := by
  unfold schedule
  split
  · exact status_setSession p (c.setTimer none) m
  · exact status_setSession p (c.setTimer (some t)) m

theorem status_dropped (p : ℤ) (c : CallSession) (m : DataConnectionAO) :
    (m.dropSession p c).status = Function.update m.status p none := by
  funext q
  rw [status, lookup_dropSession, Function.update_apply]
  split <;> rfl

theorem frame {m' : DataConnectionAO} (hlookup : m'.sessions.lookup p = m.sessions.lookup p)
    (hfifo : .timeout .disconnect p ∈ m'.fifo ↔ .timeout .disconnect p ∈ m.fifo) :
    m'.status p = m.status p ∧ m'.doomed p = m.doomed p := by
  refine ⟨by rw [status, status, hlookup], ?_⟩
  simp only [doomed, hlookup, List.contains_eq_mem, decide_eq_decide.mpr hfifo]

theorem frame_schedule {t : CallTimer} {delayMs : ℕ} (h : p ≠ q) :
    (m.schedule t delayMs q c).status p = m.status p ∧
      (m.schedule t delayMs q c).doomed p = m.doomed p := by
  unfold schedule
  split
  · refine frame ?_ ?_
    · change (m.setSession q (c.setTimer none)).sessions.lookup p = _
      rw [lookup_setSession, if_neg h]
    · simp [postFifo, setSession, h]
  · refine frame ?_ Iff.rfl
    rw [lookup_setSession, if_neg h]

theorem status_schedule (t : CallTimer) (delayMs : ℕ) (p : ℤ) (c : CallSession)
    (m : DataConnectionAO) : (m.schedule t delayMs p c).status p = some c.status := by
  unfold schedule
  split
  · change ((m.setSession p (c.setTimer none)).sessions.lookup p).map _ = _
    rw [lookup_setSession, if_pos rfl]
    rfl
  · rw [status, lookup_setSession, if_pos rfl]
    rfl

theorem doomed_schedule (t : CallTimer) (delayMs : ℕ) (p : ℤ) (c : CallSession)
    (m : DataConnectionAO) : (m.schedule t delayMs p c).doomed p =
      (decide (t = .disconnect) || m.fifo.contains (.timeout .disconnect p)) := by
  unfold schedule
  split
  · change (((m.setSession p (c.setTimer none)).sessions.lookup p).any _ || _) = _
    rw [lookup_setSession, if_pos rfl]
    cases t <;> simp [CallSession.setTimer, postFifo, setSession]
  · rw [doomed, lookup_setSession, if_pos rfl]
    cases t <;> simp [CallSession.setTimer, setSession]

def Keyed (m : DataConnectionAO) : Prop := ∀ p, ∀ c ∈ m.sessions.lookup p, c.profileId = p

/-- Every call is on its way up, up or on its way down. -/
def Live (p : ℤ) (m : DataConnectionAO) : Prop :=
  ∀ s ∈ m.status p, s = .connecting ∨ s = .connected ∨ s = .disconnecting

/-- What a start does: it is refused, answered for a call that is up, or opens a call. -/
theorem handleStart_cases (q : Request) (hlive : m.Live q.profileId) :
    (∃ code, m.handleStart q = (m, [.rsp q.corrId (.error code)])) ∨
      (m.status q.profileId = some .connected ∧
        ∃ data, m.handleStart q = (m, [.rsp q.corrId (.ok data)])) ∨
      (m.opens q ∧ (m.handleStart q).1.status q.profileId = some .connecting ∧
        (m.handleStart q).1.doomed q.profileId = m.doomed q.profileId ∧
        ∃ data cs, cs.profileId = q.profileId ∧ cs.status = .connecting ∧
          (m.handleStart q).2 = [.rsp q.corrId (.ok data), .ind cs]) := by
  unfold handleStart
  cases hc : m.sessions.lookup q.profileId with
  | some c =>
    have hstatus : m.status q.profileId = some c.status := by rw [status, hc]; rfl
    rcases hlive c.status hstatus with h | h | h
    · exact .inl ⟨"OP_IN_PROGRESS", by simp [h, sendError]⟩
    · simp only [h, reduceCtorEq, or_self, if_false, if_true]
      split
      · exact .inl ⟨"DEVICE_IN_USE", rfl⟩
      · exact .inr (.inl ⟨by rw [hstatus, h], _, rfl⟩)
    · exact .inl ⟨"OP_IN_PROGRESS", by simp [h, sendError]⟩
  | none =>
    dsimp only
    unfold openCall
    split
    · exact .inl ⟨"INVALID_OPERATION", rfl⟩
    · rename_i huse
      split
      · exact .inl ⟨"NO_RESOURCES", rfl⟩
      · rename_i assigned pool halloc
        refine .inr (.inr ⟨?_, status_schedule _ _ _ _ _, ?_, ⟨assigned, []⟩, _, rfl, rfl, rfl⟩)
        · have hfree : ¬ (q.ifname ≠ "" && m.pool.inUse.contains q.ifname) := by simpa using huse
          simp only [opens, status, hc, halloc, hfree]
          rfl
        · refine (doomed_schedule _ _ _ _ _).trans ?_
          rw [doomed, hc]
          rfl

theorem handleStop_cases (q : Request) (hkeyed : m.Keyed) :
    (∃ code, m.handleStop q = (m, [.rsp q.corrId (.error code)])) ∨
      ∃ s data cs, m.status q.profileId = some s ∧
        (m.handleStop q).1.status q.profileId = some (CallSession.chart s .disconnect) ∧
        (m.handleStop q).1.doomed q.profileId = true ∧
        cs.profileId = q.profileId ∧ cs.status = CallSession.chart s .disconnect ∧
        (m.handleStop q).2 = [.rsp q.corrId (.ok data), .ind cs] := by
  unfold handleStop
  cases hc : m.sessions.lookup q.profileId with
  | none => exact .inl ⟨_, rfl⟩
  | some c =>
    dsimp only
    split
    · exact .inl ⟨_, rfl⟩
    · refine .inr ⟨c.status, _, _, by rw [status, hc]; rfl, status_schedule _ _ _ _ _, ?_,
        hkeyed _ c hc, rfl, rfl⟩
      rw [scheduleCallDisconnect, doomed_schedule]
      rfl

theorem stillUp_calls (p : ℤ) (n : String) (hkeyed : m.Keyed) :
    stillUp p ⟨n, m.calls⟩ = decide (m.status p = some .connected) := by
  rw [Bool.eq_iff_iff, decide_eq_true_eq, status_eq_some]
  simp only [stillUp, List.any_eq_true, calls, List.mem_map, List.mem_filter, decide_eq_true_eq]
  constructor
  · rintro ⟨_, ⟨⟨q, c⟩, ⟨hmem, -⟩, rfl⟩, rfl, hc⟩
    have hlookup : c ∈ m.sessions.lookup q := AList.mem_lookup_iff.mpr hmem
    obtain rfl : c.profileId = q := hkeyed q c hlookup
    exact ⟨c, hlookup, hc⟩
  · rintro ⟨c, hmem, hc⟩
    refine ⟨_, ⟨⟨p, c⟩, ⟨AList.mem_lookup_iff.mp hmem, ?_⟩, rfl⟩, hkeyed p c hmem, hc⟩
    rw [hc]
    decide

theorem onConnectTimer_cases (p : ℤ) (hkeyed : m.Keyed) :
    (m.status p ≠ some .connecting ∧ m.onConnectTimer p = (m, [])) ∨
      (m.status p = some .connecting ∧ (m.onConnectTimer p).1.status p = some .connected ∧
        (m.onConnectTimer p).1.doomed p = m.fifo.contains (.timeout .disconnect p) ∧
        ∃ cs, cs.profileId = p ∧ cs.status = .connected ∧ (m.onConnectTimer p).2 = [.ind cs]) := by
  unfold onConnectTimer
  cases hc : m.sessions.lookup p with
  | none => exact .inl ⟨by simp [status, hc], rfl⟩
  | some c =>
    have hstatus : m.status p = some c.status := by rw [status, hc]; rfl
    dsimp only
    split
    · rename_i hne
      exact .inl ⟨by simpa [hstatus] using hne, rfl⟩
    · rename_i heq
      have heq : c.status = .connecting := by simpa using heq
      refine .inr ⟨by rw [hstatus, heq], ?_, ?_, _, hkeyed p c hc, ?_, rfl⟩
      · rw [status, lookup_setSession, if_pos rfl]
        simp [CallSession.dispatch, heq, CallSession.chart]
      · rw [doomed, lookup_setSession, if_pos rfl]
        simp [CallSession.dispatch, setSession]
      · simp [CallSession.toDataCallState, CallSession.dispatch, heq, CallSession.chart]

theorem status_dropSession (p : ℤ) (c : CallSession) (m : DataConnectionAO) :
    (m.dropSession p c).status p = none := by
  rw [status, lookup_dropSession, if_pos rfl]
  rfl

theorem onDisconnectTimer_cases (p : ℤ) (hkeyed : m.Keyed) :
    (m.status p = none ∧ m.onDisconnectTimer p = (m, [])) ∨
      ∃ s cs, m.status p = some s ∧ (m.onDisconnectTimer p).1.status p = none ∧
        cs.profileId = p ∧ cs.status = CallSession.chart s .terminate ∧
        (m.onDisconnectTimer p).2 = [.ind cs] := by
  unfold onDisconnectTimer
  cases hc : m.sessions.lookup p with
  | none => exact .inl ⟨by rw [status, hc]; rfl, rfl⟩
  | some c => exact .inr ⟨c.status, _, by rw [status, hc]; rfl, status_dropSession p _ m,
      hkeyed p c hc, rfl, rfl⟩

theorem applyForceCallDrop_cases (p : ℤ) (hkeyed : m.Keyed) (hlive : m.Live p) :
    (m.status p = none ∧ m.applyForceCallDrop p = (m, [])) ∨
      ∃ s cs, m.status p = some s ∧ (m.applyForceCallDrop p).1.status p = none ∧
        cs.profileId = p ∧ cs.status = CallSession.chart s .forceDrop ∧
        (m.applyForceCallDrop p).2 = [.ind cs] := by
  unfold applyForceCallDrop
  cases hc : m.sessions.lookup p with
  | none => exact .inl ⟨by rw [status, hc]; rfl, rfl⟩
  | some c =>
    have hstatus : m.status p = some c.status := by rw [status, hc]; rfl
    have hne : c.status ≠ .noNet := by
      rcases hlive c.status hstatus with h | h | h <;> rw [h] <;> decide
    simp only [hne, if_false]
    exact .inr ⟨c.status, _, hstatus, status_dropSession p _ m, hkeyed p c hc, rfl, rfl⟩

/-- Nothing is done to the call of `p`, and nothing is said about it. -/
def Elsewhere (p : ℤ) (m : DataConnectionAO) (r : DataConnectionAO × List Message) : Prop :=
  r.1.status p = m.status p ∧ r.1.doomed p = m.doomed p ∧
    ∀ data, .ind data ∈ r.2 → data.profileId ≠ p

theorem elsewhere_same {out : List Message} (hout : ∀ data, .ind data ∉ out) :
    m.Elsewhere p (m, out) :=
  ⟨rfl, rfl, fun data h => absurd h (hout data)⟩

theorem elsewhere_schedule {t : CallTimer} {delayMs : ℕ} {pool : IfnamePool} {corrId : ℕ} {rsp : Rsp}
    (h : q ≠ p) (hc : c.profileId = q) :
    m.Elsewhere p ({ m with pool := pool }.schedule t delayMs q c,
      [.rsp corrId rsp, .ind c.toDataCallState]) := by
  obtain ⟨hstatus, hdoomed⟩ := @frame_schedule p q { m with pool := pool } c t delayMs h.symm
  refine ⟨hstatus, hdoomed, ?_⟩
  intro data hdata
  obtain rfl : data = c.toDataCallState := by simpa using hdata
  exact fun hp => h (hc.symm.trans hp)

theorem elsewhere_set (h : q ≠ p) (hc : c.profileId = q) :
    m.Elsewhere p (m.setSession q c, [.ind c.toDataCallState]) := by
  obtain ⟨hstatus, hdoomed⟩ := @frame p m (m.setSession q c)
    (by rw [lookup_setSession, if_neg h.symm]) Iff.rfl
  refine ⟨hstatus, hdoomed, ?_⟩
  intro data hdata
  obtain rfl : data = c.toDataCallState := by simpa using hdata
  exact fun hp => h (hc.symm.trans hp)

theorem elsewhere_drop {c' : CallSession} (h : q ≠ p) (hc : c'.profileId = q) :
    m.Elsewhere p (m.dropSession q c, [.ind c'.toDataCallState]) := by
  obtain ⟨hstatus, hdoomed⟩ := @frame p m (m.dropSession q c)
    (by rw [lookup_dropSession, if_neg h.symm]) Iff.rfl
  refine ⟨hstatus, hdoomed, ?_⟩
  intro data hdata
  obtain rfl : data = c'.toDataCallState := by simpa using hdata
  exact fun hp => h (hc.symm.trans hp)

theorem elsewhere_handleStart {q : Request} (h : q.profileId ≠ p) :
    m.Elsewhere p (m.handleStart q) := by
  have hopen : m.Elsewhere p (m.openCall q) := by
    unfold openCall
    split
    · exact elsewhere_same (by simp [sendError])
    · split
      · exact elsewhere_same (by simp [sendError])
      · exact elsewhere_schedule h rfl
  unfold handleStart
  split
  · exact hopen
  · split
    · exact elsewhere_same (by simp [sendError])
    · split
      · split <;> exact elsewhere_same (by simp [sendError])
      · exact hopen

theorem elsewhere_handleStop {q : Request} (hkeyed : m.Keyed) (h : q.profileId ≠ p) :
    m.Elsewhere p (m.handleStop q) := by
  unfold handleStop
  split
  · exact elsewhere_same (by simp [sendError])
  · rename_i c hc
    split
    · exact elsewhere_same (by simp [sendError])
    · exact elsewhere_schedule h (hkeyed _ c hc)

theorem elsewhere_dispatch {e : MpssEvent} (hkeyed : m.Keyed) (h : e.profileId ≠ p) :
    m.Elsewhere p (m.dispatch e) := by
  cases e with
  | messageReceived q =>
    dsimp only [dispatch]
    split
    · exact elsewhere_handleStart h
    · exact elsewhere_handleStop hkeyed h
    · exact elsewhere_same (by simp)
  | timeout t q =>
    cases t with
    | connect =>
      dsimp only [dispatch]
      unfold onConnectTimer
      split
      · exact elsewhere_same (by simp)
      · rename_i c hc
        split
        · exact elsewhere_same (by simp)
        · exact elsewhere_set h (hkeyed q c hc)
    | disconnect =>
      dsimp only [dispatch]
      unfold onDisconnectTimer
      split
      · exact elsewhere_same (by simp)
      · rename_i c hc
        exact elsewhere_drop h (hkeyed q c hc)
  | forceCallDrop q =>
    dsimp only [dispatch]
    unfold applyForceCallDrop
    split
    · exact elsewhere_same (by simp)
    · rename_i c hc
      split
      · obtain ⟨hstatus, hdoomed⟩ := @frame p m { m with sessions := m.sessions.erase q }
          (AList.lookup_erase_ne (Ne.symm h)) Iff.rfl
        exact ⟨hstatus, hdoomed, by simp⟩
      · exact elsewhere_drop h (hkeyed q c hc)

/-- No request is added, and responses are to `corrId` alone. -/
def Answers (corrId : Option ℕ) (m : DataConnectionAO) (r : DataConnectionAO × List Message) : Prop :=
  (∀ q, .messageReceived q ∈ r.1.fifo → .messageReceived q ∈ m.fifo) ∧
    ∀ c rsp, .rsp c rsp ∈ r.2 → some c = corrId

theorem answers_sendError (q : Request) (code : String) (m : DataConnectionAO) :
    m.Answers (some q.corrId) (m, sendError q code) :=
  ⟨fun _ h => h, by simp [sendError]⟩

theorem answers_schedule {t : CallTimer} {delayMs corrId : ℕ} {pool : IfnamePool} {p : ℤ}
    {c : CallSession} {rsp : Rsp} {data : CallState} :
    m.Answers (some corrId) ({ m with pool := pool }.schedule t delayMs p c,
      [.rsp corrId rsp, .ind data]) := by
  refine ⟨?_, by simp⟩
  unfold schedule
  split <;> simp [postFifo, setSession]

theorem answers_handleStart (q : Request) (m : DataConnectionAO) :
    m.Answers (some q.corrId) (m.handleStart q) := by
  have hopen : m.Answers (some q.corrId) (m.openCall q) := by
    unfold openCall
    split
    · exact answers_sendError q _ m
    · split
      · exact answers_sendError q _ m
      · exact answers_schedule
  unfold handleStart
  split
  · exact hopen
  · split
    · exact answers_sendError q _ m
    · split
      · split
        · exact answers_sendError q _ m
        · exact ⟨fun _ h => h, by simp⟩
      · exact hopen

theorem answers_handleStop (q : Request) (m : DataConnectionAO) :
    m.Answers (some q.corrId) (m.handleStop q) := by
  unfold handleStop
  split
  · exact answers_sendError q _ m
  · split
    · exact answers_sendError q _ m
    · exact answers_schedule

theorem answers_dispatch (e : MpssEvent) (m : DataConnectionAO) :
    m.Answers e.corrId (m.dispatch e) := by
  cases e with
  | messageReceived q =>
    dsimp only [dispatch]
    split
    · exact answers_handleStart q m
    · exact answers_handleStop q m
    · exact ⟨fun _ h => h, by simp [handleList, MpssEvent.corrId]⟩
  | timeout t q =>
    cases t with
    | connect =>
      dsimp only [dispatch, onConnectTimer]
      split
      · exact ⟨fun _ h => h, by simp⟩
      · split <;> exact ⟨fun _ h => h, by simp⟩
    | disconnect =>
      dsimp only [dispatch, onDisconnectTimer]
      split <;> exact ⟨fun _ h => h, by simp⟩
  | forceCallDrop q =>
    dsimp only [dispatch, applyForceCallDrop]
    split
    · exact ⟨fun _ h => h, by simp⟩
    · split <;> exact ⟨fun _ h => h, by simp⟩

theorem elapse_frame {m' : DataConnectionAO} (h : m.elapse q = some m') (p : ℤ) :
    m'.status p = m.status p ∧ m'.doomed p = m.doomed p ∧
      ∀ q, .messageReceived q ∈ m'.fifo → .messageReceived q ∈ m.fifo := by
  unfold elapse at h
  split at h
  · cases h
  · rename_i c hc
    obtain ⟨t, ht, rfl⟩ := Option.map_eq_some_iff.mp h
    have hlookup : ((m.setSession q (c.setTimer none)).postFifo (.timeout t q)).sessions.lookup p =
        if p = q then some (c.setTimer none) else m.sessions.lookup p :=
      lookup_setSession p q (c.setTimer none) m
    by_cases hp : p = q
    · subst hp
      rw [if_pos rfl] at hlookup
      simp only [status, doomed, hlookup, hc]
      refine ⟨rfl, ?_, by simp [postFifo, setSession]⟩
      cases t <;> simp [postFifo, setSession, CallSession.setTimer, ht]
    · rw [if_neg hp] at hlookup
      obtain ⟨hstatus, hdoomed⟩ := frame hlookup (by simp [postFifo, setSession, hp])
      exact ⟨hstatus, hdoomed, by simp [postFifo, setSession]⟩

end Calls

end DataConnectionAO
end TelafSim.Mpss
