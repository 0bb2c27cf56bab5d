import TelafSim.StartUp
import TelafSim.WakeupFilter

/-!
# The relay of wakeup events

A forced wakeup on its way: the modem fills in its data and withholds it when the filter has not
the bit of its source (`sml/mpss/wakeup/__init__.py`), the power subsystem of the application
processor passes it on (`sml/apss/power/__init__.py`), and the wakeup manager of the PA
(`power/WakeupManager.cpp`) tells its listeners, as long as its chart is in Ready. Indications may
be lost, and the chart follows the readiness indications, which take the same way, and the
connectivity of the bridge. The filter is that of `WsFilter`. What is `forced` is recorded with the
filter and the log of the modem at that time.

The power subsystem is the one of `StartUp`. In Starting it defers what it is sent, and entering
Ready it recalls the oldest deferred event, behind what has come since: an event may be overtaken,
and any other that has been deferred stays behind.
-/

namespace TelafSim.Wakeup

/-- The payload of `mp/ind/wakeup/event`. -/
structure QmiWakeup where
  serviceId : ℤ
  sourceNodeId : ℤ
  destinationNodeId : ℤ
  isMsgIdValid : Bool
  msgId : ℤ
  isPIDValid : Bool
  pid : ℤ
  isProcessNameValid : Bool
  processName : String
  deriving DecidableEq

def forceWakeupDefaults : QmiWakeup where
  serviceId := 5
  sourceNodeId := 0
  destinationNodeId := 0
  isMsgIdValid := true
  msgId := 1
  isPIDValid := false
  pid := 0
  isProcessNameValid := false
  processName := ""

/-- The data of a `force_wakeup`, whose fields may be missing. -/
structure ForceWakeup where
  serviceId : Option ℤ := none
  sourceNodeId : Option ℤ := none
  destinationNodeId : Option ℤ := none
  isMsgIdValid : Option Bool := none
  msgId : Option ℤ := none
  isPIDValid : Option Bool := none
  pid : Option ℤ := none
  isProcessNameValid : Option Bool := none
  processName : Option String := none
  deriving DecidableEq

def ForceWakeup.payload (data : ForceWakeup) : QmiWakeup where
  serviceId := data.serviceId.getD forceWakeupDefaults.serviceId
  sourceNodeId := data.sourceNodeId.getD forceWakeupDefaults.sourceNodeId
  destinationNodeId := data.destinationNodeId.getD forceWakeupDefaults.destinationNodeId
  isMsgIdValid := data.isMsgIdValid.getD forceWakeupDefaults.isMsgIdValid
  msgId := data.msgId.getD forceWakeupDefaults.msgId
  isPIDValid := data.isPIDValid.getD forceWakeupDefaults.isPIDValid
  pid := data.pid.getD forceWakeupDefaults.pid
  isProcessNameValid := data.isProcessNameValid.getD forceWakeupDefaults.isProcessNameValid
  processName := data.processName.getD forceWakeupDefaults.processName

def wsComboToBit : List ((ℤ × ℤ) × ℕ) :=
  [((0x05, 0x0001), modemWsIncomingSms), ((0x09, 0x002E), modemWsIncomingVcall),
    ((0x0B, 0x0033), modemWsSimProfileSwap), ((0x03, 0x004E), modemWsNasSysInfo)]

def wsBitFor (payload : QmiWakeup) : Option ℕ :=
  if payload.isMsgIdValid then wsComboToBit.lookup (payload.serviceId, payload.msgId) else none

structure QmiWakeupInfo where
  serviceId : BitVec 32
  sourceNodeId : BitVec 32
  destinationNodeId : BitVec 32
  isMsgIdValid : Bool
  msgId : BitVec 32
  isPIDValid : Bool
  pid : BitVec 32
  isProcessNameValid : Bool
  processName : String
  deriving DecidableEq

inductive WakeupType
  | unknown
  | qmi
  deriving DecidableEq

structure WakeupInfo where
  wakeupType : WakeupType
  qmiWakeupInfo : QmiWakeupInfo
  deriving DecidableEq

/-- The payload of `ap/ind/power/wakeup`. -/
structure WakeupInd where
  wakeupType : String
  qmiWakeupInfo : QmiWakeup
  deriving DecidableEq

def handleWakeupEvent (data : QmiWakeup) : WakeupInd where
  wakeupType := "QMI"
  qmiWakeupInfo := data

/-- `decodeQmiWakeupInfo`: numbers are cut to 32 bits. -/
def decodeQmiWakeupInfo (data : QmiWakeup) : QmiWakeupInfo where
  serviceId := BitVec.ofInt 32 data.serviceId
  sourceNodeId := BitVec.ofInt 32 data.sourceNodeId
  destinationNodeId := BitVec.ofInt 32 data.destinationNodeId
  isMsgIdValid := data.isMsgIdValid
  msgId := BitVec.ofInt 32 data.msgId
  isPIDValid := data.isPIDValid
  pid := BitVec.ofInt 32 data.pid
  isProcessNameValid := data.isProcessNameValid
  processName := data.processName

def WakeupInd.info (ind : WakeupInd) : WakeupInfo where
  wakeupType := if ind.wakeupType = "QMI" then .qmi else .unknown
  qmiWakeupInfo := decodeQmiWakeupInfo ind.qmiWakeupInfo

/-- Of `WakeupReasonListener::onWakeup`, in the layer above the PA, it is known that it translates
the pairs of `_WS_COMBO_TO_BIT` back into the same bits. -/
def Translates (onWakeup : QmiWakeupInfo → Option ℕ) : Prop :=
  ∀ info bit, info.isMsgIdValid = true →
    wsComboToBit.lookup ((info.serviceId.toNat : ℤ), (info.msgId.toNat : ℤ)) = some bit →
    onWakeup info = some bit

/-- The numbers that name the source have 32 bits. -/
structure QmiWakeup.Fits (data : QmiWakeup) : Prop where
  serviceId : 0 ≤ data.serviceId ∧ data.serviceId < 2 ^ 32
  msgId : 0 ≤ data.msgId ∧ data.msgId < 2 ^ 32

theorem toNat_ofInt_of_fits {x : ℤ} (h : 0 ≤ x ∧ x < 2 ^ 32) :
    ((BitVec.ofInt 32 x).toNat : ℤ) = x := by
  rw [BitVec.toNat_ofInt]
  omega

theorem QmiWakeup.Fits.translated {data : QmiWakeup} (h : data.Fits)
    {onWakeup : QmiWakeupInfo → Option ℕ} (htranslates : Translates onWakeup) {bit : ℕ}
    (hbit : bit ∈ wsBitFor data) : onWakeup (decodeQmiWakeupInfo data) = some bit := by
  unfold wsBitFor at hbit
  split at hbit
  · rename_i hvalid
    refine htranslates _ bit hvalid ?_
    simp only [decodeQmiWakeupInfo, toNat_ofInt_of_fits h.serviceId, toNat_ofInt_of_fits h.msgId]
    exact hbit
  · cases hbit

structure Forced (κ : Type) where
  filter : ℕ
  log : List (Rpc.Entry κ Op (Option ℕ))
  data : ForceWakeup

/-- `_apply_force_wakeup`: what is published, if anything. -/
def applyForceWakeup (filter : ℕ) (data : ForceWakeup) : Option QmiWakeup :=
  match wsBitFor data.payload with
  | none => some data.payload
  | some bit => if filter &&& bit = 0 then none else some data.payload

theorem eq_payload_of_mem_applyForceWakeup {filter : ℕ} {data : ForceWakeup} {payload : QmiWakeup}
    (h : payload ∈ applyForceWakeup filter data) :
    payload = data.payload ∧ ∀ bit ∈ wsBitFor data.payload, filter &&& bit ≠ 0 := by
  unfold applyForceWakeup at h
  cases hbit : wsBitFor data.payload with
  | none => simp_all
  | some bit =>
    by_cases hzero : filter &&& bit = 0 <;> simp_all

inductive Chart
  | notReady
  | ready
  deriving DecidableEq

inductive Ind
  | subsysReady (available : Bool)
  | wakeup (ind : WakeupInd)
  deriving DecidableEq

inductive Signal
  | readinessEvt (available : Bool)
  | bridgeConnectivityChanged (operational : Bool)
  | wakeupInd (ind : WakeupInd)
  deriving DecidableEq

def Signal.wakeup : Signal → Option WakeupInfo
  | .wakeupInd ind => some ind.info
  | _ => none

inductive PowerMessage
  | wakeupEvent (data : QmiWakeup)
  | other
  deriving DecidableEq

abbrev PowerAO := StartUp.AO StartUp.PowerSignal PowerMessage
abbrev PowerEvent := StartUp.Posted StartUp.PowerSignal PowerMessage

def eventOf (e : PowerEvent) : Option QmiWakeup :=
  match e.sig with
  | .messageReceived (.wakeupEvent data) => some data
  | _ => none

/-- What it publishes as it handles an event: the readiness from the entries of Ready and Stopping
and from `_do_resubscribe`, and the event of the modem that it is handed in Ready. -/
def publishes (ao : PowerAO) (e : PowerEvent) : List Ind :=
  match ao.phase, e.sig with
  | .starting, .startingDone | .ready, .resubscribe => [.subsysReady true]
  | .starting, .stop | .ready, .stop => [.subsysReady false]
  | .ready, .messageReceived (.wakeupEvent data) => [.wakeup (handleWakeupEvent data)]
  | _, _ => []

structure Relay (κ : Type) where
  modem : WsFilter.Calls κ
  /-- What the modem has published. -/
  events : List QmiWakeup
  power : PowerAO
  /-- What the application processor has published. -/
  inds : List Ind
  fifo : List Signal
  chart : Chart
  /-- The init callback is set. -/
  initCb : Bool
  /-- How often it has been called. -/
  initCalls : ℕ
  told : List WakeupInfo
  forced : List (Forced κ)

namespace Relay

variable {κ : Type}

def initial (default : ℕ) : Relay κ where
  modem := .initial (.initial default)
  events := []
  power := .initial
  inds := []
  fifo := []
  chart := .notReady
  initCb := true
  initCalls := 0
  told := []
  forced := []

def forceWakeup (data : ForceWakeup) (s : Relay κ) : Relay κ :=
  { s with
    events := s.events ++ (applyForceWakeup s.modem.object.filter data).toList
    forced := s.forced ++ [⟨s.modem.object.filter, s.modem.log, data⟩] }

def enterReady (s : Relay κ) : Relay κ :=
  { s with
    chart := .ready
    initCb := false
    initCalls := if s.initCb then s.initCalls + 1 else s.initCalls }

/-- `WakeupNotReady_St` and `WakeupReady_St`. -/
def dispatch (s : Relay κ) : Signal → Relay κ
  | .readinessEvt available =>
    match s.chart with
    | .notReady => if available then s.enterReady else s
    | .ready => if available then s else { s with chart := .notReady }
  | .bridgeConnectivityChanged operational =>
    match s.chart with
    | .notReady => s
    | .ready => if operational then s else { s with chart := .notReady }
  | .wakeupInd ind =>
    match s.chart with
    | .notReady => s
    | .ready => { s with told := s.told ++ [ind.info] }

def handleWakeupInd : Ind → Signal
  | .subsysReady available => .readinessEvt available
  | .wakeup ind => .wakeupInd ind

def handlePower (e : PowerEvent) (rest : List PowerEvent) (s : Relay κ) : Relay κ :=
  { s with
    power := StartUp.AO.handle StartUp.powerSubsystem e { s.power with fifo := rest }
    inds := s.inds ++ publishes s.power e }

inductive Label (κ : Type)
  | modem (l : WsFilter.Label κ)
  | forceWakeup (data : ForceWakeup)
  /-- The power subsystem is sent an event of the modem, as soon as Starting is being entered. -/
  | receive
  /-- It is sent anything else. -/
  | power (sig : StartUp.Signal StartUp.PowerSignal PowerMessage)
  | dispatchPower
  /-- The broker sends once more the readiness that it retains. -/
  | retained (ready : Bool)
  | deliver
  | connectivity (operational : Bool)
  | take
  /-- What has the given place on its way is lost. -/
  | loseEvent (i : ℕ)
  | loseInd (i : ℕ)
  deriving DecidableEq

def step [DecidableEq κ] (default : ℕ) (s : Relay κ) : Label κ → Option (Relay κ)
  | .modem l => (WsFilter.step default s.modem l).map (fun modem => { s with modem := modem })
  | .forceWakeup data => some (s.forceWakeup data)
  | .receive =>
    match s.events with
    | [] => none
    | data :: events =>
      some { s with
        events := events
        power := s.power.postFifo (.messageReceived (.wakeupEvent data)) }
  | .power sig =>
    if (eventOf ⟨0, sig⟩).isSome then none
    else (StartUp.AO.step StartUp.powerSubsystem s.power (.post sig)).map
      (fun power => { s with power := power })
  | .dispatchPower =>
    match s.power.fifo with
    | [] => none
    | e :: rest => some (s.handlePower e rest)
  | .retained ready => some { s with inds := s.inds ++ [.subsysReady ready] }
  | .deliver =>
    match s.inds with
    | [] => none
    | ind :: inds => some { s with inds := inds, fifo := s.fifo ++ [handleWakeupInd ind] }
  | .connectivity operational =>
    some { s with fifo := s.fifo ++ [.bridgeConnectivityChanged operational] }
  | .take =>
    match s.fifo with
    | [] => none
    | e :: fifo => some ({ s with fifo := fifo }.dispatch e)
  | .loseEvent i =>
    if i < s.events.length then some { s with events := s.events.eraseIdx i } else none
  | .loseInd i => if i < s.inds.length then some { s with inds := s.inds.eraseIdx i } else none

/-- What the modem has published of all that was forced, as the listeners are to be told. -/
def published (s : Relay κ) : List WakeupInfo :=
  s.forced.filterMap (fun f =>
    (applyForceWakeup f.filter f.data).map (fun data => (Wakeup.handleWakeupEvent data).info))

/-- What the power subsystem has of the modem and is to pass on: in Ready no deferred event. -/
def toRelay (ao : PowerAO) : List QmiWakeup :=
  match ao.phase with
  | .ready => ao.fifo.filterMap eventOf
  | .stopping => []
  | _ => (ao.deferQueue ++ ao.fifo).filterMap eventOf

/-- What is on its way to the listeners, the next one first. -/
def inFlight (s : Relay κ) : List WakeupInfo :=
  s.fifo.filterMap Signal.wakeup ++ s.inds.filterMap (fun ind => (handleWakeupInd ind).wakeup) ++
    (toRelay s.power ++ s.events).map (fun data => (Wakeup.handleWakeupEvent data).info)

/-- The power subsystem leaves no event of the modem behind as it takes the next one from its
fifo: none is deferred behind the oldest deferred event when it enters Ready, and it has none when
it is stopped. -/
def LeavesNone (ao : PowerAO) (e : PowerEvent) (rest : List PowerEvent) : Prop :=
  match ao.phase, e.sig with
  | .off, .messageReceived (.wakeupEvent _) => False
  | .starting, .startingDone => ao.deferQueue.tail.filterMap eventOf = []
  | .starting, .stop => (ao.deferQueue ++ rest).filterMap eventOf = []
  | .ready, .stop => rest.filterMap eventOf = []
  | _, _ => True

/-- What it recalls overtakes no event of the modem, or is none. -/
def RecallsInTurn (ao : PowerAO) (e : PowerEvent) (rest : List PowerEvent) : Prop :=
  ao.phase = .starting → e.sig = .startingDone →
    (ao.deferQueue.take 1).filterMap eventOf = [] ∨ rest.filterMap eventOf = []

/-- A step loses no event of the modem: none is lost on its way, the power subsystem leaves none
behind, and the manager takes it in Ready. -/
def Kept (s : Relay κ) : Label κ → Prop
  | .receive => s.power.phase ≠ .stopping
  | .dispatchPower => ∀ e rest, s.power.fifo = e :: rest → LeavesNone s.power e rest
  | .loseEvent _ => False
  | .loseInd i => ∀ ind, s.inds[i]? ≠ some (.wakeup ind)
  | .take => ∀ ind, s.fifo.head? = some (.wakeupInd ind) → s.chart = .ready
  | _ => True

def InTurn (s : Relay κ) : Label κ → Prop
  | .dispatchPower => ∀ e rest, s.power.fifo = e :: rest → RecallsInTurn s.power e rest
  | _ => True

def flow (s : Relay κ) : List WakeupInfo := s.told ++ s.inFlight

/-- Of the entries of a list some remain: all of them if and only if `whole`, and in their order
if `inTurn`. -/
structure Remains {α : Type} (whole inTurn : Prop) (l l' : List α) : Prop where
  subperm : l'.Subperm l
  whole : whole ↔ l'.length = l.length
  inTurn : inTurn → l'.Sublist l

section Remains

variable {α β : Type} {whole inTurn : Prop} {l l' : List α}

theorem remains_self (hwhole : whole) : Remains whole inTurn l l :=
  ⟨List.Subperm.refl l, iff_of_true hwhole rfl, fun _ => List.Sublist.refl l⟩

theorem remains_of_sublist (h : l'.Sublist l) (hwhole : whole ↔ l'.length = l.length) :
    Remains whole inTurn l l' :=
  ⟨h.subperm, hwhole, fun _ => h⟩

theorem remains_of_eq (h : l' = l) (hwhole : whole) : Remains whole inTurn l l' :=
  h ▸ remains_self hwhole

theorem remains_nil (hwhole : whole ↔ l = []) : Remains whole inTurn l [] := by
  refine remains_of_sublist (List.nil_sublist l) ?_
  rw [hwhole, List.length_nil, eq_comm (a := 0), List.length_eq_zero_iff]

theorem remains_moved (l₁ l₂ l₃ : List α) (hturn : inTurn → l₁ = [] ∨ l₃ = []) :
    Remains (l₂ = []) inTurn (l₁ ++ l₂ ++ l₃) (l₃ ++ l₁) where
  subperm :=
    ⟨l₁ ++ l₃, List.perm_append_comm, (List.sublist_append_left l₁ l₂).append_right l₃⟩
  whole := by
    rw [← List.length_eq_zero_iff]
    simp only [List.length_append]
    omega
  inTurn h := by
    rcases hturn h with rfl | rfl
    · simp
    · simp

theorem Remains.append (h : Remains whole inTurn l l') (l₁ l₂ : List α) :
    Remains whole inTurn (l₁ ++ l ++ l₂) (l₁ ++ l' ++ l₂) where
  subperm := (List.subperm_append_right l₂).mpr ((List.subperm_append_left l₁).mpr h.subperm)
  whole := by
    rw [h.whole]
    simp only [List.length_append]
    omega
  inTurn hturn := ((h.inTurn hturn).append_left l₁).append_right l₂

theorem Remains.map (h : Remains whole inTurn l l') (f : α → β) :
    Remains whole inTurn (l.map f) (l'.map f) where
  subperm := by
    obtain ⟨l₀, hperm, hsublist⟩ := h.subperm
    exact ⟨l₀.map f, hperm.map f, hsublist.map f⟩
  whole := by rw [h.whole, List.length_map, List.length_map]
  inTurn hturn := (h.inTurn hturn).map f

end Remains

section Steps

variable {default : ℕ} {s t : Relay κ} {l : Label κ}

/-- A chart in Ready tells what it takes; nothing else of the relay changes. -/
theorem dispatch_eq (e : Signal) : ∃ chart initCb initCalls, s.dispatch e =
    { s with
      chart := chart, initCb := initCb, initCalls := initCalls
      told := s.told ++ if s.chart = .ready then e.wakeup.toList else [] } := by
  refine ⟨(s.dispatch e).chart, (s.dispatch e).initCb, (s.dispatch e).initCalls, ?_⟩
  obtain ⟨modem, events, power, inds, fifo, chart, initCb, initCalls, told, forced⟩ := s
  cases e with
  | readinessEvt available =>
    cases chart <;> cases available <;> simp [dispatch, enterReady, Signal.wakeup]
  | bridgeConnectivityChanged operational =>
    cases chart <;> cases operational <;> simp [dispatch, Signal.wakeup]
  | wakeupInd ind => cases chart <;> simp [dispatch, Signal.wakeup]

def relayed (ao : PowerAO) (e : PowerEvent) : List QmiWakeup :=
  if ao.phase = .ready then (eventOf e).toList else []

theorem filterMap_publishes (ao : PowerAO) (e : PowerEvent) :
    (publishes ao e).filterMap (fun ind => (handleWakeupInd ind).wakeup) =
      (relayed ao e).map (fun data => (Wakeup.handleWakeupEvent data).info) := by
  obtain ⟨phase, fifo, deferQueue, nextSeq, dispatched, held⟩ := ao
  obtain ⟨seq, sig⟩ := e
  cases phase <;> cases sig with
  | messageReceived m => cases m <;> rfl
  | _ => rfl

section Handle

variable {ao : PowerAO} {e : PowerEvent} {rest : List PowerEvent}

theorem remains_off (hphase : ao.phase = .off) (hfifo : ao.fifo = e :: rest) :
    Remains (LeavesNone ao e rest) (RecallsInTurn ao e rest) (toRelay ao)
      (toRelay (StartUp.AO.handle StartUp.powerSubsystem e { ao with fifo := rest })) := by
  obtain ⟨phase, fifo, d, nextSeq, dispatched, held⟩ := ao
  obtain ⟨seq, sig⟩ := e
  obtain rfl : phase = .off := hphase
  obtain rfl : fifo = ⟨seq, sig⟩ :: rest := hfifo
  cases sig with
  | start =>
    refine remains_of_eq ?_ trivial
    simp [toRelay, StartUp.AO.handle, StartUp.AO.smfnOff, StartUp.AO.enterStarting,
      StartUp.AO.postFifo, eventOf, List.filterMap_cons]
  | messageReceived m =>
    cases m with
    | wakeupEvent data =>
      refine remains_of_sublist ?_ (iff_of_false (fun h => h) ?_)
      · simp [toRelay, StartUp.AO.handle, StartUp.AO.smfnOff, eventOf]
      · simp [toRelay, StartUp.AO.handle, StartUp.AO.smfnOff, eventOf]
    | other =>
      refine remains_of_eq ?_ trivial
      simp [toRelay, StartUp.AO.handle, StartUp.AO.smfnOff, eventOf, List.filterMap_cons]
  | _ =>
    refine remains_of_eq ?_ trivial
    simp [toRelay, StartUp.AO.handle, StartUp.AO.smfnOff, eventOf, List.filterMap_cons]

/-- Entering Ready, the subsystem takes the oldest deferred event behind what is in its fifo. -/
theorem remains_starting (hphase : ao.phase = .starting) (hfifo : ao.fifo = e :: rest) :
    Remains (LeavesNone ao e rest) (RecallsInTurn ao e rest) (toRelay ao)
      (toRelay (StartUp.AO.handle StartUp.powerSubsystem e { ao with fifo := rest })) := by
  obtain ⟨phase, fifo, d, nextSeq, dispatched, held⟩ := ao
  obtain ⟨seq, sig⟩ := e
  obtain rfl : phase = .starting := hphase
  obtain rfl : fifo = ⟨seq, sig⟩ :: rest := hfifo
  cases sig with
  | startingDone =>
    have hbefore : (d ++ ⟨seq, .startingDone⟩ :: rest).filterMap eventOf =
        (d.take 1).filterMap eventOf ++ d.tail.filterMap eventOf ++ rest.filterMap eventOf := by
      rw [← List.filterMap_append, ← List.drop_one, List.take_append_drop, List.filterMap_append]
      rfl
    have hafter : toRelay (StartUp.AO.handle StartUp.powerSubsystem ⟨seq, .startingDone⟩
        ⟨.starting, rest, d, nextSeq, dispatched, held⟩) =
          rest.filterMap eventOf ++ (d.take 1).filterMap eventOf := by
      rw [← List.filterMap_append]
      simp only [StartUp.AO.handle, StartUp.AO.smfnStarting, StartUp.AO.enterReady,
        StartUp.AO.recallOldest_eq, toRelay]
    change Remains _ _ ((d ++ ⟨seq, .startingDone⟩ :: rest).filterMap eventOf) (toRelay _)
    rw [hbefore, hafter]
    exact remains_moved _ _ _ (fun h => h rfl rfl)
  | stop =>
    refine remains_nil ?_
    simp [LeavesNone, toRelay, eventOf, List.filterMap_cons]
  | own o =>
    refine remains_of_eq ?_ trivial
    cases o <;> simp [toRelay, StartUp.AO.handle, StartUp.AO.smfnStarting,
      StartUp.AO.smfnOperating, StartUp.powerSubsystem, StartUp.AO.defer, eventOf,
      List.filterMap_cons]
  | _ =>
    refine remains_of_eq ?_ trivial
    simp [toRelay, StartUp.AO.handle, StartUp.AO.smfnStarting, StartUp.AO.smfnOperating,
      StartUp.AO.defer, eventOf, List.filterMap_cons]

theorem remains_ready (hphase : ao.phase = .ready) (hfifo : ao.fifo = e :: rest) :
    Remains (LeavesNone ao e rest) (RecallsInTurn ao e rest) (toRelay ao)
      ((eventOf e).toList ++
        toRelay (StartUp.AO.handle StartUp.powerSubsystem e { ao with fifo := rest })) := by
  obtain ⟨phase, fifo, d, nextSeq, dispatched, held⟩ := ao
  obtain ⟨seq, sig⟩ := e
  obtain rfl : phase = .ready := hphase
  obtain rfl : fifo = ⟨seq, sig⟩ :: rest := hfifo
  cases sig with
  | stop =>
    refine remains_nil ?_
    simp [LeavesNone, toRelay, eventOf, List.filterMap_cons]
  | messageReceived m =>
    refine remains_of_eq ?_ trivial
    cases m <;> simp [toRelay, StartUp.AO.handle, StartUp.AO.smfnReady,
      StartUp.AO.dispatchMessage, eventOf, List.filterMap_cons]
  | _ =>
    refine remains_of_eq ?_ trivial
    simp [toRelay, StartUp.AO.handle, StartUp.AO.smfnReady, StartUp.AO.smfnOperating, eventOf,
      List.filterMap_cons]

theorem remains_handle (hfifo : ao.fifo = e :: rest) :
    Remains (LeavesNone ao e rest) (RecallsInTurn ao e rest) (toRelay ao)
      (relayed ao e ++
        toRelay (StartUp.AO.handle StartUp.powerSubsystem e { ao with fifo := rest })) := by
  obtain ⟨phase, fifo, d, nextSeq, dispatched, held⟩ := ao
  cases phase with
  | off => exact remains_off rfl hfifo
  | starting => exact remains_starting rfl hfifo
  | ready => exact remains_ready rfl hfifo
  | stopping => exact remains_of_eq rfl trivial

end Handle

/-- A step adds to the flow what the modem publishes with it, to what remains. -/
structure Moves (whole inTurn : Prop) (s t : Relay κ) (new kept : List WakeupInfo) : Prop where
  published : t.published = s.published ++ new
  flow : t.flow = kept ++ new
  remains : Remains whole inTurn s.flow kept

theorem moves_of_remains {whole inTurn : Prop} (hforced : t.forced = s.forced)
    (h : Remains whole inTurn s.flow t.flow) : ∃ new kept, Moves whole inTurn s t new kept :=
  ⟨[], t.flow, by simp [Relay.published, hforced], by simp, h⟩

theorem moves_of_eq {whole inTurn : Prop} (hforced : t.forced = s.forced) (hflow : t.flow = s.flow)
    (hwhole : whole) : ∃ new kept, Moves whole inTurn s t new kept :=
  moves_of_remains hforced (remains_of_eq hflow hwhole)

theorem forceWakeup_moves {inTurn : Prop} (data : ForceWakeup) :
    ∃ new kept, Moves True inTurn s (s.forceWakeup data) new kept := by
  refine ⟨((applyForceWakeup s.modem.object.filter data).map
    (fun data => (Wakeup.handleWakeupEvent data).info)).toList, s.flow, ?_, ?_,
    remains_self trivial⟩
  · cases h : applyForceWakeup s.modem.object.filter data <;> simp [Relay.published, forceWakeup, h]
  · cases h : applyForceWakeup s.modem.object.filter data <;> simp [flow, inFlight, forceWakeup, h]

theorem flow_relay {whole inTurn : Prop} {inds : List Ind} (relayed : List QmiWakeup)
    (htold : t.told = s.told) (hfifo : t.fifo = s.fifo) (hinds : t.inds = s.inds ++ inds)
    (hrelayed : inds.filterMap (fun ind => (handleWakeupInd ind).wakeup) =
      relayed.map (fun data => (Wakeup.handleWakeupEvent data).info))
    (h : Remains whole inTurn (toRelay s.power ++ s.events)
      (relayed ++ (toRelay t.power ++ t.events))) : Remains whole inTurn s.flow t.flow := by
  have hs : s.flow = (s.told ++ (s.fifo.filterMap Signal.wakeup ++
      s.inds.filterMap (fun ind => (handleWakeupInd ind).wakeup))) ++
        (toRelay s.power ++ s.events).map
          (fun data => (Wakeup.handleWakeupEvent data).info) ++ [] := by
    simp [flow, inFlight]
  have ht : t.flow = (s.told ++ (s.fifo.filterMap Signal.wakeup ++
      s.inds.filterMap (fun ind => (handleWakeupInd ind).wakeup))) ++
        (relayed ++ (toRelay t.power ++ t.events)).map
          (fun data => (Wakeup.handleWakeupEvent data).info) ++ [] := by
    simp [flow, inFlight, htold, hfifo, hinds, hrelayed]
  rw [hs, ht]
  exact (h.map _).append _ _

theorem remains_receive {ao : PowerAO} {data : QmiWakeup} {events : List QmiWakeup}
    {inTurn : Prop} : Remains (ao.phase ≠ .stopping) inTurn (toRelay ao ++ data :: events)
      (toRelay (ao.postFifo (.messageReceived (.wakeupEvent data))) ++ events) := by
  obtain ⟨phase, fifo, d, nextSeq, dispatched, held⟩ := ao
  cases phase with
  | stopping =>
    refine remains_of_sublist ?_ (iff_of_false (fun h => h rfl) ?_)
    · simp [toRelay, StartUp.AO.postFifo]
    · simp [toRelay, StartUp.AO.postFifo]
  | _ =>
    exact remains_of_eq (by simp [toRelay, StartUp.AO.postFifo, eventOf]) (by simp)

theorem toRelay_postFifo {ao : PowerAO} {sig : StartUp.Signal StartUp.PowerSignal PowerMessage}
    (h : eventOf ⟨ao.nextSeq, sig⟩ = none) : toRelay (ao.postFifo sig) = toRelay ao := by
  obtain ⟨phase, fifo, d, nextSeq, dispatched, held⟩ := ao
  cases phase <;> simp [toRelay, StartUp.AO.postFifo, h]

theorem take_remains {e : Signal} {fifo : List Signal} (hfifo : s.fifo = e :: fifo) :
    Remains (∀ ind, e = .wakeupInd ind → s.chart = .ready) True s.flow
      ({ s with fifo := fifo }.dispatch e).flow := by
  obtain ⟨chart, initCb, initCalls, heq⟩ := dispatch_eq (s := { s with fifo := fifo }) e
  rw [heq]
  cases e with
  | wakeupInd ind =>
    by_cases hready : s.chart = .ready
    · refine remains_of_eq ?_ (fun _ _ => hready)
      simp [flow, inFlight, hfifo, hready, Signal.wakeup]
    · refine remains_of_sublist ?_ (iff_of_false (fun h => hready (h ind rfl)) ?_)
      · simp [flow, inFlight, hfifo, hready, Signal.wakeup]
      · simp [flow, inFlight, hfifo, hready, Signal.wakeup]
  | _ =>
    refine remains_of_eq ?_ (fun _ h => by cases h)
    simp [flow, inFlight, hfifo, Signal.wakeup, List.filterMap_cons]

/-- Where something is taken from a list that is on its way, what it holds for the listeners is
lost. -/
theorem remains_eraseIdx {α β : Type} (f : α → Option β) (inTurn : Prop) {l : List α} {i : ℕ}
    (hi : i < l.length) : Remains (∀ a, l[i]? = some a → f a = none) inTurn (l.filterMap f)
      ((l.eraseIdx i).filterMap f) := by
  have hsplit : l = l.take i ++ l[i] :: l.drop (i + 1) := by
    rw [List.getElem_cons_drop, List.take_append_drop]
  have hwhole : (∀ a, l[i]? = some a → f a = none) ↔ f l[i] = none := by
    simp [List.getElem?_eq_getElem hi]
  have hlength : (l.filterMap f).length = ((l.take i).filterMap f).length +
      ((f l[i]).toList.length + ((l.drop (i + 1)).filterMap f).length) := by
    conv_lhs => rw [hsplit, List.filterMap_append, List.length_append, List.filterMap_cons]
    cases f l[i] with
    | none => rw [Option.toList_none, List.length_nil, Nat.zero_add]
    | some b => rw [List.length_cons, Option.toList_some, List.length_singleton, Nat.add_comm 1]
  refine remains_of_sublist ((List.eraseIdx_sublist l i).filterMap f) ?_
  rw [hwhole, List.eraseIdx_eq_take_drop_succ, hlength, List.filterMap_append, List.length_append]
  cases f l[i] with
  | none => simp
  | some b =>
    refine iff_of_false (by simp) ?_
    simp only [Option.toList_some, List.length_singleton]
    omega

theorem flow_step [DecidableEq κ] (hstep : step default s l = some t) :
    ∃ new kept, Moves (Kept s l) (InTurn s l) s t new kept := by
  cases l with
  | modem l =>
    obtain ⟨modem, -, rfl⟩ := Option.map_eq_some_iff.mp hstep
    exact moves_of_eq rfl rfl trivial
  | forceWakeup data =>
    obtain rfl := Option.some.inj hstep
    exact forceWakeup_moves data
  | receive =>
    cases hevents : s.events with
    | nil => simp [step, hevents] at hstep
    | cons data events =>
      simp only [step, hevents, Option.some.injEq] at hstep
      subst hstep
      refine moves_of_remains rfl ?_
      refine flow_relay [] rfl rfl (List.append_nil _).symm rfl ?_
      rw [hevents]
      exact remains_receive
  | power sig =>
    obtain ⟨hnone, hpost⟩ := Option.ite_none_left_eq_some.mp hstep
    obtain ⟨power, hpower, rfl⟩ := Option.map_eq_some_iff.mp hpost
    have heq : power = s.power.postFifo sig := by
      cases sig <;> simp_all [StartUp.AO.step]
    have hsame : toRelay power = toRelay s.power := by
      rw [heq]
      exact toRelay_postFifo (by simpa [eventOf] using hnone)
    exact moves_of_eq rfl (by simp [flow, inFlight, hsame]) trivial
  | dispatchPower =>
    cases hfifo : s.power.fifo with
    | nil => simp [step, hfifo] at hstep
    | cons e rest =>
      simp only [step, hfifo, Option.some.injEq] at hstep
      subst hstep
      have hkept : Kept s .dispatchPower ↔ LeavesNone s.power e rest := by
        simp [Kept, hfifo]
      have hturn : InTurn s .dispatchPower ↔ RecallsInTurn s.power e rest := by
        simp [InTurn, hfifo]
      rw [hkept, hturn]
      refine moves_of_remains rfl ?_
      refine flow_relay (relayed s.power e) rfl rfl rfl (filterMap_publishes s.power e) ?_
      have h := (remains_handle hfifo).append [] s.events
      rwa [List.nil_append, List.nil_append, List.append_assoc] at h
  | retained ready =>
    obtain rfl := Option.some.inj hstep
    exact moves_of_eq rfl (by simp [flow, inFlight, handleWakeupInd, Signal.wakeup]) trivial
  | deliver =>
    cases hinds : s.inds with
    | nil => simp [step, hinds] at hstep
    | cons ind inds =>
      simp only [step, hinds, Option.some.injEq] at hstep
      subst hstep
      refine moves_of_eq rfl ?_ trivial
      cases hw : (handleWakeupInd ind).wakeup <;> simp [flow, inFlight, hinds, hw]
  | connectivity operational =>
    obtain rfl := Option.some.inj hstep
    exact moves_of_eq rfl (by simp [flow, inFlight, Signal.wakeup]) trivial
  | take =>
    cases hfifo : s.fifo with
    | nil => simp [step, hfifo] at hstep
    | cons e fifo =>
      simp only [step, hfifo, Option.some.injEq] at hstep
      subst hstep
      have hkept : Kept s .take ↔ ∀ ind, e = .wakeupInd ind → s.chart = .ready := by
        simp [Kept, hfifo]
      obtain ⟨chart, initCb, initCalls, heq⟩ := dispatch_eq (s := { s with fifo := fifo }) e
      rw [hkept]
      exact moves_of_remains (by rw [heq]) (take_remains hfifo)
  | loseEvent i =>
    obtain ⟨hi, ⟨⟩⟩ := Option.ite_none_right_eq_some.mp hstep
    refine moves_of_remains rfl ?_
    refine flow_relay [] rfl rfl (List.append_nil _).symm rfl ?_
    have h : Remains False True s.events (s.events.eraseIdx i) := by
      refine remains_of_sublist (List.eraseIdx_sublist _ i) (iff_of_false (fun h => h) ?_)
      rw [List.length_eraseIdx_of_lt hi]
      omega
    have happend := h.append (toRelay s.power) []
    rwa [List.append_nil, List.append_nil] at happend
  | loseInd i =>
    obtain ⟨hi, ⟨⟩⟩ := Option.ite_none_right_eq_some.mp hstep
    refine moves_of_remains rfl ?_
    have hkept : Kept s (.loseInd i) ↔
        ∀ ind, s.inds[i]? = some ind → (handleWakeupInd ind).wakeup = none := by
      constructor
      · intro h ind hget
        cases ind with
        | subsysReady available => rfl
        | wakeup ind => exact absurd hget (h ind)
      · intro h ind hget
        cases h _ hget
    rw [hkept]
    have h := (remains_eraseIdx (fun ind => (handleWakeupInd ind).wakeup) (InTurn s (.loseInd i))
      hi).append (s.told ++ s.fifo.filterMap Signal.wakeup)
        ((toRelay s.power ++ s.events).map (fun data => (Wakeup.handleWakeupEvent data).info))
    simpa [flow, inFlight] using h

/-- The init callback has been called once, if it is no longer set, and a chart in Ready has called
it. -/
structure Inits (s : Relay κ) : Prop where
  calls : s.initCalls = if s.initCb then 0 else 1
  ready : s.chart = .ready → s.initCb = false

theorem Inits.enterReady (h : s.Inits) : s.enterReady.Inits where
  calls := by
    have hcalls := h.calls
    cases hcb : s.initCb <;> simp_all [Relay.enterReady]
  ready := fun _ => rfl

theorem Inits.dispatch (h : s.Inits) (e : Signal) : (s.dispatch e).Inits := by
  cases hchart : s.chart with
  | notReady =>
    cases e with
    | readinessEvt available =>
      cases available with
      | true => simpa [Relay.dispatch, hchart] using h.enterReady
      | false => simpa [Relay.dispatch, hchart] using h
    | bridgeConnectivityChanged operational => simpa [Relay.dispatch, hchart] using h
    | wakeupInd ind => simpa [Relay.dispatch, hchart] using h
  | ready =>
    have hleave : Inits { s with chart := .notReady } := { h with ready := by simp }
    cases e with
    | readinessEvt available =>
      cases available with
      | true => simpa [Relay.dispatch, hchart] using h
      | false => simpa [Relay.dispatch, hchart] using hleave
    | bridgeConnectivityChanged operational =>
      cases operational with
      | true => simpa [Relay.dispatch, hchart] using h
      | false => simpa [Relay.dispatch, hchart] using hleave
    | wakeupInd ind =>
      simp only [Relay.dispatch, hchart]
      exact { h with ready := fun _ => h.ready hchart }

/-- A step is one of the filter, forces a wakeup, has the manager take an event, or only moves what
is on its way. -/
theorem step_cases [DecidableEq κ] (hstep : step default s l = some t) :
    (∃ l' modem, l = .modem l' ∧ WsFilter.step default s.modem l' = some modem ∧
      t = { s with modem := modem }) ∨
    (∃ data, t = s.forceWakeup data) ∨
    (∃ e fifo, t = { s with fifo := fifo }.dispatch e) ∨
    ∃ events power inds fifo,
      t = { s with events := events, power := power, inds := inds, fifo := fifo } := by
  cases l with
  | modem l =>
    obtain ⟨modem, hmodem, rfl⟩ := Option.map_eq_some_iff.mp hstep
    exact Or.inl ⟨l, modem, rfl, hmodem, rfl⟩
  | forceWakeup data =>
    obtain rfl := Option.some.inj hstep
    exact Or.inr (Or.inl ⟨data, rfl⟩)
  | receive =>
    cases hevents : s.events with
    | nil => simp [step, hevents] at hstep
    | cons data events =>
      simp only [step, hevents, Option.some.injEq] at hstep
      exact Or.inr (Or.inr (Or.inr ⟨events, _, s.inds, s.fifo, hstep.symm⟩))
  | power sig =>
    obtain ⟨-, hpost⟩ := Option.ite_none_left_eq_some.mp hstep
    obtain ⟨power, -, rfl⟩ := Option.map_eq_some_iff.mp hpost
    exact Or.inr (Or.inr (Or.inr ⟨s.events, power, s.inds, s.fifo, rfl⟩))
  | dispatchPower =>
    cases hfifo : s.power.fifo with
    | nil => simp [step, hfifo] at hstep
    | cons e rest =>
      simp only [step, hfifo, Option.some.injEq] at hstep
      exact Or.inr (Or.inr (Or.inr ⟨s.events, _, _, s.fifo, hstep.symm⟩))
  | retained ready =>
    obtain rfl := Option.some.inj hstep
    exact Or.inr (Or.inr (Or.inr ⟨s.events, s.power, _, s.fifo, rfl⟩))
  | deliver =>
    cases hinds : s.inds with
    | nil => simp [step, hinds] at hstep
    | cons ind inds =>
      simp only [step, hinds, Option.some.injEq] at hstep
      exact Or.inr (Or.inr (Or.inr ⟨s.events, s.power, inds, _, hstep.symm⟩))
  | connectivity operational =>
    obtain rfl := Option.some.inj hstep
    exact Or.inr (Or.inr (Or.inr ⟨s.events, s.power, s.inds, _, rfl⟩))
  | take =>
    cases hfifo : s.fifo with
    | nil => simp [step, hfifo] at hstep
    | cons e fifo =>
      simp only [step, hfifo, Option.some.injEq] at hstep
      exact Or.inr (Or.inr (Or.inl ⟨e, fifo, hstep.symm⟩))
  | loseEvent i =>
    obtain ⟨-, ⟨⟩⟩ := Option.ite_none_right_eq_some.mp hstep
    exact Or.inr (Or.inr (Or.inr ⟨_, s.power, s.inds, s.fifo, rfl⟩))
  | loseInd i =>
    obtain ⟨-, ⟨⟩⟩ := Option.ite_none_right_eq_some.mp hstep
    exact Or.inr (Or.inr (Or.inr ⟨s.events, s.power, _, s.fifo, rfl⟩))

def RestartsSaved (default : ℕ) (s : Relay κ) : Label κ → Prop
  | .modem l => WsFilter.RestartsSaved default s.modem l
  | _ => True

instance [DecidableEq κ] (default : ℕ) (s : Relay κ) :
    ∀ l, Decidable (RestartsSaved default s l)
  | .modem l => inferInstanceAs (Decidable (WsFilter.RestartsSaved default s.modem l))
  | .forceWakeup _ | .receive | .power _ | .dispatchPower | .retained _ | .deliver
  | .connectivity _ | .take | .loseEvent _ | .loseInd _ => isTrue trivial

structure Filters [DecidableEq κ] (default : ℕ) (s : Relay κ) : Prop where
  sound : s.modem.Sound
  register : s.modem.object.filter = WsFilter.register default s.modem.log
  linear : History.Each (WsFilter.Linear default) s.modem.log
  forced : ∀ f ∈ s.forced, f.filter = WsFilter.register default f.log ∧ f.log <+: s.modem.log

theorem filters_step [DecidableEq κ] (h : s.Filters default) (hsaved : RestartsSaved default s l)
    (hstep : step default s l = some t) : t.Filters default := by
  rcases step_cases hstep with ⟨l', modem, rfl, hmodem, rfl⟩ | ⟨data, rfl⟩ | ⟨e, fifo, rfl⟩ |
    ⟨events, power, inds, fifo, rfl⟩
  · exact
      { sound := Rpc.State.sound_step h.sound hmodem
        register := (WsFilter.register_step h.register hmodem).mp hsaved
        linear := WsFilter.linear_step h.sound h.linear h.register hmodem
        forced := by
          intro f hf
          obtain ⟨hfilter, hprefix⟩ := h.forced f hf
          exact ⟨hfilter, hprefix.trans (Rpc.State.log_step hmodem)⟩ }
  · refine { h with forced := ?_ }
    intro f hf
    rcases List.mem_append.mp hf with hf | hf
    · exact h.forced f hf
    · obtain rfl := List.mem_singleton.mp hf
      exact ⟨h.register, List.prefix_rfl⟩
  · obtain ⟨chart, initCb, initCalls, heq⟩ := dispatch_eq (s := { s with fifo := fifo }) e
    rw [heq]
    exact { h with }
  · exact { h with }

end Steps

section Runs

variable [DecidableEq κ] {default : ℕ} {ls : List (Label κ)} {s : Relay κ}

theorem subperm_step {l : Label κ} {t : Relay κ} (h : s.flow.Subperm s.published)
    (hstep : step default s l = some t) : t.flow.Subperm t.published := by
  obtain ⟨new, kept, hmoves⟩ := flow_step hstep
  rw [hmoves.published, hmoves.flow]
  exact (List.subperm_append_right new).mpr (hmoves.remains.subperm.trans h)

theorem told_subperm_run (hrun : Trace.run (step default) (initial default) ls = some s) :
    s.told.Subperm s.published := by
  have hflow : s.flow.Subperm s.published :=
    Trace.run_invariant (fun _ _ _ h hstep => subperm_step h hstep) hrun (List.Subperm.refl [])
  exact (List.sublist_append_left _ _).subperm.trans hflow

/-- If each new start finds saved what the modem had, what the listeners are told has been forced,
and the modem found the bit of its source, if it has one, in the bitset that was set last before;
the layer above reads off that bit too, if the numbers have 32 bits. -/
theorem enforced_run {onWakeup : QmiWakeupInfo → Option ℕ} (htranslates : Translates onWakeup)
    (hsaved : Trace.AllSteps (step default) (RestartsSaved default) (initial default) ls)
    (hrun : Trace.run (step default) (initial default) ls = some s) {info : WakeupInfo}
    (hinfo : info ∈ s.told) :
    ∃ f ∈ s.forced, info = (Wakeup.handleWakeupEvent f.data.payload).info ∧
      f.log <+: s.modem.log ∧ History.Each (WsFilter.Linear default) s.modem.log ∧
      ∀ bit ∈ wsBitFor f.data.payload, WsFilter.register default f.log &&& bit ≠ 0 ∧
        (f.data.payload.Fits → onWakeup info.qmiWakeupInfo = some bit) := by
  have hfilters : s.Filters default :=
    Trace.run_invariant_of (fun _ _ _ h hok hstep => filters_step h hok hstep) hsaved hrun
      ⟨Rpc.State.sound_initial _, rfl, History.each_nil, by simp [initial]⟩
  have hmem := (told_subperm_run hrun).subset hinfo
  obtain ⟨f, hf, hpublished⟩ := List.mem_filterMap.mp hmem
  obtain ⟨payload, hpayload, rfl⟩ := Option.map_eq_some_iff.mp hpublished
  obtain ⟨rfl, hallowed⟩ := eq_payload_of_mem_applyForceWakeup hpayload
  obtain ⟨hfilter, hprefix⟩ := hfilters.forced f hf
  refine ⟨f, hf, rfl, hprefix, hfilters.linear, ?_⟩
  intro bit hbit
  rw [← hfilter]
  exact ⟨hallowed bit hbit, fun hfits => hfits.translated htranslates hbit⟩

/-- A layer above that has the table of the modem. -/
def comboBit (info : QmiWakeupInfo) : Option ℕ :=
  if info.isMsgIdValid then
    wsComboToBit.lookup ((info.serviceId.toNat : ℤ), (info.msgId.toNat : ℤ))
  else none

/-- Two wakeups by a message, before and after the layer above enables all sources. -/
def smsRun : List (Label ℕ) :=
  [.power .start, .dispatchPower, .dispatchPower, .deliver, .take, .forceWakeup {},
    .modem (.enableAllWs 0), .modem (.handle 0 (.set 15) true), .modem .restart, .forceWakeup {},
    .receive, .dispatchPower, .deliver, .take]

theorem enforced_sms : ∃ s, Trace.run (step 0) (initial 0) smsRun = some s ∧
    s.told.length = 1 ∧ s.forced.length = 2 ∧ ∀ info ∈ s.told, ∃ f ∈ s.forced,
      info = (Wakeup.handleWakeupEvent f.data.payload).info ∧
      ∀ bit ∈ wsBitFor f.data.payload, WsFilter.register 0 f.log &&& bit ≠ 0 ∧
        (f.data.payload.Fits → comboBit info.qmiWakeupInfo = some bit) := by
  obtain ⟨s, hrun, htold, hforced⟩ : ∃ s, Trace.run (step 0) (initial 0) smsRun = some s ∧
      s.told.length = 1 ∧ s.forced.length = 2 := ⟨_, rfl, rfl, rfl⟩
  have hsaved : Trace.AllSteps (step 0) (RestartsSaved 0) (initial 0) smsRun := by decide
  have htranslates : Translates comboBit := by
    intro info bit hvalid hbit
    rw [comboBit, if_pos hvalid, hbit]
  refine ⟨s, hrun, htold, hforced, ?_⟩
  intro info hinfo
  obtain ⟨f, hf, heq, -, -, hbit⟩ := enforced_run htranslates hsaved hrun hinfo
  exact ⟨f, hf, heq, hbit⟩

end Runs

end Relay

end TelafSim.Wakeup
