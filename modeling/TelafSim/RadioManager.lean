import TelafSim.ServiceManager

/-!
# The managers of the radio domain

`PhoneManager.cpp`, `ServingSystemManager.cpp` and `NetworkSelectionManager.cpp` under `tel/`: an
active object with the states NotReady and Ready, whose callers' threads ask for requests and set
init callbacks. A dispatch is a list of actions on what the callers read (`last_status_`, the
chart's state) and on what they hear; the calls interleave with these actions. `current_state()`
changes with the last of them, when the engine stores the new state.

The three have the same chart; they differ in their requests. The bridge calls a request's callback
back once. `initHeard`, `queued`, `told` and `answers` are recorded for the statements: what each init
callback heard and whether a request would have been accepted at that moment, the init callbacks
that have waited in `init_cbs_`, what the listeners were told, and the answers to the requests.
-/

namespace TelafSim.RadioManager

open InitGate (ServiceStatus)
open ServiceManager (Response Notice Books Balanced upFrom FitsFrom)

inductive ErrorCode
  | success
  | operationTimeout
  | subsystemUnavailable
  | invalidArguments
  deriving DecidableEq, Repr

/-- A request: the schema of its response, and whether the callback reads the response's data. -/
structure Request where
  rsp : String
  readsData : Bool
  deriving DecidableEq

def Request.code (r : Request) : Option Response → ErrorCode
  | none => .operationTimeout
  | some rsp => if rsp.error || (r.readsData && !rsp.data) then .operationTimeout else .success

def requestCellularCapability : Request := ⟨"radio.request_cellular_capability.rsp", true⟩
def requestOperatingMode : Request := ⟨"radio.request_operating_mode.rsp", true⟩
def setOperatingMode : Request := ⟨"radio.set_operating_mode.rsp", false⟩

def setRatPreference : Request := ⟨"radio.set_rat_preference.rsp", false⟩
def requestRatPreference : Request := ⟨"radio.request_rat_preference.rsp", true⟩
def requestRFBandInfo : Request := ⟨"radio.request_rf_band_info.rsp", true⟩

def setNetworkSelectionMode : Request := ⟨"radio.set_network_selection_mode.rsp", false⟩
def requestNetworkSelectionModeInfo : Request :=
  ⟨"radio.request_network_selection_mode.rsp", true⟩
def requestNetworkSelectionMode : Request := ⟨"radio.request_network_selection_mode.rsp", true⟩

/-- `setOperatingMode` turns away a mode that is not one of the enumeration's. -/
def operatingModeInRange (mode : ℤ) : Bool := 0 ≤ mode && mode ≤ 6

/-- The events. `readiness` carries the status field, empty if there is none; an event without data
carries `none`. -/
inductive Event (κ ι : Type)
  | readiness (status : Option String)
  | connectivity (operational : Bool)
  | setInitCb (c : κ)
  | indication (i : Option ι)
  | request (c : κ) (r : Request)

inductive Action (κ ι : Type)
  | publishStatus (s : ServiceStatus)
  /-- `init_cbs_` is swapped out, and its callbacks are invoked. -/
  | fire (s : ServiceStatus)
  | invoke (c : κ) (s : ServiceStatus)
  | broadcast (n : Notice ι)
  | pushInitCb (c : κ)
  | sendRequest (c : κ) (r : Request)
  | answer (c : κ) (e : ErrorCode)
  /-- The engine stores the state it has entered. -/
  | store (ready : Bool)

/-- Whose init callback an event or an action is about, and whose request. -/
def Event.init {κ ι : Type} : Event κ ι → Option κ
  | .setInitCb c => some c
  | _ => none

def Event.asker {κ ι : Type} : Event κ ι → Option κ
  | .request c _ => some c
  | _ => none

def Action.init {κ ι : Type} : Action κ ι → Option κ
  | .invoke c _ | .pushInitCb c => some c
  | _ => none

def Action.asker {κ ι : Type} : Action κ ι → Option κ
  | .sendRequest c _ | .answer c _ => some c
  | _ => none

/-- Where a call stands: an init callback about to be invoked by its own caller, or to be posted, or
handed over; a request past its check, accepted, or refused. -/
inductive Call
  | unused
  | greeting
  | arming
  | armed
  | asking (r : Request)
  | accepted
  | refused
  deriving DecidableEq

structure Manager (κ ι : Type) where
  /-- `current_state()` is the Ready state. -/
  ready : Bool
  lastStatus : ServiceStatus
  initCbs : List κ
  queue : List (Event κ ι)
  /-- What is left of the dispatch under way. -/
  actions : List (Action κ ι)
  calls : κ → Call
  inFlight : List (κ × Request)
  initHeard : List (κ × ServiceStatus × Bool)
  queued : List κ
  told : List (Notice ι)
  answers : List (κ × ErrorCode)

namespace Manager

variable {κ ι : Type}

/-- `PhoneMgrNotReady_St` and its like, with the entry of the state it goes to. -/
def notReadySt : Event κ ι → List (Action κ ι)
  | .readiness (some "AVAILABLE") =>
    [.publishStatus .available, .fire .available, .broadcast (.status .available), .store true]
  | .readiness _ => []
  | .connectivity _ => []
  | .indication _ => []
  | .setInitCb c => [.pushInitCb c]
  | .request c _ => [.answer c .subsystemUnavailable]

def leaveReady : List (Action κ ι) :=
  [.publishStatus .unavailable, .fire .unavailable, .broadcast (.status .unavailable),
    .store false]

/-- `PhoneMgrReady_St` and its like. -/
def readySt : Event κ ι → List (Action κ ι)
  | .readiness (some "UNAVAILABLE") => leaveReady
  | .readiness _ => []
  | .connectivity operational => if operational then [] else leaveReady
  | .indication (some i) => [.broadcast (.indication i)]
  | .indication none => []
  | .setInitCb c => [.invoke c .available]
  | .request c r => [.sendRequest c r]

def handle (ready : Bool) (e : Event κ ι) : List (Action κ ι) :=
  if ready then readySt e else notReadySt e

section Steps

variable [DecidableEq κ]

/-- The constructor, with or without an init callback. -/
def construct (initCb : Option κ) : Manager κ ι where
  ready := false
  lastStatus := .unavailable
  initCbs := initCb.toList
  queue := []
  actions := []
  calls := fun c => if initCb = some c then .armed else .unused
  inFlight := []
  initHeard := []
  queued := initCb.toList
  told := []
  answers := []

def setCall (c : κ) (call : Call) (m : Manager κ ι) : Manager κ ι :=
  { m with calls := Function.update m.calls c call }

def hear (c : κ) (s : ServiceStatus) (m : Manager κ ι) : Manager κ ι :=
  { m with initHeard := m.initHeard ++ [(c, s, m.ready)] }

def answer (c : κ) (e : ErrorCode) (m : Manager κ ι) : Manager κ ι :=
  { m with answers := m.answers ++ [(c, e)] }

def execute (m : Manager κ ι) : Action κ ι → Manager κ ι
  | .publishStatus s => { m with lastStatus := s }
  | .fire s => { m with initCbs := [], actions := m.initCbs.map (.invoke · s) ++ m.actions }
  | .invoke c s => m.hear c s
  | .broadcast n => { m with told := m.told ++ [n] }
  | .pushInitCb c => { m with initCbs := m.initCbs ++ [c], queued := m.queued ++ [c] }
  | .sendRequest c r => { m with inFlight := m.inFlight ++ [(c, r)] }
  | .answer c e => m.answer c e
  | .store ready => { m with ready := ready }

/-- The worker goes on with its dispatch, or takes the next event. -/
def work (m : Manager κ ι) : Option (Manager κ ι) :=
  match m.actions, m.queue with
  | a :: rest, _ => some ({ m with actions := rest }.execute a)
  | [], e :: rest => some { m with queue := rest, actions := handle m.ready e }
  | [], [] => none

def post (e : Event κ ι) (m : Manager κ ι) : Manager κ ι := { m with queue := m.queue ++ [e] }

/-- `setInitCallback` up to its check, for a callback that is not null. -/
def setInitCallback (c : κ) (m : Manager κ ι) : Manager κ ι :=
  m.setCall c (if m.ready then .greeting else .arming)

/-- A request up to its check. -/
def ask (c : κ) (r : Request) (m : Manager κ ι) : Manager κ ι :=
  m.setCall c (if m.ready then .asking r else .refused)

/-- `setOperatingMode` answers a mode out of range itself. -/
def askOperatingMode (c : κ) (mode : ℤ) (m : Manager κ ι) : Manager κ ι :=
  if m.ready && !operatingModeInRange mode then
    (m.answer c .invalidArguments).setCall c .accepted
  else m.ask c setOperatingMode

/-- What a call does behind its check. -/
def proceed (c : κ) (m : Manager κ ι) : Option (Manager κ ι) :=
  match m.calls c with
  | .greeting => some ((m.hear c .available).setCall c .armed)
  | .arming => some ((m.post (.setInitCb c)).setCall c .armed)
  | .asking r => some ((m.post (.request c r)).setCall c .accepted)
  | _ => none

inductive Label (κ ι : Type)
  | setInitCallback (c : κ)
  | ask (c : κ) (r : Request)
  | askOperatingMode (c : κ) (mode : ℤ)
  | proceed (c : κ)
  | readinessInd (status : Option String)
  | connectivityChanged (operational : Bool)
  | ind (i : Option ι)
  | work
  /-- The bridge calls back for a request. -/
  | respond (c : κ) (r : Request) (rsp : Option Response)

def step (m : Manager κ ι) : Label κ ι → Option (Manager κ ι)
  | .setInitCallback c => if m.calls c = .unused then some (m.setInitCallback c) else none
  | .ask c r => if m.calls c = .unused then some (m.ask c r) else none
  | .askOperatingMode c mode =>
    if m.calls c = .unused then some (m.askOperatingMode c mode) else none
  | .proceed c => m.proceed c
  | .readinessInd status => some (m.post (.readiness status))
  | .connectivityChanged operational => some (m.post (.connectivity operational))
  | .ind i => some (m.post (.indication i))
  | .work => m.work
  | .respond c r rsp =>
    if (c, r) ∈ m.inFlight then
      some ({ m with inFlight := m.inFlight.erase (c, r) }.answer c (r.code rsp))
    else none

end Steps

section Members

/-- What the listeners of `PhoneManager` are told of the indications' data. -/
inductive PhoneInd (δ : Type)
  | opMode (data : δ)
  | signalStrength (data : δ)
  | ecallOperatingMode (data : δ)
  | cellInfo (cells : List δ)

/-- What the listeners of `ServingSystemManager` are told. -/
inductive ServInd (δ : Type)
  | sysInfo (data : δ)
  | dcStatus (data : δ)
  | ratPref (data : δ)
  | lteCsCapability (data : δ)

variable {δ : Type}

def phoneMgrNotReadySt : Event κ (PhoneInd δ) → List (Action κ (PhoneInd δ)) := notReadySt
def phoneMgrReadySt : Event κ (PhoneInd δ) → List (Action κ (PhoneInd δ)) := readySt

def opModeEvt (data : Option δ) : Event κ (PhoneInd δ) := .indication (data.map .opMode)
def signalStrengthEvt (data : Option δ) : Event κ (PhoneInd δ) :=
  .indication (data.map .signalStrength)
def ecallOperatingModeEvt (data : Option δ) : Event κ (PhoneInd δ) :=
  .indication (data.map .ecallOperatingMode)

/-- Cells without data are an empty list, and told. -/
def cellInfoEvt (cells : Option (List δ)) : Event κ (PhoneInd δ) :=
  .indication (some (.cellInfo (cells.getD [])))

def telServNotReadySt : Event κ (ServInd δ) → List (Action κ (ServInd δ)) := notReadySt
def telServReadySt : Event κ (ServInd δ) → List (Action κ (ServInd δ)) := readySt

def sysInfoEvt (data : Option δ) : Event κ (ServInd δ) := .indication (data.map .sysInfo)
def dcStatusEvt (data : Option δ) : Event κ (ServInd δ) := .indication (data.map .dcStatus)
def ratPrefEvt (data : Option δ) : Event κ (ServInd δ) := .indication (data.map .ratPref)
def lteCsCapabilityEvt (data : Option δ) : Event κ (ServInd δ) :=
  .indication (data.map .lteCsCapability)

/-- `NetworkSelectionManager` has no indications. -/
def netSelNotReadySt : Event κ Empty → List (Action κ Empty) := notReadySt
def netSelReadySt : Event κ Empty → List (Action κ Empty) := readySt

end Members

section Tokens

variable {m : Manager κ ι} {a : Action κ ι} {rest : List (Action κ ι)} {e : Event κ ι} {c : κ}

def initTokens (m : Manager κ ι) : List κ :=
  m.queue.filterMap Event.init ++ m.actions.filterMap Action.init ++ m.initCbs ++
    m.initHeard.map Prod.fst

def askTokens (m : Manager κ ι) : List κ :=
  m.queue.filterMap Event.asker ++ m.actions.filterMap Action.asker ++ m.inFlight.map Prod.fst ++
    m.answers.map Prod.fst

/-- Where the calls stand, and where what they have handed over is. -/
def books (m : Manager κ ι) : Books κ Call := ⟨m.calls, m.initTokens, m.askTokens⟩

@[simp] theorem books_calls : m.books.calls = m.calls := rfl
@[simp] theorem books_inits : m.books.inits = m.initTokens := rfl
@[simp] theorem books_asks : m.books.asks = m.askTokens := rfl

theorem filterMap_init_handle (ready : Bool) (e : Event κ ι) :
    (handle ready e).filterMap Action.init = e.init.toList := by
  cases ready with
  | false =>
    change (notReadySt e).filterMap Action.init = _
    unfold notReadySt
    split <;> rfl
  | true =>
    change (readySt e).filterMap Action.init = _
    unfold readySt leaveReady
    split <;> (try split) <;> rfl

theorem filterMap_asker_handle (ready : Bool) (e : Event κ ι) :
    (handle ready e).filterMap Action.asker = e.asker.toList := by
  cases ready with
  | false =>
    change (notReadySt e).filterMap Action.asker = _
    unfold notReadySt
    split <;> rfl
  | true =>
    change (readySt e).filterMap Action.asker = _
    unfold readySt leaveReady
    split <;> (try split) <;> rfl

variable [DecidableEq κ]

theorem count_initTokens_execute (h : m.actions = a :: rest) :
    ({ m with actions := rest }.execute a).initTokens.count c = m.initTokens.count c := by
  unfold initTokens
  rw [h]
  cases a <;> simp [execute, hear, answer, Action.init, Function.comp_def, List.filterMap_cons,
    List.count_cons, List.count_append] <;> omega

theorem count_askTokens_execute (h : m.actions = a :: rest) :
    ({ m with actions := rest }.execute a).askTokens.count c = m.askTokens.count c := by
  unfold askTokens
  rw [h]
  cases a <;> simp [execute, hear, answer, Action.asker, Function.comp_def, List.filterMap_cons,
    List.count_cons, List.count_append] <;> omega

abbrev Counted (m : Manager κ ι) : Prop := Balanced .armed .accepted m.books

theorem counted_construct (initCb : Option κ) : (construct initCb : Manager κ ι).Counted := by
  have hinits : (construct initCb : Manager κ ι).initTokens = initCb.toList := by
    simp [construct, initTokens]
  have h := ServiceManager.balanced_construct Call.armed .accepted .unused (by simp) (by simp)
    initCb
  rw [← hinits] at h
  exact h

variable {m' : Manager κ ι}

theorem Counted.inits (h : m.Counted) (c : κ) :
    m.initTokens.count c = if m.calls c = .armed then 1 else 0 := Balanced.inits h c

theorem Counted.asks (h : m.Counted) (c : κ) :
    m.askTokens.count c = if m.calls c = .accepted then 1 else 0 := Balanced.asks h c

theorem Counted.goOn {call : Call} (h : m.Counted) (hcalls : m'.calls = m.calls)
    (hc : m.calls c ≠ .armed ∧ m.calls c ≠ .accepted)
    (hinit : ∀ c', m'.initTokens.count c' =
      m.initTokens.count c' + if c = c' ∧ call = .armed then 1 else 0)
    (hask : ∀ c', m'.askTokens.count c' =
      m.askTokens.count c' + if c = c' ∧ call = .accepted then 1 else 0) :
    (m'.setCall c call).Counted := by
  have hupdate : (m'.setCall c call).books.calls = Function.update m.books.calls c call := by
    change Function.update m'.calls c call = _
    rw [hcalls]
    rfl
  exact Balanced.goOn h hupdate hc hinit hask

theorem Counted.post (h : m.Counted) (hinit : e.init = none) (hasker : e.asker = none) :
    (m.post e).Counted := by
  refine h.congr rfl ?_ ?_
  · intro c
    simp [Manager.post, initTokens, hinit]
  · intro c
    simp [Manager.post, askTokens, hasker]

theorem Counted.work (h : m.Counted) (hwork : m.work = some m') : m'.Counted := by
  unfold Manager.work at hwork
  split at hwork
  · rename_i a rest hactions
    cases hwork
    apply h.congr ?_ (fun c => count_initTokens_execute hactions)
      (fun c => count_askTokens_execute hactions)
    cases a <;> rfl
  · rename_i e rest hactions hqueue
    cases hwork
    refine h.congr rfl ?_ ?_
    · intro c
      simp [initTokens, hactions, hqueue, filterMap_init_handle, List.filterMap_cons]
      cases e.init with
      | none => simp
      | some c' =>
        simp [List.count_cons]
        omega
    · intro c
      simp [askTokens, hactions, hqueue, filterMap_asker_handle, List.filterMap_cons]
      cases e.asker with
      | none => simp
      | some c' =>
        simp [List.count_cons]
        omega
  · cases hwork

theorem Counted.proceed (h : m.Counted) (hproceed : m.proceed c = some m') : m'.Counted := by
  unfold Manager.proceed at hproceed
  split at hproceed <;> rename_i hcall <;> cases hproceed
  · refine h.goOn rfl (by simp [hcall]) ?_ ?_
    · intro c'
      simp [hear, initTokens, List.count_singleton]
      omega
    · intro c'
      simp [hear, askTokens]
  · refine h.goOn rfl (by simp [hcall]) ?_ ?_
    · intro c'
      simp [Manager.post, initTokens, Event.init, List.count_cons]
      omega
    · intro c'
      simp [Manager.post, askTokens, Event.asker, List.filterMap_cons]
  · refine h.goOn rfl (by simp [hcall]) ?_ ?_
    · intro c'
      simp [Manager.post, initTokens, Event.init, List.filterMap_cons]
    · intro c'
      simp [Manager.post, askTokens, Event.asker, List.count_cons]
      omega

theorem Counted.check (h : m.Counted) (hc : m.calls c = .unused) {call : Call}
    (hcall : call ≠ .armed ∧ call ≠ .accepted) : (m.setCall c call).Counted :=
  Balanced.check h rfl (by simp [hc]) hcall rfl rfl

theorem counted_step (h : m.Counted) {l : Label κ ι} (hstep : m.step l = some m') :
    m'.Counted := by
  cases l with
  | setInitCallback c =>
    obtain ⟨hc, heq⟩ := Option.ite_none_right_eq_some.mp hstep
    cases heq
    apply h.check hc
    split <;> simp
  | ask c r =>
    obtain ⟨hc, heq⟩ := Option.ite_none_right_eq_some.mp hstep
    cases heq
    apply h.check hc
    split <;> simp
  | askOperatingMode c mode =>
    obtain ⟨hc, heq⟩ := Option.ite_none_right_eq_some.mp hstep
    cases heq
    unfold askOperatingMode
    split
    · refine h.goOn rfl (by simp [hc]) ?_ ?_
      · intro c'
        simp [answer, initTokens]
      · intro c'
        simp [answer, askTokens, List.count_singleton]
        omega
    · apply h.check hc
      split <;> simp
  | proceed c => exact h.proceed hstep
  | readinessInd status =>
    cases hstep
    exact h.post rfl rfl
  | connectivityChanged operational =>
    cases hstep
    exact h.post rfl rfl
  | ind i =>
    cases hstep
    exact h.post rfl rfl
  | work => exact h.work hstep
  | respond c r rsp =>
    obtain ⟨hmem, heq⟩ := Option.ite_none_right_eq_some.mp hstep
    cases heq
    refine h.congr rfl (fun c' => rfl) ?_
    intro c'
    have hperm := ((List.perm_cons_erase hmem).map Prod.fst).count_eq c'
    simp [answer, askTokens, List.count_cons] at hperm ⊢
    omega

end Tokens

section Phases

variable {m m' : Manager κ ι} {c : κ}

/-- The listeners were last told that the service is available. -/
abbrev up (told : List (Notice ι)) : Bool := upFrom false told

/-- A status is news, and indications come while the service is available. -/
abbrev Fits (told : List (Notice ι)) : Notice ι → Prop := FitsFrom false told

/-- The rest of the way into Ready, behind the init callbacks. -/
def entered : List (Action κ ι) := [.broadcast (.status .available), .store true]

/-- Where the worker stands: the chart's state, `last_status_`, `init_cbs_`, what the listeners
believe, and what is left to do. -/
inductive Phase : Bool → ServiceStatus → List κ → Bool → List (Action κ ι) → Prop
  | notReady (cbs : List κ) : Phase false .unavailable cbs false []
  | push (cbs : List κ) (c : κ) : Phase false .unavailable cbs false [.pushInitCb c]
  | refuse (cbs : List κ) (c : κ) :
    Phase false .unavailable cbs false [.answer c .subsystemUnavailable]
  | entering (cbs : List κ) :
    Phase false .unavailable cbs false (.publishStatus .available :: .fire .available :: entered)
  | published (cbs : List κ) : Phase false .available cbs false (.fire .available :: entered)
  | firing (c : κ) (cbs : List κ) : Phase false .available [] false
    (.invoke c .available :: (cbs.map (.invoke · .available) ++ entered))
  | fired : Phase false .available [] false entered
  | announced : Phase false .available [] true [.store true]
  | ready : Phase true .available [] true []
  | greet (c : κ) : Phase true .available [] true [.invoke c .available]
  | relay (i : ι) : Phase true .available [] true [.broadcast (.indication i)]
  | send (c : κ) (r : Request) : Phase true .available [] true [.sendRequest c r]
  | leaving : Phase true .available [] true leaveReady
  | withdrawn : Phase true .unavailable [] true (leaveReady.drop 1)
  | drained : Phase true .unavailable [] true (leaveReady.drop 2)
  | left : Phase true .unavailable [] false (leaveReady.drop 3)

theorem phase_firing (cbs : List κ) :
    Phase false .available [] false
      (cbs.map (.invoke · .available) ++ entered : List (Action κ ι)) := by
  cases cbs with
  | nil => exact .fired
  | cons c cbs => exact .firing c cbs

theorem phase_handle_notReady (cbs : List κ) (e : Event κ ι) :
    Phase false .unavailable cbs false (notReadySt e) := by
  unfold notReadySt
  split
  · exact .entering cbs
  · exact .notReady cbs
  · exact .notReady cbs
  · exact .notReady cbs
  · exact .push cbs _
  · exact .refuse cbs _

theorem phase_handle_ready (e : Event κ ι) : Phase true .available [] true (readySt e) := by
  unfold readySt
  split
  · exact .leaving
  · exact .ready
  · split
    · exact .ready
    · exact .leaving
  · exact .relay _
  · exact .ready
  · exact .greet _
  · exact .send _ _

/-- What the callers have heard and the listeners have been told, and where the worker stands. -/
structure Sound (m : Manager κ ι) : Prop where
  phase : Phase m.ready m.lastStatus m.initCbs (up m.told) m.actions
  told : History.Each Fits m.told
  heard : ∀ h ∈ m.initHeard, h.2.1 = .available

theorem sound_construct [DecidableEq κ] (initCb : Option κ) :
    (construct initCb : Manager κ ι).Sound :=
  ⟨.notReady _, History.each_nil, by simp [construct]⟩

/-- A step that leaves the worker, what it touches and what was heard alone. -/
theorem Sound.congr (h : m.Sound) (hready : m'.ready = m.ready)
    (hstatus : m'.lastStatus = m.lastStatus) (hcbs : m'.initCbs = m.initCbs)
    (hactions : m'.actions = m.actions) (htold : m'.told = m.told)
    (hheard : ∀ h ∈ m'.initHeard, h ∈ m.initHeard ∨ h.2.1 = .available) : m'.Sound := by
  refine ⟨by rw [hready, hstatus, hcbs, hactions, htold]; exact h.phase, htold ▸ h.told, ?_⟩
  intro x hx
  rcases hheard x hx with hold | hnew
  · exact h.heard x hold
  · exact hnew

theorem Sound.take (h : m.Sound) (hactions : m.actions = []) (e : Event κ ι)
    (queue : List (Event κ ι)) :
    { m with queue := queue, actions := handle m.ready e }.Sound := by
  refine ⟨?_, h.told, h.heard⟩
  have hphase := h.phase
  rw [hactions] at hphase
  change Phase m.ready m.lastStatus m.initCbs (up m.told) (handle m.ready e)
  generalize m.ready = ready, m.lastStatus = s, m.initCbs = cbs, up m.told = b at hphase ⊢
  cases hphase with
  | notReady => exact phase_handle_notReady cbs e
  | ready => exact phase_handle_ready e

theorem Sound.execute (h : m.Sound) {a : Action κ ι} {rest : List (Action κ ι)}
    (hactions : m.actions = a :: rest) : ({ m with actions := rest }.execute a).Sound := by
  have hphase := h.phase
  rw [hactions] at hphase
  generalize hready : m.ready = ready, hstatus : m.lastStatus = s, hcbs : m.initCbs = cbs,
    hup : up m.told = b at hphase
  have hhear : ∀ c b, ∀ x ∈ m.initHeard ++ [(c, .available, b)], x.2.1 = .available := by
    intro c b x hx
    rcases List.mem_append.mp hx with hold | hnew
    · exact h.heard x hold
    · rw [List.mem_singleton.mp hnew]
  cases hphase with
  | push c =>
    exact ⟨by simpa [Manager.execute, hready, hstatus, hup] using .notReady _, h.told, h.heard⟩
  | refuse c =>
    exact ⟨by simpa [Manager.execute, answer, hready, hstatus, hup] using .notReady _, h.told, h.heard⟩
  | entering =>
    exact ⟨by simpa [Manager.execute, hready, hcbs, hup] using .published _, h.told, h.heard⟩
  | published =>
    exact ⟨by simpa [Manager.execute, hready, hcbs, hstatus, hup] using phase_firing cbs,
      h.told, h.heard⟩
  | firing c cbs =>
    exact ⟨by simpa [Manager.execute, hear, hready, hcbs, hstatus, hup] using phase_firing cbs, h.told,
      hhear c _⟩
  | fired =>
    exact ⟨by simpa [Manager.execute, hready, hcbs, hstatus] using .announced,
      History.each_concat.mpr ⟨h.told, hup⟩, h.heard⟩
  | announced =>
    exact ⟨by simpa [Manager.execute, hcbs, hstatus, hup] using .ready, h.told, h.heard⟩
  | greet c =>
    exact ⟨by simpa [Manager.execute, hear, hready, hcbs, hstatus, hup] using .ready, h.told,
      hhear c _⟩
  | relay i =>
    exact ⟨by simpa [Manager.execute, hready, hcbs, hstatus, hup] using .ready,
      History.each_concat.mpr ⟨h.told, hup⟩, h.heard⟩
  | send c r =>
    exact ⟨by simpa [Manager.execute, hready, hcbs, hstatus, hup] using .ready, h.told, h.heard⟩
  | leaving =>
    exact ⟨by simpa [Manager.execute, hready, hcbs, hup] using .withdrawn, h.told, h.heard⟩
  | withdrawn =>
    exact ⟨by simpa [Manager.execute, hready, hcbs, hstatus, hup] using .drained, h.told, h.heard⟩
  | drained =>
    exact ⟨by simpa [Manager.execute, hready, hcbs, hstatus] using .left,
      History.each_concat.mpr ⟨h.told, hup⟩, h.heard⟩
  | left =>
    exact ⟨by simpa [Manager.execute, hcbs, hstatus, hup] using .notReady [], h.told, h.heard⟩

theorem phase_push {r b : Bool} {s : ServiceStatus} {cbs : List κ} {rest : List (Action κ ι)}
    (h : Phase r s cbs b (.pushInitCb c :: rest)) : rest = [] := by
  cases h
  rfl

theorem phase_store {r b ready : Bool} {s : ServiceStatus} {cbs : List κ}
    {rest : List (Action κ ι)} (h : Phase r s cbs b (.store ready :: rest)) : rest = [] := by
  cases h <;> rfl

theorem phase_fire {r b : Bool} {s s' : ServiceStatus} {cbs : List κ} {rest : List (Action κ ι)}
    (h : Phase r s cbs b (.fire s' :: rest)) :
    (cbs = [] ∨ r = false) ∧ rest.filterMap Action.init = [] := by
  cases h with
  | published => exact ⟨.inr rfl, rfl⟩
  | withdrawn => exact ⟨.inl rfl, rfl⟩

/-- The init callbacks that have waited in `init_cbs_` are heard of before the chart is in Ready, the
others are not. -/
structure Fronted (m : Manager κ ι) : Prop where
  waiting : ∀ c ∈ m.initCbs, c ∈ m.queued
  queue : ∀ c ∈ m.queued, c ∉ m.queue.filterMap Event.init
  pushing : ∀ c ∈ m.queued, .pushInitCb c ∉ m.actions
  invoking : ∀ c s, .invoke c s ∈ m.actions → (c ∈ m.queued ↔ m.ready = false)
  calls : ∀ c ∈ m.queued, m.calls c = .armed
  heard : ∀ h ∈ m.initHeard, h.1 ∈ m.queued → h.2.2 = false

theorem fronted_construct [DecidableEq κ] (initCb : Option κ) :
    (construct initCb : Manager κ ι).Fronted := by
  constructor <;> simp [construct]

theorem mem_init_of_pushInitCb {actions : List (Action κ ι)} (h : .pushInitCb c ∈ actions) :
    c ∈ actions.filterMap Action.init := List.mem_filterMap.mpr ⟨_, h, rfl⟩

theorem mem_init_of_invoke {actions : List (Action κ ι)} {s : ServiceStatus}
    (h : .invoke c s ∈ actions) : c ∈ actions.filterMap Action.init :=
  List.mem_filterMap.mpr ⟨_, h, rfl⟩

theorem handle_invoke {ready : Bool} {e : Event κ ι} {s : ServiceStatus}
    (h : .invoke c s ∈ handle ready e) : ready = true := by
  cases ready with
  | true => rfl
  | false =>
    exfalso
    revert h
    change _ ∈ notReadySt e → _
    unfold notReadySt
    split <;> simp

theorem Fronted.take (h : m.Fronted) {e : Event κ ι} {queue : List (Event κ ι)}
    (hqueue : m.queue = e :: queue) :
    { m with queue := queue, actions := handle m.ready e }.Fronted := by
  have hout : ∀ c ∈ (handle m.ready e).filterMap Action.init, c ∉ m.queued := by
    intro c hc hqueued
    rw [filterMap_init_handle, Option.mem_toList] at hc
    apply h.queue c hqueued
    rw [hqueue]
    exact List.mem_filterMap.mpr ⟨e, List.mem_cons_self, hc⟩
  refine ⟨h.waiting, ?_, ?_, ?_, h.calls, h.heard⟩
  · intro c hc hmem
    apply h.queue c hc
    rw [hqueue]
    exact (List.sublist_cons_self e queue).filterMap Event.init |>.subset hmem
  · exact fun c hc hpush => hout c (mem_init_of_pushInitCb hpush) hc
  · intro c s hinvoke
    have hready : m.ready = true := handle_invoke hinvoke
    have hnot := hout c (mem_init_of_invoke hinvoke)
    simp [hnot, hready]

/-- A step that neither hands over an init callback nor moves the worker. -/
theorem Fronted.congr (h : m.Fronted) (hcbs : m'.initCbs = m.initCbs)
    (hqueued : m'.queued = m.queued)
    (hqueue : ∀ c ∈ m.queued, c ∈ m'.queue.filterMap Event.init → c ∈ m.queue.filterMap Event.init)
    (hactions : ∀ a ∈ m'.actions, a ∈ m.actions) (hready : m'.ready = m.ready)
    (hcalls : ∀ c, m.calls c = .armed → m'.calls c = .armed)
    (hheard : ∀ h ∈ m'.initHeard, h ∈ m.initHeard ∨ (h.1 ∈ m.queued → h.2.2 = false)) :
    m'.Fronted := by
  refine ⟨?_, ?_, ?_, ?_, ?_, ?_⟩
  · rw [hcbs, hqueued]
    exact h.waiting
  · rw [hqueued]
    exact fun c hc hmem => h.queue c hc (hqueue c hc hmem)
  · rw [hqueued]
    exact fun c hc hpush => h.pushing c hc (hactions _ hpush)
  · rw [hqueued, hready]
    exact fun c s hinvoke => h.invoking c s (hactions _ hinvoke)
  · rw [hqueued]
    exact fun c hc => hcalls c (h.calls c hc)
  · rw [hqueued]
    intro x hx
    rcases hheard x hx with hold | hnew
    · exact h.heard x hold
    · exact hnew

variable [DecidableEq κ]

theorem Fronted.execute (h : m.Fronted) (hcounted : m.Counted) (hsound : m.Sound)
    {a : Action κ ι} {rest : List (Action κ ι)} (hactions : m.actions = a :: rest) :
    ({ m with actions := rest }.execute a).Fronted := by
  have hphase := hsound.phase
  rw [hactions] at hphase
  have hrest : ∀ a' ∈ rest, a' ∈ m.actions := by
    intro a' ha'
    rw [hactions]
    exact List.mem_cons_of_mem a ha'
  have hhead : a ∈ m.actions := hactions ▸ List.mem_cons_self
  cases a with
  | publishStatus s =>
    exact h.congr rfl rfl (fun _ _ h => h) hrest rfl (fun _ h => h) (fun _ h => .inl h)
  | broadcast n =>
    exact h.congr rfl rfl (fun _ _ h => h) hrest rfl (fun _ h => h) (fun _ h => .inl h)
  | sendRequest c r =>
    exact h.congr rfl rfl (fun _ _ h => h) hrest rfl (fun _ h => h) (fun _ h => .inl h)
  | answer c e =>
    exact h.congr rfl rfl (fun _ _ h => h) hrest rfl (fun _ h => h) (fun _ h => .inl h)
  | invoke c s =>
    refine h.congr rfl rfl (fun _ _ h => h) hrest rfl (fun _ h => h) ?_
    intro x hx
    rcases List.mem_append.mp hx with hold | hnew
    · exact .inl hold
    · right
      rw [List.mem_singleton.mp hnew]
      exact (h.invoking c s hhead).mp
  | store ready =>
    obtain rfl := phase_store hphase
    exact ⟨h.waiting, h.queue, by simp [Manager.execute], by simp [Manager.execute], h.calls, h.heard⟩
  | fire s =>
    obtain ⟨hcbs, hnone⟩ := phase_fire hphase
    refine ⟨by simp [Manager.execute], h.queue, ?_, ?_, h.calls, h.heard⟩
    · intro c hc hmem
      rcases List.mem_append.mp hmem with hmap | hmem
      · simp at hmap
      · exact h.pushing c hc (hrest _ hmem)
    · intro c s' hmem
      rcases List.mem_append.mp hmem with hmap | hmem
      · obtain ⟨c', hc', heq⟩ := List.mem_map.mp hmap
        cases heq
        have hready : m.ready = false := by
          rcases hcbs with hnil | hready
          · rw [hnil] at hc'
            cases hc'
          · exact hready
        exact iff_of_true (h.waiting c hc') hready
      · have hinit := mem_init_of_invoke hmem
        rw [hnone] at hinit
        cases hinit
  | pushInitCb c =>
    obtain rfl := phase_push hphase
    -- The action holds the only token of this callback.
    have htoken := hcounted.inits c
    have hone : c ∉ m.queue.filterMap Event.init ∧ c ∉ m.initHeard.map Prod.fst ∧
        m.calls c = .armed := by
      unfold initTokens at htoken
      rw [hactions] at htoken
      simp only [List.count_append, List.filterMap_cons, Action.init, List.count_cons_self] at htoken
      refine ⟨?_, ?_, ?_⟩
      · intro hmem
        have hpos := List.count_pos_iff.mpr hmem
        split at htoken <;> omega
      · intro hmem
        have hpos := List.count_pos_iff.mpr hmem
        split at htoken <;> omega
      · by_contra hnot
        rw [if_neg hnot] at htoken
        omega
    have hqueued : ∀ c' ∈ m.queued ++ [c], c' ∈ m.queued ∨ c' = c := by simp
    refine ⟨?_, ?_, by simp [Manager.execute], by simp [Manager.execute], ?_, ?_⟩
    · intro c' hc'
      rcases List.mem_append.mp hc' with hold | hnew
      · exact List.mem_append_left _ (h.waiting c' hold)
      · exact List.mem_append_right _ hnew
    · intro c' hc'
      rcases hqueued c' hc' with hold | rfl
      · exact h.queue c' hold
      · exact hone.1
    · intro c' hc'
      rcases hqueued c' hc' with hold | rfl
      · exact h.calls c' hold
      · exact hone.2.2
    · intro x hx hc'
      rcases hqueued x.1 hc' with hold | heq
      · exact h.heard x hx hold
      · exact absurd (List.mem_map.mpr ⟨x, hx, heq⟩) hone.2.1

end Phases

section Run

variable [DecidableEq κ] {m m' : Manager κ ι} {c : κ}

structure Kept (m : Manager κ ι) : Prop where
  counted : m.Counted
  sound : m.Sound
  fronted : m.Fronted

theorem kept_construct (initCb : Option κ) : (construct initCb : Manager κ ι).Kept :=
  ⟨counted_construct initCb, sound_construct initCb, fronted_construct initCb⟩

/-- A call that has not handed an init callback over goes on. -/
theorem armed_update {calls : κ → Call} {call : Call} (hc : calls c ≠ .armed) {c' : κ}
    (h : calls c' = .armed) : Function.update calls c call c' = .armed := by
  have hne : c' ≠ c := by
    rintro rfl
    exact hc h
  exact (Function.update_of_ne hne ..).trans h

theorem Kept.check (h : m.Kept) (hc : m.calls c = .unused) {call : Call}
    (hcall : call ≠ .armed ∧ call ≠ .accepted) : (m.setCall c call).Kept :=
  ⟨h.counted.check hc hcall, h.sound.congr rfl rfl rfl rfl rfl (fun _ h => .inl h),
    h.fronted.congr rfl rfl (fun _ _ h => h) (fun _ h => h) rfl
      (fun _ h => armed_update (by rw [hc]; simp) h) (fun _ h => .inl h)⟩

theorem Kept.post (h : m.Kept) {e : Event κ ι} (hinit : e.init = none) (hasker : e.asker = none) :
    (m.post e).Kept := by
  refine ⟨h.counted.post hinit hasker, h.sound.congr rfl rfl rfl rfl rfl (fun _ h => .inl h),
    h.fronted.congr rfl rfl ?_ (fun _ h => h) rfl (fun _ h => h) (fun _ h => .inl h)⟩
  intro c _ hmem
  simpa [Manager.post, hinit, List.filterMap_cons] using hmem

theorem Kept.work (h : m.Kept) (hwork : m.work = some m') : m'.Kept := by
  refine ⟨h.counted.work hwork, ?_, ?_⟩ <;> unfold Manager.work at hwork <;> split at hwork
  · rename_i hactions
    cases hwork
    exact h.sound.execute hactions
  · rename_i hactions _
    cases hwork
    exact h.sound.take hactions _ _
  · cases hwork
  · rename_i hactions
    cases hwork
    exact h.fronted.execute h.counted h.sound hactions
  · rename_i hqueue
    cases hwork
    exact h.fronted.take hqueue
  · cases hwork

theorem Kept.proceed (h : m.Kept) (hproceed : m.proceed c = some m') : m'.Kept := by
  refine ⟨h.counted.proceed hproceed, ?_, ?_⟩ <;> unfold Manager.proceed at hproceed <;>
    split at hproceed <;> rename_i hcall <;> cases hproceed
  · refine h.sound.congr rfl rfl rfl rfl rfl ?_
    intro x hx
    rcases List.mem_append.mp hx with hold | hnew
    · exact .inl hold
    · exact .inr (by rw [List.mem_singleton.mp hnew])
  · exact h.sound.congr rfl rfl rfl rfl rfl (fun _ h => .inl h)
  · exact h.sound.congr rfl rfl rfl rfl rfl (fun _ h => .inl h)
  · have hne : m.calls c ≠ .armed := by simp [hcall]
    have hnot : c ∉ m.queued := fun hmem => hne (h.fronted.calls c hmem)
    refine h.fronted.congr rfl rfl (fun _ _ h => h) (fun _ h => h) rfl
      (fun _ h => armed_update hne h) ?_
    intro x hx
    rcases List.mem_append.mp hx with hold | hnew
    · exact .inl hold
    · right
      rw [List.mem_singleton.mp hnew]
      exact fun hmem => absurd hmem hnot
  · have hne : m.calls c ≠ .armed := by simp [hcall]
    have hnot : c ∉ m.queued := fun hmem => hne (h.fronted.calls c hmem)
    refine h.fronted.congr rfl rfl ?_ (fun _ h => h) rfl
      (fun _ h => armed_update hne h) (fun _ h => .inl h)
    intro c' hc' hmem
    change c' ∈ (m.queue ++ [Event.setInitCb c]).filterMap Event.init at hmem
    rw [List.filterMap_append, List.mem_append] at hmem
    rcases hmem with hold | hnew
    · exact hold
    · obtain rfl : c' = c := by simpa [Event.init] using hnew
      exact absurd hc' hnot
  · have hne : m.calls c ≠ .armed := by simp [hcall]
    refine h.fronted.congr rfl rfl ?_ (fun _ h => h) rfl (fun _ h => armed_update hne h)
      (fun _ h => .inl h)
    intro c' _ hmem
    simpa [Manager.setCall, Manager.post, Event.init, List.filterMap_cons] using hmem

theorem kept_step (h : m.Kept) {l : Label κ ι} (hstep : m.step l = some m') : m'.Kept := by
  cases l with
  | setInitCallback c =>
    obtain ⟨hc, heq⟩ := Option.ite_none_right_eq_some.mp hstep
    cases heq
    apply h.check hc
    split <;> simp
  | ask c r =>
    obtain ⟨hc, heq⟩ := Option.ite_none_right_eq_some.mp hstep
    cases heq
    apply h.check hc
    split <;> simp
  | askOperatingMode c mode =>
    obtain ⟨hc, heq⟩ := Option.ite_none_right_eq_some.mp hstep
    have hcounted := counted_step h.counted hstep
    cases heq
    unfold askOperatingMode at hcounted ⊢
    split
    · rename_i hout
      rw [if_pos hout] at hcounted
      have hne : m.calls c ≠ .armed := by simp [hc]
      exact ⟨hcounted, h.sound.congr rfl rfl rfl rfl rfl (fun _ h => .inl h),
        h.fronted.congr rfl rfl (fun _ _ h => h) (fun _ h => h) rfl
          (fun _ h => armed_update hne h) (fun _ h => .inl h)⟩
    · apply h.check hc
      split <;> simp
  | proceed c => exact h.proceed hstep
  | readinessInd status =>
    cases hstep
    exact h.post rfl rfl
  | connectivityChanged operational =>
    cases hstep
    exact h.post rfl rfl
  | ind i =>
    cases hstep
    exact h.post rfl rfl
  | work => exact h.work hstep
  | respond c r rsp =>
    have hcounted := counted_step h.counted hstep
    obtain ⟨-, heq⟩ := Option.ite_none_right_eq_some.mp hstep
    cases heq
    exact ⟨hcounted, h.sound.congr rfl rfl rfl rfl rfl (fun _ h => .inl h),
      h.fronted.congr rfl rfl (fun _ _ h => h) (fun _ h => h) rfl (fun _ h => h)
        (fun _ h => .inl h)⟩

theorem kept_run {initCb : Option κ} {ls : List (Label κ ι)}
    (hrun : Trace.run step (construct initCb) ls = some m) : m.Kept :=
  Trace.run_invariant (fun _ _ _ h hstep => kept_step h hstep) hrun (kept_construct initCb)

def Idle (m : Manager κ ι) : Prop := m.actions = [] ∧ m.queue = []

/-- In every run an init callback is invoked at most once and told that the service is available,
never anything else: the list is empty whenever the exit of Ready would fail those on it. One that
waited on the list is told so while a request of its caller would still be refused. When the worker
is idle, those not invoked wait on the list, and the chart is in NotReady. -/
theorem initialized_run {initCb : Option κ} {ls : List (Label κ ι)}
    (hrun : Trace.run step (construct initCb) ls = some m) :
    (∀ c, (m.initHeard.map Prod.fst).count c ≤ 1) ∧
    (∀ h ∈ m.initHeard, h.2.1 = .available ∧ (h.1 ∈ m.queued → h.2.2 = false)) ∧
    (m.actions.head? = some (.fire .unavailable) → m.initCbs = []) ∧
    (m.Idle → ∀ c, m.calls c = .armed → (m.initHeard.map Prod.fst).count c = 1 ∨
      c ∈ m.initCbs ∧ m.ready = false) := by
  have h := kept_run hrun
  have htoken := h.counted.inits
  unfold initTokens at htoken
  refine ⟨?_, ?_, ?_, ?_⟩
  · intro c
    have hc := htoken c
    simp only [List.count_append] at hc
    split at hc <;> omega
  · exact fun x hx => ⟨h.sound.heard x hx, h.fronted.heard x hx⟩
  · intro hhead
    have hphase := h.sound.phase
    cases hactions : m.actions with
    | nil =>
      rw [hactions] at hhead
      cases hhead
    | cons a rest =>
      rw [hactions] at hhead hphase
      obtain rfl := Option.some.inj hhead
      generalize m.ready = ready, m.lastStatus = s, m.initCbs = cbs, up m.told = b at hphase ⊢
      cases hphase
      rfl
  · rintro ⟨hactions, hqueue⟩ c hc
    have hc' := htoken c
    rw [if_pos hc, hactions, hqueue] at hc'
    simp only [List.filterMap_nil, List.nil_append, List.count_append] at hc'
    by_cases hmem : c ∈ m.initCbs
    · right
      refine ⟨hmem, ?_⟩
      have hphase := h.sound.phase
      rw [hactions] at hphase
      generalize m.ready = ready, m.lastStatus = s, m.initCbs = cbs, up m.told = b at hphase hmem ⊢
      cases hphase with
      | notReady => rfl
      | ready => cases hmem
    · left
      rw [List.count_eq_zero.mpr hmem] at hc'
      omega

/-- In every run a request is answered at most once, and not at all if it was refused; when the
worker is idle and the bridge has called back for all it was sent, each accepted one has been
answered. -/
theorem answered_run {initCb : Option κ} {ls : List (Label κ ι)}
    (hrun : Trace.run step (construct initCb) ls = some m) :
    (∀ c, (m.answers.map Prod.fst).count c ≤ if m.calls c = .accepted then 1 else 0) ∧
    (m.Idle → m.inFlight = [] → ∀ c, m.calls c = .accepted →
      (m.answers.map Prod.fst).count c = 1) := by
  have htoken := (kept_run hrun).counted.asks
  unfold askTokens at htoken
  constructor
  · intro c
    rw [← htoken c]
    simp only [List.count_append]
    omega
  · rintro ⟨hactions, hqueue⟩ hflight c hc
    have hc' := htoken c
    rw [if_pos hc, hactions, hqueue, hflight] at hc'
    simpa using hc'

/-- In every run the listeners hear in turn that the service is available and that it is not, first
that it is, and the indications in between. The service status says available and the chart is not
in Ready exactly while the entry of Ready is under way; when the worker has nothing under way, the
status, the chart and the listeners agree. -/
theorem told_run {initCb : Option κ} {ls : List (Label κ ι)}
    (hrun : Trace.run step (construct initCb) ls = some m) :
    History.Each Fits m.told ∧
    (m.lastStatus = .available ∧ m.ready = false ↔ m.ready = false ∧ .store true ∈ m.actions ∧
      .publishStatus .available ∉ m.actions) ∧
    (m.actions = [] → up m.told = m.ready ∧ (m.lastStatus = .available ↔ m.ready = true)) := by
  have h := kept_run hrun
  have hphase := h.sound.phase
  refine ⟨h.sound.told, ?_, ?_⟩
  · generalize m.ready = ready, m.lastStatus = s, m.initCbs = cbs, up m.told = b,
      m.actions = actions at hphase
    cases hphase <;> simp [entered, leaveReady]
  · intro hactions
    rw [hactions] at hphase
    generalize m.ready = ready, m.lastStatus = s, m.initCbs = cbs, up m.told = b at hphase
    cases hphase <;> simp

/-- The constructor's callback waits; a request is answered, another one is too late, and a second
callback comes when Ready has been left. -/
def outage : List (Label ℕ ℕ) :=
  [.readinessInd (some "AVAILABLE"), .work, .work, .work, .work, .work, .work,
    .ask 1 requestOperatingMode, .ask 2 setRatPreference, .proceed 1, .ind (some 5),
    .connectivityChanged false, .proceed 2, .work, .work, .respond 1 requestOperatingMode none,
    .work, .work, .work, .work, .work, .work, .work, .setInitCallback 3, .proceed 3, .work, .work,
    .work, .work]

theorem initialized_outage : ∃ m, Trace.run step (construct (some 0)) outage = some m ∧
    (∀ h ∈ m.initHeard, h.2.1 = .available ∧ (h.1 ∈ m.queued → h.2.2 = false)) ∧
    (3 ∈ m.initCbs ∧ m.ready = false) := by
  have hrun : Trace.run step (construct (some 0)) outage = some _ := rfl
  obtain ⟨-, hheard, -, hidle⟩ := initialized_run hrun
  exact ⟨_, hrun, hheard, (hidle ⟨rfl, rfl⟩ 3 rfl).resolve_left (by decide)⟩

theorem answered_outage : ∃ m, Trace.run step (construct (some 0)) outage = some m ∧
    m.answers = [(1, .operationTimeout), (2, .subsystemUnavailable)] ∧
    (m.answers.map Prod.fst).count 1 = 1 ∧ (m.answers.map Prod.fst).count 2 = 1 := by
  have hrun : Trace.run step (construct (some 0)) outage = some _ := rfl
  have hall := (answered_run hrun).2 ⟨rfl, rfl⟩ rfl
  exact ⟨_, hrun, rfl, hall 1 rfl, hall 2 rfl⟩

theorem told_outage : ∃ m, Trace.run step (construct (some 0)) outage = some m ∧
    m.told = [.status .available, .indication 5, .status .unavailable] ∧
    History.Each Fits m.told := by
  have hrun : Trace.run step (construct (some 0)) outage = some _ := rfl
  exact ⟨_, hrun, rfl, (told_run hrun).1⟩

end Run

end Manager

end TelafSim.RadioManager
