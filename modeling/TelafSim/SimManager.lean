import TelafSim.ServiceManager

/-!
# The managers of the SIM domain

`CardManager.cpp`, `SubscriptionManager.cpp` and `MultiSimManager.cpp` under `sim/`. Their charts are
like those of the radio domain, but the callers ask `ready_flag_` and not the chart, which the entry
of Ready sets before `last_status_`; init callbacks are put on `init_cbs_` under a lock by their
callers, until the first entry of Ready has reported; that entry is not broadcast; and NotReady
drops a request.

What the three do differently is a `Domain`: what leads to Ready and out of it, which requests are
let in, and how Ready serves them. The bridge calls a request's callback back once. `initHeard`,
`told`, `answers` and `dropped` are recorded for the statements. `notifySlotStatusChanged`, by which
another thread tells the listeners of the multi-SIM manager of the slot in any state, is left out.
-/

namespace TelafSim.SimManager

open InitGate (ServiceStatus)
open ServiceManager (Response Notice Books Balanced upFrom FitsFrom)

inductive ErrorCode
  | success
  | operationTimeout
  | noEffect
  | simErr
  deriving DecidableEq, Repr

/-- The events. An event without data carries `none`. -/
inductive Event (κ ι ρ : Type)
  | readiness (status : Option String)
  | connectivity (operational : Bool)
  | indication (i : Option ι)
  | request (c : κ) (r : ρ)

/-- What Ready makes of a request: an RPC, or an answer at once and what the listeners are told. -/
inductive Service (ι : Type)
  | rpc
  | answer (e : ErrorCode) (notice : Option ι)

structure Domain (ι ρ : Type) where
  /-- The event takes the chart to Ready. -/
  comesUp : {κ : Type} → Event κ ι ρ → Bool
  /-- The event takes the chart out of Ready, and leaves this status. -/
  goesDown : {κ : Type} → Event κ ι ρ → Option ServiceStatus
  admits : ρ → Bool
  serve : ρ → Service ι
  /-- What the callback of an RPC tells the caller. -/
  code : ρ → Option Response → ErrorCode
  comesUp_request : ∀ {κ : Type} (c : κ) (r : ρ), comesUp (.request c r) = false
  goesDown_request : ∀ {κ : Type} (c : κ) (r : ρ), goesDown (.request c r) = none
  goesDown_ne : ∀ {κ : Type} (e : Event κ ι ρ), goesDown e ≠ some .available

inductive Action (κ ι ρ : Type)
  | setReadyFlag (b : Bool)
  | publishStatus (s : ServiceStatus)
  /-- Whether there has been a report decides whether the listeners hear of this one. -/
  | report
  | fire (s : ServiceStatus)
  | invoke (c : κ) (s : ServiceStatus)
  | broadcast (n : Notice ι)
  | sendRequest (c : κ) (r : ρ)
  | answer (c : κ) (e : ErrorCode)
  | drop (c : κ)
  /-- The engine stores the state it has entered. -/
  | store (ready : Bool)

/-- Whose init callback an action is about, and whose request an event or an action. -/
def Action.init {κ ι ρ : Type} : Action κ ι ρ → Option κ
  | .invoke c _ => some c
  | _ => none

def Event.asker {κ ι ρ : Type} : Event κ ι ρ → Option κ
  | .request c _ => some c
  | _ => none

def Action.asker {κ ι ρ : Type} : Action κ ι ρ → Option κ
  | .sendRequest c _ | .answer c _ | .drop c => some c
  | _ => none

def Action.dropped {κ ι ρ : Type} : Action κ ι ρ → Option κ
  | .drop c => some c
  | _ => none

/-- Where a call stands: an init callback on the list or past it, whose caller is about to read the
status, has read it and is about to invoke the callback, or has; or a request past its checks, posted,
or turned away. -/
inductive Call (ρ : Type)
  | unused
  | late
  | loaded (s : ServiceStatus) (flagTaken : Bool)
  | armed
  | asking (r : ρ)
  | accepted
  | refused
  deriving DecidableEq

/-- What an init callback is told, late by its own caller or else by the worker, with the flag when
the status was taken and when the callback is invoked. -/
structure Hearing (κ : Type) where
  caller : κ
  status : ServiceStatus
  late : Bool
  flagTaken : Bool
  flagHeard : Bool
  deriving DecidableEq

/-- Whoever is told that the service is available is told the truth when the status is taken, and by
the worker also when it is heard. -/
def Hearing.Honest {κ : Type} (h : Hearing κ) : Prop :=
  h.status = .available → h.flagTaken = true ∧ (h.late = false → h.flagHeard = true)

structure Manager (κ ι ρ : Type) where
  /-- The chart is in Ready. -/
  ready : Bool
  readyFlag : Bool
  lastStatus : ServiceStatus
  initCbs : List κ
  initReported : Bool
  queue : List (Event κ ι ρ)
  /-- What is left of the dispatch under way. -/
  actions : List (Action κ ι ρ)
  calls : κ → Call ρ
  inFlight : List (κ × ρ)
  initHeard : List (Hearing κ)
  told : List (Notice ι)
  answers : List (κ × ErrorCode)
  dropped : List κ

section Domains

variable {κ ι : Type}

/-- Card and subscription managers follow the readiness indication. -/
def readinessUp {ρ : Type} : Event κ ι ρ → Bool
  | .readiness status => status = some "AVAILABLE"
  | _ => false

def readinessDown {ρ : Type} : Event κ ι ρ → Option ServiceStatus
  | .readiness status =>
    if status = some "UNAVAILABLE" then some .unavailable
    else if status = some "FAILED" then some .failed
    else none
  | .connectivity operational => if operational then none else some .unavailable
  | _ => none

theorem readinessDown_ne {ρ : Type} (e : Event κ ι ρ) : readinessDown e ≠ some .available := by
  unfold readinessDown
  split <;> (try split) <;> (try split) <;> simp

structure CardPower where
  slotId : ℤ
  powerOn : Bool
  deriving DecidableEq

def defaultSlotId : ℤ := 1

def cardManager (slot : ℤ) (ι : Type) : Domain ι CardPower where
  comesUp := readinessUp
  goesDown := readinessDown
  admits := fun r => r.slotId = slot || r.slotId = defaultSlotId
  serve := fun _ => .rpc
  code := fun _ rsp =>
    match rsp with
    | none => .operationTimeout
    | some rsp => if rsp.error then .operationTimeout else .success
  comesUp_request := fun _ _ => rfl
  goesDown_request := fun _ _ => rfl
  goesDown_ne := readinessDown_ne

/-- It has no requests. -/
def subscriptionManager (ι : Type) : Domain ι Empty where
  comesUp := readinessUp
  goesDown := readinessDown
  admits := fun r => nomatch r
  serve := fun r => nomatch r
  code := fun r => nomatch r
  comesUp_request := fun _ _ => rfl
  goesDown_request := fun _ _ => rfl
  goesDown_ne := readinessDown_ne

inductive MultiSimRequest
  | slotStatus
  | highCapability
  | setHighCapability (slotId : ℤ)
  | switchActiveSlot (slotId : ℤ)
  deriving DecidableEq

structure HighCapability where
  slotId : ℤ
  deriving DecidableEq

/-- It follows the bridge's link alone. `active_slot_` is never changed. -/
def multiSimManager (slot : ℤ) : Domain HighCapability MultiSimRequest where
  comesUp := fun e =>
    match e with
    | .connectivity operational => operational
    | _ => false
  goesDown := fun e =>
    match e with
    | .connectivity operational => if operational then none else some .unavailable
    | _ => none
  admits := fun r =>
    match r with
    | .setHighCapability slotId => slotId = slot || slotId = defaultSlotId
    | _ => true
  serve := fun r =>
    match r with
    | .slotStatus => .rpc
    | .highCapability => .answer .success none
    | .setHighCapability _ => .answer .success none
    | .switchActiveSlot slotId =>
      if slotId = slot then .answer .noEffect (some ⟨slot⟩) else .answer .simErr none
  code := fun _ _ => .success
  comesUp_request := fun _ _ => rfl
  goesDown_request := fun _ _ => rfl
  goesDown_ne := by
    intro _ e
    cases e <;> simp

end Domains

namespace Manager

variable {κ ι ρ : Type} (d : Domain ι ρ)

def enterReady : List (Action κ ι ρ) :=
  [.setReadyFlag true, .publishStatus .available, .report, .store true]

def leaveReady (s : ServiceStatus) : List (Action κ ι ρ) :=
  [.publishStatus s, .setReadyFlag false, .broadcast (.status .unavailable), .store false]

def notReadySt (e : Event κ ι ρ) : List (Action κ ι ρ) :=
  if d.comesUp e then enterReady
  else
    match e with
    | .request c _ => [.drop c]
    | _ => []

def readySt (e : Event κ ι ρ) : List (Action κ ι ρ) :=
  match d.goesDown e with
  | some s => leaveReady s
  | none =>
    match e with
    | .indication (some i) => [.broadcast (.indication i)]
    | .request c r =>
      match d.serve r with
      | .rpc => [.sendRequest c r]
      | .answer e none => [.answer c e]
      | .answer e (some i) => [.answer c e, .broadcast (.indication i)]
    | _ => []

def handle (ready : Bool) (e : Event κ ι ρ) : List (Action κ ι ρ) :=
  if ready then readySt d e else notReadySt d e

section Steps

variable [DecidableEq ρ] [DecidableEq κ]

def construct (initCb : Option κ) : Manager κ ι ρ where
  ready := false
  readyFlag := false
  lastStatus := .unavailable
  initCbs := initCb.toList
  initReported := false
  queue := []
  actions := []
  calls := fun c => if initCb = some c then .armed else .unused
  inFlight := []
  initHeard := []
  told := []
  answers := []
  dropped := []

def setCall (c : κ) (call : Call ρ) (m : Manager κ ι ρ) : Manager κ ι ρ :=
  { m with calls := Function.update m.calls c call }

def hear (c : κ) (s : ServiceStatus) (late flagTaken : Bool) (m : Manager κ ι ρ) :
    Manager κ ι ρ :=
  { m with initHeard := m.initHeard ++ [⟨c, s, late, flagTaken, m.readyFlag⟩] }

def answer (c : κ) (e : ErrorCode) (m : Manager κ ι ρ) : Manager κ ι ρ :=
  { m with answers := m.answers ++ [(c, e)] }

def execute (m : Manager κ ι ρ) : Action κ ι ρ → Manager κ ι ρ
  | .setReadyFlag b => { m with readyFlag := b }
  | .publishStatus s => { m with lastStatus := s }
  | .report =>
    let told := if m.initReported then [.broadcast (.status .available)] else []
    { m with actions := .fire .available :: (told ++ m.actions) }
  | .fire s =>
    { m with
      initReported := true
      initCbs := []
      actions := m.initCbs.map (.invoke · s) ++ m.actions }
  | .invoke c s => m.hear c s false m.readyFlag
  | .broadcast n => { m with told := m.told ++ [n] }
  | .sendRequest c r => { m with inFlight := m.inFlight ++ [(c, r)] }
  | .answer c e => m.answer c e
  | .drop c => { m with dropped := m.dropped ++ [c] }
  | .store ready => { m with ready := ready }

/-- The worker goes on with its dispatch, or takes the next event. -/
def work (m : Manager κ ι ρ) : Option (Manager κ ι ρ) :=
  match m.actions, m.queue with
  | a :: rest, _ => some ({ m with actions := rest }.execute a)
  | [], e :: rest => some { m with queue := rest, actions := handle d m.ready e }
  | [], [] => none

def post (e : Event κ ι ρ) (m : Manager κ ι ρ) : Manager κ ι ρ := { m with queue := m.queue ++ [e] }

def addInitCallback (c : κ) (m : Manager κ ι ρ) : Manager κ ι ρ :=
  if m.initReported then m.setCall c .late
  else { m with initCbs := m.initCbs ++ [c] }.setCall c .armed

def ask (c : κ) (r : ρ) (m : Manager κ ι ρ) : Manager κ ι ρ :=
  m.setCall c (if m.readyFlag && d.admits r then .asking r else .refused)

def proceed (c : κ) (m : Manager κ ι ρ) : Option (Manager κ ι ρ) :=
  match m.calls c with
  | .late => some (m.setCall c (.loaded m.lastStatus m.readyFlag))
  | .loaded s flagTaken => some ((m.hear c s true flagTaken).setCall c .armed)
  | .asking r => some ((m.post (.request c r)).setCall c .accepted)
  | _ => none

inductive Label (κ ι ρ : Type)
  | addInitCallback (c : κ)
  | ask (c : κ) (r : ρ)
  | proceed (c : κ)
  | readinessInd (status : Option String)
  | connectivityChanged (operational : Bool)
  /-- An indication, or what a resync has been answered. -/
  | ind (i : Option ι)
  | work
  /-- The bridge calls back for a request. -/
  | respond (c : κ) (r : ρ) (rsp : Option Response)

def step (m : Manager κ ι ρ) : Label κ ι ρ → Option (Manager κ ι ρ)
  | .addInitCallback c => if m.calls c = .unused then some (m.addInitCallback c) else none
  | .ask c r => if m.calls c = .unused then some (m.ask d c r) else none
  | .proceed c => m.proceed c
  | .readinessInd status => some (m.post (.readiness status))
  | .connectivityChanged operational => some (m.post (.connectivity operational))
  | .ind i => some (m.post (.indication i))
  | .work => m.work d
  | .respond c r rsp =>
    if (c, r) ∈ m.inFlight then
      some ({ m with inFlight := m.inFlight.erase (c, r) }.answer c (d.code r rsp))
    else none

end Steps

section Tokens

variable {d : Domain ι ρ} {m m' : Manager κ ι ρ} {a : Action κ ι ρ} {rest : List (Action κ ι ρ)}
  {e : Event κ ι ρ} {c : κ}

def initTokens (m : Manager κ ι ρ) : List κ :=
  m.actions.filterMap Action.init ++ m.initCbs ++ m.initHeard.map Hearing.caller

def askTokens (m : Manager κ ι ρ) : List κ :=
  m.queue.filterMap Event.asker ++ m.actions.filterMap Action.asker ++ m.inFlight.map Prod.fst ++
    m.answers.map Prod.fst ++ m.dropped

def books (m : Manager κ ι ρ) : Books κ (Call ρ) := ⟨m.calls, m.initTokens, m.askTokens⟩

@[simp] theorem books_calls : m.books.calls = m.calls := rfl
@[simp] theorem books_inits : m.books.inits = m.initTokens := rfl
@[simp] theorem books_asks : m.books.asks = m.askTokens := rfl

theorem filterMap_init_handle (ready : Bool) (e : Event κ ι ρ) :
    (handle d ready e).filterMap Action.init = [] := by
  cases ready with
  | false =>
    change (notReadySt d e).filterMap Action.init = _
    unfold notReadySt
    split
    · rfl
    · cases e <;> rfl
  | true =>
    change (readySt d e).filterMap Action.init = _
    unfold readySt
    split
    · rfl
    · split
      · rfl
      · split <;> rfl
      · rfl

theorem filterMap_asker_handle (ready : Bool) (e : Event κ ι ρ) :
    (handle d ready e).filterMap Action.asker = e.asker.toList := by
  cases ready with
  | false =>
    change (notReadySt d e).filterMap Action.asker = _
    unfold notReadySt
    cases e with
    | request c r =>
      rw [d.comesUp_request]
      rfl
    | _ =>
      dsimp only
      split <;> rfl
  | true =>
    change (readySt d e).filterMap Action.asker = _
    unfold readySt
    cases e with
    | request c r =>
      rw [d.goesDown_request]
      dsimp only
      split <;> rfl
    | indication i =>
      split
      · rfl
      · cases i <;> rfl
    | _ => split <;> rfl

variable [DecidableEq κ]

theorem count_initTokens_execute (h : m.actions = a :: rest) :
    ({ m with actions := rest }.execute a).initTokens.count c = m.initTokens.count c := by
  unfold initTokens
  rw [h]
  cases a with
  | report =>
    cases m.initReported <;> simp [execute, Action.init, List.filterMap_cons]
  | _ =>
    simp [execute, hear, answer, Action.init, Function.comp_def, List.filterMap_cons,
      List.count_cons, List.count_append] <;> omega

theorem count_askTokens_execute (h : m.actions = a :: rest) :
    ({ m with actions := rest }.execute a).askTokens.count c = m.askTokens.count c := by
  unfold askTokens
  rw [h]
  cases a with
  | report =>
    cases m.initReported <;> simp [execute, Action.asker, List.filterMap_cons]
  | _ =>
    simp [execute, hear, answer, Action.asker, Function.comp_def, List.filterMap_cons,
      List.count_cons, List.count_append] <;> omega

variable [DecidableEq ρ]

abbrev Counted (m : Manager κ ι ρ) : Prop := Balanced .armed .accepted m.books

theorem counted_construct (initCb : Option κ) : (construct initCb : Manager κ ι ρ).Counted := by
  have hinits : (construct initCb : Manager κ ι ρ).initTokens = initCb.toList := by
    simp [construct, initTokens]
  have h := ServiceManager.balanced_construct (.armed : Call ρ) .accepted .unused (by simp) (by simp)
    initCb
  rw [← hinits] at h
  exact h

theorem Counted.inits (h : m.Counted) (c : κ) :
    m.initTokens.count c = if m.calls c = .armed then 1 else 0 := Balanced.inits h c

theorem Counted.asks (h : m.Counted) (c : κ) :
    m.askTokens.count c = if m.calls c = .accepted then 1 else 0 := Balanced.asks h c

theorem Counted.goOn {call : Call ρ} (h : m.Counted) (hcalls : m'.calls = m.calls)
    (hc : m.calls c ≠ .armed ∧ m.calls c ≠ .accepted)
    (hinit : ∀ c', m'.initTokens.count c' =
      m.initTokens.count c' + if c = c' ∧ call = .armed then 1 else 0)
    (hask : ∀ c', m'.askTokens.count c' =
      m.askTokens.count c' + if c = c' ∧ call = .accepted then 1 else 0) :
    (m'.setCall c call).Counted := by
  have hupdate : (m'.setCall c call).books.calls = Function.update m.books.calls c call := by
    change Function.update m'.calls c call = _
    rw [hcalls]
    rfl
  exact Balanced.goOn h hupdate hc hinit hask

theorem Counted.post (h : m.Counted) (hasker : e.asker = none) : (m.post e).Counted := by
  refine h.congr rfl (fun c => rfl) ?_
  intro c
  simp [Manager.post, askTokens, hasker]

theorem Counted.work (h : m.Counted) (hwork : m.work d = some m') : m'.Counted := by
  unfold Manager.work at hwork
  split at hwork
  · rename_i a rest hactions
    cases hwork
    apply h.congr ?_ (fun c => count_initTokens_execute hactions)
      (fun c => count_askTokens_execute hactions)
    cases a <;> rfl
  · rename_i e rest hactions hqueue
    cases hwork
    refine h.congr rfl ?_ ?_
    · intro c
      simp [initTokens, hactions, filterMap_init_handle]
    · intro c
      simp [askTokens, hactions, hqueue, filterMap_asker_handle, List.filterMap_cons]
      cases e.asker with
      | none => simp
      | some c' =>
        simp [List.count_cons]
        omega
  · cases hwork

theorem Counted.proceed (h : m.Counted) (hproceed : m.proceed c = some m') : m'.Counted := by
  unfold Manager.proceed at hproceed
  split at hproceed <;> rename_i hcall <;> cases hproceed
  · refine h.goOn rfl (by simp [hcall]) ?_ ?_ <;> simp
  · refine h.goOn rfl (by simp [hcall]) ?_ ?_
    · intro c'
      simp [hear, initTokens, List.count_singleton]
      omega
    · intro c'
      simp [hear, askTokens]
  · refine h.goOn rfl (by simp [hcall]) ?_ ?_
    · intro c'
      simp [Manager.post, initTokens]
    · intro c'
      simp [Manager.post, askTokens, Event.asker, List.count_cons]
      omega

theorem counted_step (h : m.Counted) {l : Label κ ι ρ}
    (hstep : m.step d l = some m') : m'.Counted := by
  cases l with
  | addInitCallback c =>
    obtain ⟨hc, heq⟩ := Option.ite_none_right_eq_some.mp hstep
    cases heq
    unfold addInitCallback
    split
    · refine h.goOn rfl (by simp [hc]) ?_ ?_ <;> simp
    · refine h.goOn rfl (by simp [hc]) ?_ ?_
      · intro c'
        simp [initTokens, List.count_cons]
        omega
      · intro c'
        simp [askTokens]
  | ask c r =>
    obtain ⟨hc, heq⟩ := Option.ite_none_right_eq_some.mp hstep
    cases heq
    unfold ask
    split <;> refine h.goOn rfl (by simp [hc]) ?_ ?_ <;> simp
  | proceed c => exact h.proceed hstep
  | readinessInd status =>
    cases hstep
    exact h.post rfl
  | connectivityChanged operational =>
    cases hstep
    exact h.post rfl
  | ind i =>
    cases hstep
    exact h.post rfl
  | work => exact h.work hstep
  | respond c r rsp =>
    obtain ⟨hmem, heq⟩ := Option.ite_none_right_eq_some.mp hstep
    cases heq
    refine h.congr rfl (fun c' => rfl) ?_
    intro c'
    have hperm := ((List.perm_cons_erase hmem).map Prod.fst).count_eq c'
    simp [answer, askTokens, List.count_cons] at hperm ⊢
    omega

end Tokens

section Phases

variable {d : Domain ι ρ} {m m' : Manager κ ι ρ} {c : κ}

/-- What the listeners were last told of the service; at first they take it for available. -/
abbrev up (told : List (Notice ι)) : Bool := upFrom true told

/-- A status is news, and indications come while the service is not said to be unavailable. -/
abbrev Fits (told : List (Notice ι)) : Notice ι → Prop := FitsFrom true told

def entered (reported : Bool) : List (Action κ ι ρ) :=
  (if reported then [.broadcast (.status .available)] else []) ++ [.store true]

/-- What Ready does with an event that it stays in Ready for. -/
inductive Served : List (Action κ ι ρ) → Prop
  | send (c : κ) (r : ρ) : Served [.sendRequest c r]
  | answer (c : κ) (e : ErrorCode) : Served [.answer c e]
  | announce (c : κ) (e : ErrorCode) (i : ι) : Served [.answer c e, .broadcast (.indication i)]
  | relay (i : ι) : Served [.broadcast (.indication i)]

/-- What the worker is at, with what it works on: the chart's state, the flag and the status that
callers read, the list of init callbacks, whether there has been a report, and what the listeners
believe. -/
structure Station (κ : Type) where
  ready : Bool
  readyFlag : Bool
  lastStatus : ServiceStatus
  initCbs : List κ
  initReported : Bool
  up : Bool

def station (m : Manager κ ι ρ) : Station κ :=
  ⟨m.ready, m.readyFlag, m.lastStatus, m.initCbs, m.initReported, up m.told⟩

/-- The chart is not in Ready: the listeners take the service for available before the first
report, and after it the list stays empty. -/
structure Outside (t : Station κ) : Prop where
  ready : t.ready = false
  up : t.up = !t.initReported
  cbs : t.initReported = true → t.initCbs = []

/-- The chart is in Ready. -/
structure Inside (t : Station κ) : Prop where
  ready : t.ready = true
  reported : t.initReported = true
  cbs : t.initCbs = []

inductive Phase (t : Station κ) : List (Action κ ι ρ) → Prop
  | notReady (h : Outside t) (flag : t.readyFlag = false) (status : t.lastStatus ≠ .available) :
    Phase t []
  | drop (h : Outside t) (flag : t.readyFlag = false) (status : t.lastStatus ≠ .available) (c : κ) :
    Phase t [.drop c]
  | entering (h : Outside t) (flag : t.readyFlag = false) (status : t.lastStatus ≠ .available) :
    Phase t enterReady
  | flagged (h : Outside t) (flag : t.readyFlag = true) : Phase t (enterReady.drop 1)
  | published (h : Outside t) (flag : t.readyFlag = true) (status : t.lastStatus = .available) :
    Phase t (enterReady.drop 2)
  | reporting (h : Outside t) (flag : t.readyFlag = true) (status : t.lastStatus = .available) :
    Phase t (.fire .available :: entered t.initReported)
  | firing (ready : t.ready = false) (flag : t.readyFlag = true)
    (status : t.lastStatus = .available) (cbs : t.initCbs = [])
    (reported : t.initReported = true) (toFire : List κ) (acts : List (Action κ ι ρ))
    (h : acts = toFire.map (.invoke · .available) ++ entered (!t.up)) : Phase t acts
  | ready (h : Inside t) (up : t.up = true) (flag : t.readyFlag = true)
    (status : t.lastStatus = .available) : Phase t []
  | served (h : Inside t) (up : t.up = true) (flag : t.readyFlag = true)
    (status : t.lastStatus = .available) (acts : List (Action κ ι ρ)) (hacts : Served acts) :
    Phase t acts
  | leaving (h : Inside t) (up : t.up = true) (flag : t.readyFlag = true) (s : ServiceStatus)
    (hs : s ≠ .available) : Phase t (leaveReady s)
  | withdrawn (h : Inside t) (up : t.up = true) (status : t.lastStatus ≠ .available)
    (s : ServiceStatus) : Phase t ((leaveReady s).drop 1)
  | unflagged (h : Inside t) (up : t.up = true) (flag : t.readyFlag = false)
    (status : t.lastStatus ≠ .available) (s : ServiceStatus) : Phase t ((leaveReady s).drop 2)
  | left (h : Inside t) (up : t.up = false) (flag : t.readyFlag = false)
    (status : t.lastStatus ≠ .available) (s : ServiceStatus) : Phase t ((leaveReady s).drop 3)

theorem phase_handle {t : Station κ} (h : Phase t ([] : List (Action κ ι ρ))) (e : Event κ ι ρ) :
    Phase t (handle d t.ready e) := by
  cases h with
  | notReady h flag status =>
    rw [h.ready]
    change Phase t (notReadySt d e)
    unfold notReadySt
    split
    · exact .entering h flag status
    · cases e with
      | request c r => exact .drop h flag status c
      | _ => exact .notReady h flag status
  | firing ready flag status cbs reported toFire acts h => simp [entered] at h
  | ready h up flag status =>
    rw [h.ready]
    change Phase t (readySt d e)
    unfold readySt
    split
    · rename_i s hs
      exact .leaving h up flag s (fun heq => d.goesDown_ne e (heq ▸ hs))
    · split
      · exact .served h up flag status _ (.relay _)
      · split
        · exact .served h up flag status _ (.send _ _)
        · exact .served h up flag status _ (.answer _ _)
        · exact .served h up flag status _ (.announce _ _ _)
      · exact .ready h up flag status
  | served h up flag status acts hacts => cases hacts

/-- What the callers have heard or read and the listeners have been told, and where the worker
stands. -/
structure Sound (m : Manager κ ι ρ) : Prop where
  phase : Phase m.station m.actions
  told : History.Each Fits m.told
  heard : ∀ h ∈ m.initHeard, h.Honest
  read : ∀ c s flagTaken, m.calls c = .loaded s flagTaken → s = .available → flagTaken = true

theorem sound_construct [DecidableEq κ] (initCb : Option κ) :
    (construct initCb : Manager κ ι ρ).Sound := by
  refine ⟨.notReady ⟨rfl, rfl, ?_⟩ rfl ?_, History.each_nil, by simp [construct], ?_⟩
  · intro h
    cases h
  · intro h
    cases h
  · intro c s flagTaken h
    simp only [construct] at h
    split at h <;> cases h

/-- Whoever reads that the service is available finds the flag set. -/
theorem Sound.flagged (h : m.Sound) (hs : m.lastStatus = .available) : m.readyFlag = true := by
  have hphase := h.phase
  generalize hactions : m.actions = actions at hphase
  cases hphase with
  | notReady _ _ status => exact absurd hs status
  | drop _ _ status => exact absurd hs status
  | entering _ _ status => exact absurd hs status
  | withdrawn _ _ status => exact absurd hs status
  | unflagged _ _ _ status => exact absurd hs status
  | left _ _ _ status => exact absurd hs status
  | flagged _ flag | published _ flag | reporting _ flag | ready _ _ flag => exact flag
  | firing _ flag => exact flag
  | served _ _ flag => exact flag
  | leaving _ _ flag => exact flag

/-- A step that leaves the worker and what it works on alone. -/
theorem Sound.congr (h : m.Sound) (hstation : m'.station = m.station)
    (hactions : m'.actions = m.actions) (htold : m'.told = m.told)
    (hheard : ∀ x ∈ m'.initHeard, x ∈ m.initHeard ∨ x.Honest) (hcalls : m'.calls = m.calls) :
    m'.Sound := by
  refine ⟨by rw [hstation, hactions]; exact h.phase, htold ▸ h.told, ?_, hcalls ▸ h.read⟩
  intro x hx
  rcases hheard x hx with hold | hnew
  · exact h.heard x hold
  · exact hnew

theorem Sound.setCall [DecidableEq κ] (h : m.Sound) {call : Call ρ}
    (hcall : ∀ s flagTaken, call = .loaded s flagTaken → s = .available → flagTaken = true) :
    (m.setCall c call).Sound := by
  refine ⟨h.phase, h.told, h.heard, ?_⟩
  intro c' s flagTaken hc'
  change Function.update m.calls c call c' = _ at hc'
  by_cases heq : c' = c
  · subst heq
    rw [Function.update_self] at hc'
    exact hcall s flagTaken hc'
  · rw [Function.update_of_ne heq] at hc'
    exact h.read c' s flagTaken hc'

theorem Sound.take (h : m.Sound) (hactions : m.actions = []) (e : Event κ ι ρ)
    (queue : List (Event κ ι ρ)) :
    { m with queue := queue, actions := handle d m.ready e }.Sound := by
  refine ⟨?_, h.told, h.heard, h.read⟩
  have hphase := h.phase
  rw [hactions] at hphase
  exact phase_handle hphase e

theorem Sound.broadcast (h : m.Sound) {n : Notice ι} {rest : List (Action κ ι ρ)}
    (hphase : Phase { m.station with up := up (m.told ++ [n]) } rest) (hn : Fits m.told n) :
    { m with actions := rest, told := m.told ++ [n] }.Sound :=
  ⟨hphase, History.each_concat.mpr ⟨h.told, hn⟩, h.heard, h.read⟩

theorem Sound.execute (h : m.Sound) {a : Action κ ι ρ} {rest : List (Action κ ι ρ)}
    (hactions : m.actions = a :: rest) : ({ m with actions := rest }.execute a).Sound := by
  have hphase := h.phase
  rw [hactions] at hphase
  generalize hacts : a :: rest = acts at hphase
  cases hphase with
  | notReady => cases hacts
  | ready => cases hacts
  | drop out flag status c =>
    cases hacts
    exact ⟨.notReady out flag status, h.told, h.heard, h.read⟩
  | entering out flag status =>
    cases hacts
    exact ⟨.flagged ⟨out.ready, out.up, out.cbs⟩ rfl, h.told, h.heard, h.read⟩
  | flagged out flag =>
    cases hacts
    exact ⟨.published ⟨out.ready, out.up, out.cbs⟩ flag rfl, h.told, h.heard, h.read⟩
  | published out flag status =>
    cases hacts
    exact ⟨.reporting ⟨out.ready, out.up, out.cbs⟩ flag status, h.told, h.heard, h.read⟩
  | reporting out flag status =>
    cases hacts
    refine ⟨?_, h.told, h.heard, h.read⟩
    refine .firing (t := { m.station with initCbs := [], initReported := true })
      out.ready flag status rfl rfl m.initCbs _ ?_
    have hup : up m.told = !m.initReported := out.up
    change _ = _ ++ entered (!up m.told)
    rw [hup, Bool.not_not]
    rfl
  | firing ready flag status cbs reported toFire acts heq =>
    cases toFire with
    | cons c toFire =>
      rw [← hacts] at heq
      obtain ⟨rfl, rfl⟩ := List.cons.inj heq
      refine ⟨.firing ready flag status cbs reported toFire _ rfl, h.told, ?_, h.read⟩
      intro x hx
      rcases List.mem_append.mp hx with hold | hnew
      · exact h.heard x hold
      · rw [List.mem_singleton.mp hnew]
        exact fun _ => ⟨flag, fun _ => flag⟩
    | nil =>
      rw [← hacts] at heq
      cases hup : up m.told with
      | true =>
        have heq : a :: rest = [.store true] := by simpa [entered, station, hup] using heq
        cases heq
        refine ⟨?_, h.told, h.heard, h.read⟩
        change Phase { m.station with ready := true } []
        exact .ready ⟨rfl, reported, cbs⟩ hup flag status
      | false =>
        have heq : a :: rest = [.broadcast (.status .available), .store true] := by
          simpa [entered, station, hup] using heq
        cases heq
        refine h.broadcast ?_ hup
        rw [up, ServiceManager.upFrom_concat_status]
        exact .firing (t := { m.station with up := true }) ready flag status cbs reported [] _
          rfl
  | served inside hup flag status acts hserved =>
    cases hserved with
    | send c r =>
      cases hacts
      exact ⟨.ready inside hup flag status, h.told, h.heard, h.read⟩
    | answer c e =>
      cases hacts
      exact ⟨.ready inside hup flag status, h.told, h.heard, h.read⟩
    | announce c e i =>
      cases hacts
      exact ⟨.served inside hup flag status _ (.relay i), h.told, h.heard, h.read⟩
    | relay i =>
      cases hacts
      refine h.broadcast (.ready ⟨inside.ready, inside.reported, inside.cbs⟩ ?_ flag status) hup
      exact (ServiceManager.upFrom_concat_indication _).trans hup
  | leaving inside hup flag s hs =>
    cases hacts
    refine ⟨?_, h.told, h.heard, h.read⟩
    exact .withdrawn (t := { m.station with lastStatus := s })
      ⟨inside.ready, inside.reported, inside.cbs⟩ hup hs s
  | withdrawn inside hup status s =>
    cases hacts
    refine ⟨?_, h.told, h.heard, h.read⟩
    exact .unflagged (t := { m.station with readyFlag := false })
      ⟨inside.ready, inside.reported, inside.cbs⟩ hup rfl status s
  | unflagged inside hup flag status s =>
    cases hacts
    refine h.broadcast ?_ hup
    rw [up, ServiceManager.upFrom_concat_status]
    exact .left (t := { m.station with up := false })
      ⟨inside.ready, inside.reported, inside.cbs⟩ rfl flag status s
  | left inside hup flag status s =>
    cases hacts
    refine ⟨?_, h.told, h.heard, h.read⟩
    change Phase { m.station with ready := false } []
    refine .notReady ⟨rfl, ?_, fun _ => inside.cbs⟩ flag status
    change up m.told = !m.initReported
    have hreported : m.initReported = true := inside.reported
    rw [hreported]
    exact hup

theorem Phase.push {t : Station κ} {acts : List (Action κ ι ρ)} (h : Phase t acts)
    (hreported : t.initReported = false) (cbs : List κ) :
    Phase { t with initCbs := cbs } acts := by
  have hout : Outside t → Outside { t with initCbs := cbs } := by
    intro out
    refine ⟨out.ready, out.up, ?_⟩
    intro htrue
    rw [hreported] at htrue
    cases htrue
  have hin : ¬ Inside t := by
    intro inside
    rw [inside.reported] at hreported
    cases hreported
  cases h with
  | notReady out flag status => exact .notReady (hout out) flag status
  | drop out flag status c => exact .drop (hout out) flag status c
  | entering out flag status => exact .entering (hout out) flag status
  | flagged out flag => exact .flagged (hout out) flag
  | published out flag status => exact .published (hout out) flag status
  | reporting out flag status =>
    exact .reporting (t := { t with initCbs := cbs }) (hout out) flag status
  | firing ready flag _ _ reported toFire acts h =>
    rw [reported] at hreported
    cases hreported
  | ready inside => exact absurd inside hin
  | served inside => exact absurd inside hin
  | leaving inside => exact absurd inside hin
  | withdrawn inside => exact absurd inside hin
  | unflagged inside => exact absurd inside hin
  | left inside => exact absurd inside hin

/-- The requests that have been dropped, or are about to be. -/
def lost (m : Manager κ ι ρ) : List κ := m.dropped ++ m.actions.filterMap Action.dropped

theorem lost_execute {a : Action κ ι ρ} {rest : List (Action κ ι ρ)} (h : m.actions = a :: rest) :
    ({ m with actions := rest }.execute a).lost = m.lost := by
  unfold lost
  rw [h]
  cases a with
  | report => cases m.initReported <;> rfl
  | fire s =>
    have hnone : (Action.dropped ∘ fun c => (.invoke c s : Action κ ι ρ)) = fun _ => none := rfl
    simp [execute, Action.dropped, List.filterMap_cons, hnone]
  | drop c => simp [execute, Action.dropped]
  | _ => rfl

theorem lost_handle (ready : Bool) (e : Event κ ι ρ) :
    (handle d ready e).filterMap Action.dropped = if ready then [] else e.asker.toList := by
  cases ready with
  | false =>
    change (notReadySt d e).filterMap Action.dropped = _
    unfold notReadySt
    cases e with
    | request c r =>
      rw [d.comesUp_request]
      rfl
    | _ =>
      dsimp only
      split <;> rfl
  | true =>
    change (readySt d e).filterMap Action.dropped = []
    unfold readySt
    split
    · rfl
    · split
      · rfl
      · split <;> rfl
      · rfl

end Phases

section Run

variable {d : Domain ι ρ} [DecidableEq κ] [DecidableEq ρ] {m m' : Manager κ ι ρ} {c : κ}

theorem sound_step (h : m.Sound) {l : Label κ ι ρ} (hstep : m.step d l = some m') : m'.Sound := by
  cases l with
  | addInitCallback c =>
    obtain ⟨-, heq⟩ := Option.ite_none_right_eq_some.mp hstep
    cases heq
    unfold addInitCallback
    split
    · exact h.setCall (by simp)
    · rename_i hreported
      have hpushed : { m with initCbs := m.initCbs ++ [c] }.Sound :=
        ⟨h.phase.push (Bool.eq_false_iff.mpr hreported) _, h.told, h.heard, h.read⟩
      exact hpushed.setCall (by simp)
  | ask c r =>
    obtain ⟨-, heq⟩ := Option.ite_none_right_eq_some.mp hstep
    cases heq
    apply h.setCall
    split <;> simp
  | proceed c =>
    simp only [step, proceed] at hstep
    split at hstep <;> rename_i hcall <;> cases hstep
    · apply h.setCall
      rintro s flagTaken ⟨⟩ hs
      exact h.flagged hs
    · rename_i s flagTaken
      have hheard : (m.hear c s true flagTaken).Sound := by
        refine h.congr rfl rfl rfl ?_ rfl
        intro x hx
        rcases List.mem_append.mp hx with hold | hnew
        · exact .inl hold
        · right
          rw [List.mem_singleton.mp hnew]
          exact fun hs => ⟨h.read c s flagTaken hcall hs, fun hlate => by cases hlate⟩
      exact hheard.setCall (by simp)
    · rename_i r
      have hposted : (m.post (.request c r)).Sound :=
        h.congr rfl rfl rfl (fun _ h => .inl h) rfl
      exact hposted.setCall (by simp)
  | readinessInd status =>
    cases hstep
    exact h.congr rfl rfl rfl (fun _ h => .inl h) rfl
  | connectivityChanged operational =>
    cases hstep
    exact h.congr rfl rfl rfl (fun _ h => .inl h) rfl
  | ind i =>
    cases hstep
    exact h.congr rfl rfl rfl (fun _ h => .inl h) rfl
  | work =>
    simp only [step, work] at hstep
    split at hstep <;> cases hstep
    · exact h.execute ‹_›
    · exact h.take ‹_› _ _
  | respond c r rsp =>
    obtain ⟨-, heq⟩ := Option.ite_none_right_eq_some.mp hstep
    cases heq
    exact h.congr rfl rfl rfl (fun _ h => .inl h) rfl

structure Kept (m : Manager κ ι ρ) : Prop where
  counted : m.Counted
  sound : m.Sound

theorem kept_step (h : m.Kept) {l : Label κ ι ρ} (hstep : m.step d l = some m') : m'.Kept :=
  ⟨counted_step h.counted hstep, sound_step h.sound hstep⟩

theorem kept_construct (initCb : Option κ) : (construct initCb : Manager κ ι ρ).Kept :=
  ⟨counted_construct initCb, sound_construct initCb⟩

theorem kept_run {initCb : Option κ} {ls : List (Label κ ι ρ)}
    (hrun : Trace.run (step d) (construct initCb) ls = some m) : m.Kept :=
  Trace.run_invariant (fun _ _ _ h hstep => kept_step h hstep) hrun (kept_construct initCb)

/-- In every run of any of the managers an init callback is invoked at most once. When it is told that
the service is available, a request of its caller would have been let in as the status was taken;
when the worker tells it, a request is let in also now. The same goes for whoever reads the status.
After the first report none waits on the list. -/
theorem initHeard_run {initCb : Option κ} {ls : List (Label κ ι ρ)}
    (hrun : Trace.run (step d) (construct initCb) ls = some m) :
    (∀ c, (m.initHeard.map Hearing.caller).count c ≤ 1) ∧
    (∀ h ∈ m.initHeard, h.status = .available →
      h.flagTaken = true ∧ (h.late = false → h.flagHeard = true)) ∧
    (m.lastStatus = .available → m.readyFlag = true) ∧
    (m.initReported = true → m.initCbs = []) ∧
    (m.actions = [] → ∀ c, m.calls c = .armed → (m.initHeard.map Hearing.caller).count c = 1 ∨
      c ∈ m.initCbs ∧ m.initReported = false) := by
  have h := kept_run hrun
  have htoken := h.counted.inits
  unfold initTokens at htoken
  have hcbs : m.initReported = true → m.initCbs = [] := by
    intro hreported
    have hphase := h.sound.phase
    generalize hactions : m.actions = actions at hphase
    cases hphase with
    | notReady out | drop out | entering out | flagged out | published out | reporting out =>
      exact out.cbs hreported
    | firing _ _ _ cbs => exact cbs
    | ready inside | served inside | leaving inside | withdrawn inside | unflagged inside
    | left inside => exact inside.cbs
  refine ⟨?_, h.sound.heard, h.sound.flagged, hcbs, ?_⟩
  · intro c
    have hc := htoken c
    simp only [List.count_append] at hc
    split at hc <;> omega
  · intro hactions c hc
    have hc' := htoken c
    rw [if_pos hc, hactions] at hc'
    simp only [List.filterMap_nil, List.nil_append, List.count_append] at hc'
    by_cases hmem : c ∈ m.initCbs
    · right
      refine ⟨hmem, ?_⟩
      by_contra hreported
      rw [hcbs (by simpa using hreported)] at hmem
      cases hmem
    · left
      rw [List.count_eq_zero.mpr hmem] at hc'
      omega

def Idle (m : Manager κ ι ρ) : Prop := m.actions = [] ∧ m.queue = []

def TakesReady (m : Manager κ ι ρ) : Label κ ι ρ → Prop
  | .work => m.actions = [] → (m.queue.head?.bind Event.asker).isSome → m.ready = true
  | _ => True

theorem lost_step {l : Label κ ι ρ} (hstep : m.step d l = some m') :
    m.lost = [] ∧ m.TakesReady l ↔ m'.lost = [] := by
  cases l with
  | work =>
    simp only [step, work] at hstep
    split at hstep <;> cases hstep
    · rename_i hactions
      rw [lost_execute hactions]
      exact and_iff_left (fun hnil => by rw [hactions] at hnil; cases hnil)
    · rename_i e rest hactions hqueue
      have hlost : m.lost = m.dropped := by
        unfold lost
        rw [hactions]
        exact List.append_nil _
      change _ ↔ m.dropped ++ (handle d m.ready e).filterMap Action.dropped = []
      rw [hlost, lost_handle, List.append_eq_nil_iff]
      refine and_congr_right (fun _ => ?_)
      simp only [TakesReady, hactions, hqueue, List.head?_cons, Option.bind_some, forall_const]
      cases e.asker <;> cases m.ready <;> simp
  | addInitCallback c =>
    obtain ⟨-, heq⟩ := Option.ite_none_right_eq_some.mp hstep
    cases heq
    unfold addInitCallback
    split <;> exact and_iff_left trivial
  | ask c r =>
    obtain ⟨-, heq⟩ := Option.ite_none_right_eq_some.mp hstep
    cases heq
    exact and_iff_left trivial
  | proceed c =>
    simp only [step, proceed] at hstep
    split at hstep <;> cases hstep <;> exact and_iff_left trivial
  | respond c r rsp =>
    obtain ⟨-, heq⟩ := Option.ite_none_right_eq_some.mp hstep
    cases heq
    exact and_iff_left trivial
  | readinessInd status | connectivityChanged operational | ind i =>
    cases hstep
    exact and_iff_left trivial

/-- In every run a request is answered at most once, and not at all if it was turned away. When the
worker is idle and the bridge has called back for all it was sent, each accepted request has been
answered if and only if none was taken from the queue in NotReady, which drops it. -/
theorem asksAnswered_run {initCb : Option κ} {ls : List (Label κ ι ρ)}
    (hrun : Trace.run (step d) (construct initCb) ls = some m) :
    (∀ c, (m.answers.map Prod.fst).count c ≤ if m.calls c = .accepted then 1 else 0) ∧
    (m.Idle → m.inFlight = [] →
      ((∀ c, m.calls c = .accepted → (m.answers.map Prod.fst).count c = 1) ↔
        Trace.AllSteps (step d) TakesReady (construct initCb) ls)) := by
  have htoken := (kept_run hrun).counted.asks
  unfold askTokens at htoken
  constructor
  · intro c
    rw [← htoken c]
    simp only [List.count_append]
    omega
  · rintro ⟨hactions, hqueue⟩ hflight
    have hall : Trace.AllSteps (step d) TakesReady (construct initCb) ls ↔ m.lost = [] := by
      apply Trace.allSteps_iff (I := fun m => m.lost = []) (J := fun _ => True)
        (fun _ _ _ _ _ => trivial) ?_ ?_ hrun trivial rfl
      · intro m l m' _ hm hstep
        have h := lost_step hstep
        exact ⟨fun hok => h.mp ⟨hm, hok⟩, fun hm' => (h.mpr hm').2⟩
      · intro m l m' _ hm hstep hm'
        exact hm ((lost_step hstep).mpr hm').1
    have hlost : m.lost = m.dropped := by
      unfold lost
      rw [hactions]
      exact List.append_nil _
    rw [hall, hlost]
    simp only [hactions, hqueue, hflight, List.filterMap_nil, List.map_nil, List.nil_append,
      List.count_append] at htoken
    constructor
    · intro h
      apply List.eq_nil_iff_forall_not_mem.mpr
      intro c hc
      have hc' := htoken c
      have hpos := List.count_pos_iff.mpr hc
      split at hc'
      · rename_i haccepted
        rw [h c haccepted] at hc'
        omega
      · omega
    · intro hnil c hc
      have hc' := htoken c
      rw [if_pos hc, hnil] at hc'
      simpa using hc'

/-- In every run the listeners hear in turn that the service is not available and that it is, first
that it is not: the first time it becomes available they are not told. When the worker has nothing
under way, the flag, the status and the chart agree, and so do the listeners after the first
report. -/
theorem listenersTold_run {initCb : Option κ} {ls : List (Label κ ι ρ)}
    (hrun : Trace.run (step d) (construct initCb) ls = some m) :
    History.Each Fits m.told ∧
    (m.actions = [] → m.readyFlag = m.ready ∧ (m.lastStatus = .available ↔ m.ready = true) ∧
      up m.told = (m.ready || !m.initReported)) := by
  have h := kept_run hrun
  refine ⟨h.sound.told, ?_⟩
  intro hactions
  have hphase := h.sound.phase
  have hflagged := h.sound.flagged
  rw [hactions] at hphase
  generalize hnil : ([] : List (Action κ ι ρ)) = acts at hphase
  cases hphase with
  | notReady out flag status =>
    have hup : up m.told = !m.initReported := out.up
    have hready : m.ready = false := out.ready
    have hflag : m.readyFlag = false := flag
    exact ⟨by rw [hflag, hready], by simp [hready, show m.lastStatus ≠ .available from status],
      by rw [hup, hready]; rfl⟩
  | ready inside hup flag status =>
    have hup : up m.told = true := hup
    have hready : m.ready = true := inside.ready
    have hflag : m.readyFlag = true := flag
    exact ⟨by rw [hflag, hready], iff_of_true status hready, by rw [hup, hready]; rfl⟩
  | firing _ _ _ _ _ toFire acts heq =>
    rw [← hnil] at heq
    simp [entered] at heq
  | served _ _ _ _ acts hacts =>
    rw [← hnil] at hacts
    cases hacts
  | _ => cases hnil

/-- The card becomes available to its constructor's caller; one request is answered, another comes
behind the end of the link; and a second init callback, whose caller has read the status before the
end, is invoked after it. -/
def outage : List (Label ℕ ℕ CardPower) :=
  [.readinessInd (some "AVAILABLE"), .work, .work, .work, .work, .work, .work, .ask 1 ⟨1, true⟩,
    .ask 2 ⟨1, false⟩, .work, .proceed 1, .work, .work, .respond 1 ⟨1, true⟩ (some ⟨false, false⟩),
    .addInitCallback 3, .proceed 3, .connectivityChanged false, .proceed 2, .work, .work, .work,
    .work, .work, .work, .work, .proceed 3]

theorem initHeard_outage : ∃ m, Trace.run (step (cardManager 1 ℕ)) (construct (some 0)) outage =
    some m ∧
    m.initHeard = [⟨0, .available, false, true, true⟩, ⟨3, .available, true, true, false⟩] ∧
    ∀ h ∈ m.initHeard, h.status = .available →
      h.flagTaken = true ∧ (h.late = false → h.flagHeard = true) := by
  have hrun : Trace.run (step (cardManager 1 ℕ)) (construct (some 0)) outage = some _ := rfl
  exact ⟨_, hrun, rfl, (initHeard_run hrun).2.1⟩

theorem listenersTold_outage : ∃ m, Trace.run (step (cardManager 1 ℕ)) (construct (some 0)) outage =
    some m ∧ m.told = [.status .unavailable] ∧ History.Each Fits m.told := by
  have hrun : Trace.run (step (cardManager 1 ℕ)) (construct (some 0)) outage = some _ := rfl
  exact ⟨_, hrun, rfl, (listenersTold_run hrun).1⟩

theorem asksAnswered_outage :
    ¬ Trace.AllSteps (step (cardManager 1 ℕ)) TakesReady (construct (some 0)) outage := by
  have hrun : Trace.run (step (cardManager 1 ℕ)) (construct (some 0)) outage = some _ := rfl
  intro hall
  have hcount := ((asksAnswered_run hrun).2 ⟨rfl, rfl⟩ rfl).mpr hall 2 rfl
  cases hcount

end Run

end Manager

end TelafSim.SimManager
