import TelafSim.Mpss
import TelafSim.StartUp
import TelafSim.DeferredPosts

/-!
# Throughput reporting

`DataConnectionAO` of `sml/mpss/data/connection.py` with its `ThroughputReporter`: the switch, the
periodic post that the reporter arms through its owner, and the snapshots that are published. The
calls of `Mpss` are used as they are, with the rest of the object beside them.

A `ThroughputTick` that is in the fifo when reporting is switched off is handled afterwards, and
smfn_ready publishes on it without a look at the switch; `force_throughput` does look. The two agree
as long as no tick is left in the fifo by a request that switches reporting off.
-/

namespace TelafSim.Mpss

open Data StartUp

/-- `int / 1000.0` raises for an int that rounds to no float. -/
def overflows (intervalMs : ℤ) : Bool := 2 ^ 1024 - 2 ^ 970 ≤ intervalMs

/-- The sub-chart: its state, `interval_ms`, and its posts; `timer_uuid` is the uuid they store. -/
structure ThroughputReporter where
  isOn : Bool
  intervalMs : ℤ
  posts : DeferredPosts Unit

namespace ThroughputReporter

def create : ThroughputReporter := ⟨false, 0, .empty⟩

def scheduleThroughputTick (intervalMs : ℤ) (posts : DeferredPosts Unit) :
    Option (DeferredPosts Unit) :=
  if overflows intervalMs then none
  else if intervalMs ≤ 0 then some posts
  else some (posts.post ())

def cancelTimer (r : ThroughputReporter) : ThroughputReporter :=
  { r with posts := r.posts.cancel () }

/-- What is left when the call raises comes as an error. -/
def startTimer (r : ThroughputReporter) : Except ThroughputReporter ThroughputReporter :=
  match scheduleThroughputTick r.cancelTimer.intervalMs r.cancelTimer.posts with
  | none => .error r.cancelTimer
  | some posts => .ok { r.cancelTimer with posts := posts }

def enable (intervalMs : ℤ) (r : ThroughputReporter) :
    Except ThroughputReporter ThroughputReporter :=
  let r := { r with intervalMs := intervalMs }
  if r.isOn then r.startTimer else r.startTimer.map (fun r => { r with isOn := true })

/-- Off has no transition for it. -/
def disable (r : ThroughputReporter) : ThroughputReporter :=
  if r.isOn then { r.cancelTimer with isOn := false } else r

end ThroughputReporter

/-- The values of a profile's snapshot. -/
structure ThroughputPreset where
  ulThroughput : ℤ
  ulMaxThroughput : ℤ
  ulQueueSize : ℤ
  dlThroughput : ℤ
  deriving DecidableEq, Repr

structure ForceThroughput where
  profileId : ℤ
  ulThroughput : Option ℤ
  ulMaxThroughput : Option ℤ
  ulQueueSize : Option ℤ
  dlThroughput : Option ℤ
  deriving DecidableEq, Repr

def ForceThroughput.update (data : ForceThroughput) (current : ThroughputPreset) :
    ThroughputPreset where
  ulThroughput := data.ulThroughput.getD current.ulThroughput
  ulMaxThroughput := data.ulMaxThroughput.getD current.ulMaxThroughput
  ulQueueSize := data.ulQueueSize.getD current.ulQueueSize
  dlThroughput := data.dlThroughput.getD current.dlThroughput

structure ThroughputInfo where
  slot : ℤ
  profileId : ℤ
  preset : ThroughputPreset
  deriving DecidableEq, Repr

inductive ReportRequest
  | call (q : Request)
  | setThroughputInterval (corrId : ℕ) (intervalMs : ℤ)
  | requestThroughputInfo (corrId : ℕ)
  deriving DecidableEq

/-- The payload schema: an interval is not negative. -/
def ReportRequest.valid : ReportRequest → Bool
  | .setThroughputInterval _ intervalMs => 0 ≤ intervalMs
  | _ => true

inductive ReportEvent
  | start
  | startingDone
  | stop
  | resubscribe
  | messageReceived (q : ReportRequest)
  | timeout (t : CallTimer) (profileId : ℤ)
  | forceCallDrop (profileId : ℤ)
  | throughputTick
  | forceThroughput (data : ForceThroughput)
  deriving DecidableEq

def ReportEvent.ofCall : MpssEvent → ReportEvent
  | .messageReceived q => .messageReceived (.call q)
  | .timeout t profileId => .timeout t profileId
  | .forceCallDrop profileId => .forceCallDrop profileId

/-- What the object publishes. The response to `set_throughput_interval` has no data; the interval
it answers is recorded for the statements only. -/
inductive Published
  | subsysReady (ready : Bool)
  | call (m : Message)
  | setThroughputIntervalRsp (corrId : ℕ) (intervalMs : ℤ)
  | requestThroughputInfoRsp (corrId : ℕ) (infos : List ThroughputInfo)
  | throughputInfoInd (infos : List ThroughputInfo)
  deriving DecidableEq

/-- `asked` is recorded for the statements only: the interval of the last request that was handled,
zero before the first. -/
structure ReportingConnections where
  phase : Phase
  slot : ℤ
  ao : DataConnectionAO
  throughputByProfile : ℤ → Option ThroughputPreset
  reporter : ThroughputReporter
  fifo : List ReportEvent
  deferQueue : List ReportRequest
  published : List Published
  asked : ℤ

namespace ReportingConnections

def initial (slot : ℤ) (ao : DataConnectionAO) (presets : ℤ → Option ThroughputPreset) :
    ReportingConnections :=
  ⟨.off, slot, ao, presets, .create, [], [], [], 0⟩

def postFifo (e : ReportEvent) (c : ReportingConnections) : ReportingConnections :=
  { c with fifo := c.fifo ++ [e] }

def publish (m : Published) (c : ReportingConnections) : ReportingConnections :=
  { c with published := c.published ++ [m] }

/-- A handler of the calls has run: what it posts and publishes goes out. -/
def settle (r : DataConnectionAO × List Message) (c : ReportingConnections) :
    ReportingConnections :=
  { c with
    ao := { r.1 with fifo := [] }
    fifo := c.fifo ++ r.1.fifo.map .ofCall
    published := c.published ++ r.2.map .call }

def collectThroughputInfos (c : ReportingConnections) : List ThroughputInfo :=
  (c.ao.sessions.entries.filter (fun s => s.2.status = .connected)).filterMap (fun s =>
    (c.throughputByProfile s.2.profileId).map (fun preset => ⟨c.slot, s.2.profileId, preset⟩))

def publishThroughputInfo (c : ReportingConnections) : ReportingConnections :=
  c.publish (.throughputInfoInd c.collectThroughputInfos)

/-- Without a response if the reporter raises: `dispatch_inbound` catches it. -/
def handleSetThroughputInterval (corrId : ℕ) (intervalMs : ℤ) (c : ReportingConnections) :
    ReportingConnections :=
  let c := { c with asked := intervalMs }
  if 0 < intervalMs then
    match c.reporter.enable intervalMs with
    | .error r => { c with reporter := r }
    | .ok r => { c with reporter := r }.publish (.setThroughputIntervalRsp corrId intervalMs)
  else
    { c with reporter := c.reporter.disable }.publish (.setThroughputIntervalRsp corrId intervalMs)

def dispatchMessage (q : ReportRequest) (c : ReportingConnections) : ReportingConnections :=
  if q.valid then
    match q with
    | .call q => c.settle (c.ao.dispatch (.messageReceived q))
    | .setThroughputInterval corrId intervalMs => c.handleSetThroughputInterval corrId intervalMs
    | .requestThroughputInfo corrId =>
      c.publish (.requestThroughputInfoRsp corrId c.collectThroughputInfos)
  else c

def applyForceThroughput (data : ForceThroughput) (c : ReportingConnections) :
    ReportingConnections :=
  let current := (c.throughputByProfile data.profileId).getD ⟨0, 0, 0, 0⟩
  let c := { c with
    throughputByProfile :=
      Function.update c.throughputByProfile data.profileId (some (data.update current)) }
  if c.reporter.isOn then c.publishThroughputInfo else c

def doStop (c : ReportingConnections) : ReportingConnections :=
  { c with
    phase := .stopping
    reporter := c.reporter.disable
    ao := { c.ao with sessions := ∅ } }

def recallOldest (c : ReportingConnections) : ReportingConnections :=
  match c.deferQueue with
  | [] => c
  | q :: rest => { c with fifo := c.fifo ++ [.messageReceived q], deferQueue := rest }

def handleStarting (c : ReportingConnections) : ReportEvent → ReportingConnections
  | .startingDone => ({ c with phase := .ready }.publish (.subsysReady true)).recallOldest
  | .messageReceived q => { c with deferQueue := c.deferQueue ++ [q] }
  | .stop => c.doStop
  | _ => c

def handleReady (c : ReportingConnections) : ReportEvent → ReportingConnections
  | .messageReceived q => c.dispatchMessage q
  | .timeout t p => c.settle (c.ao.dispatch (.timeout t p))
  | .forceCallDrop p => c.settle (c.ao.dispatch (.forceCallDrop p))
  | .throughputTick => c.publishThroughputInfo
  | .forceThroughput data => c.applyForceThroughput data
  | .resubscribe => c.publish (.subsysReady true)
  | .stop => (c.publish (.subsysReady false)).doStop
  | _ => c

def handle (e : ReportEvent) (c : ReportingConnections) : ReportingConnections :=
  match c.phase with
  | .off =>
    match e with
    | .start => { c with phase := .starting }.postFifo .startingDone
    | _ => c
  | .starting => c.handleStarting e
  | .ready => c.handleReady e
  | .stopping => c

inductive Label
  | start
  | stop
  | resubscribe
  | handleMessage (q : ReportRequest)
  | forceCallDrop (profileId : ℤ)
  | forceThroughput (data : ForceThroughput)
  | elapse (profileId : ℤ)
  | tick (uuid : ℕ)
  | handle
  deriving DecidableEq

/-- A periodic post is made again and again until it is cancelled. -/
def step (c : ReportingConnections) : Label → Option ReportingConnections
  | .start => some (c.postFifo .start)
  | .stop => some (c.postFifo .stop)
  | .resubscribe => some (c.postFifo .resubscribe)
  | .handleMessage q => some (c.postFifo (.messageReceived q))
  | .forceCallDrop p => some (c.postFifo (.forceCallDrop p))
  | .forceThroughput data => some (c.postFifo (.forceThroughput data))
  | .elapse p => (c.ao.elapse p).map (fun m => c.settle (m, []))
  | .tick uuid =>
    if (uuid, ()) ∈ c.reporter.posts.records then some (c.postFifo .throughputTick) else none
  | .handle =>
    match c.fifo with
    | [] => none
    | e :: rest => some ({ c with fifo := rest }.handle e)

end ReportingConnections

/-! ### What is published -/

def Published.interval : Published → Option ℤ
  | .setThroughputIntervalRsp _ intervalMs => some intervalMs
  | _ => none

def lastAnswered (l : List Published) : Option ℤ := (l.filterMap Published.interval).getLast?

/-- Between the response to a request that disables and the next response to one that enables no
`throughput_info.ind` is published: what was answered before an indication has enabled. -/
def Silent (published : List Published) : Prop :=
  ∀ l infos r, published = l ++ .throughputInfoInd infos :: r → ∀ i ∈ lastAnswered l, 0 < i

section Published

variable {l l' : List Published} {m : Published}

theorem lastAnswered_append_of_none (h : ∀ m ∈ l', m.interval = none) :
    lastAnswered (l ++ l') = lastAnswered l := by
  have hnil : l'.filterMap Published.interval = [] := List.filterMap_eq_nil_iff.mpr h
  rw [lastAnswered, List.filterMap_append, hnil, List.append_nil]
  rfl

theorem lastAnswered_rsp (corrId : ℕ) (i : ℤ) :
    lastAnswered (l ++ [.setThroughputIntervalRsp corrId i]) = some i := by
  simp [lastAnswered, Published.interval]

theorem silent_nil : Silent [] := by
  intro l infos r heq
  cases l <;> cases heq

theorem Silent.append (h : Silent l) (hm : ∀ infos, .throughputInfoInd infos ∉ l') :
    Silent (l ++ l') := by
  intro a infos r heq
  rcases List.append_eq_append_iff.mp heq with ⟨t, rfl, htail⟩ | ⟨t, hl, htail⟩
  · exact absurd (htail ▸ List.mem_append_right _ List.mem_cons_self) (hm infos)
  · cases t with
    | nil =>
      obtain rfl : _ = l' := htail
      exact absurd List.mem_cons_self (hm infos)
    | cons b t =>
      obtain ⟨rfl, -⟩ := List.cons.inj htail
      exact h a infos t hl

theorem Silent.append_ind (h : Silent l) (hlast : ∀ i ∈ lastAnswered l, 0 < i)
    (infos : List ThroughputInfo) : Silent (l ++ [.throughputInfoInd infos]) := by
  intro a infos' r heq
  rcases List.eq_nil_or_concat r with rfl | ⟨r, b, rfl⟩
  · obtain ⟨rfl, -⟩ := List.append_inj' heq rfl
    exact hlast
  · rw [List.concat_eq_append, ← List.cons_append, ← List.append_assoc] at heq
    exact h a infos' r (List.append_inj' heq rfl).1

end Published

/-! ### The reporter -/

namespace ThroughputReporter

variable {r : ThroughputReporter} {i : ℤ}

/-- The one periodic post there may be is the stored one, and it is there in On. -/
structure Armed (r : ThroughputReporter) : Prop where
  records : r.posts.records = (r.posts.uuids ()).toList.map (fun u => (u, ()))
  stored : (r.posts.uuids ()).isSome = r.isOn

theorem armed_create : create.Armed := ⟨rfl, rfl⟩

theorem Armed.length (h : r.Armed) : r.posts.records.length = if r.isOn then 1 else 0 := by
  rw [h.records, ← h.stored, List.length_map]
  cases r.posts.uuids () <;> rfl

theorem Armed.cancelTimer (h : r.Armed) : r.cancelTimer.posts.records = [] := by
  have hrecords := h.records
  unfold ThroughputReporter.cancelTimer DeferredPosts.cancel
  cases huuid : r.posts.uuids () with
  | none => simp_all
  | some u => simp_all

theorem uuids_cancelTimer : r.cancelTimer.posts.uuids () = none := DeferredPosts.uuids_cancel_self

theorem Armed.startTimer (h : r.Armed) (hpos : 0 < r.intervalMs)
    (hfit : overflows r.intervalMs = false) :
    r.startTimer = .ok { r.cancelTimer with posts := r.cancelTimer.posts.post () } ∧
      ({ r.cancelTimer with posts := r.cancelTimer.posts.post (), isOn := true } :
        ThroughputReporter).Armed := by
  have hsome : scheduleThroughputTick r.cancelTimer.intervalMs r.cancelTimer.posts =
      some (r.cancelTimer.posts.post ()) := by
    have hneg : ¬ r.intervalMs ≤ 0 := by omega
    simp [scheduleThroughputTick, ThroughputReporter.cancelTimer, hfit, hneg]
  constructor
  · rw [ThroughputReporter.startTimer, hsome]
  · constructor
    · simp [DeferredPosts.post, h.cancelTimer]
    · simp [DeferredPosts.post]

theorem Armed.enable (h : r.Armed) (hpos : 0 < i) (hfit : overflows i = false) :
    ∃ r', r.enable i = .ok r' ∧ r'.Armed ∧ r'.isOn = true := by
  have hset : ({ r with intervalMs := i } : ThroughputReporter).Armed := ⟨h.records, h.stored⟩
  obtain ⟨heq, harmed⟩ := hset.startTimer hpos hfit
  refine ⟨_, ?_, harmed, rfl⟩
  unfold ThroughputReporter.enable
  by_cases hon : r.isOn = true
  · rw [if_pos hon, heq]
    simp [ThroughputReporter.cancelTimer, hon]
  · rw [if_neg hon, heq]
    rfl

theorem Armed.disable (h : r.Armed) : r.disable.Armed := by
  unfold ThroughputReporter.disable
  split_ifs
  · constructor
    · rw [h.cancelTimer, uuids_cancelTimer]
      rfl
    · rw [uuids_cancelTimer]
      rfl
  · exact h

theorem isOn_disable : r.disable.isOn = false := by
  unfold ThroughputReporter.disable
  split_ifs with hon
  · rfl
  · simpa using hon

end ThroughputReporter

/-! ### The queued ticks -/

/-- A tick is handled before the next request that enables and before Stop. -/
def ticksFirst : List ReportEvent → Bool
  | [] => false
  | .throughputTick :: _ => true
  | .stop :: _ => false
  | .messageReceived (.setThroughputInterval _ i) :: rest => i ≤ 0 && ticksFirst rest
  | _ :: rest => ticksFirst rest

theorem ticksFirst_of_not_mem {l : List ReportEvent} (h : .throughputTick ∉ l) :
    ticksFirst l = false := by
  induction l with
  | nil => rfl
  | cons e l ih =>
    have hrest := ih (fun hmem => h (List.mem_cons_of_mem e hmem))
    unfold ticksFirst
    split <;> simp_all

theorem ticksFirst_append {l l' : List ReportEvent} (h : .throughputTick ∉ l')
    (hl : ticksFirst l = false) : ticksFirst (l ++ l') = false := by
  induction l with
  | nil => exact ticksFirst_of_not_mem h
  | cons e l ih =>
    rw [List.cons_append]
    unfold ticksFirst at hl ⊢
    split <;> simp_all

namespace ReportingConnections

variable {c c' : ReportingConnections} {e : ReportEvent} {rest es : List ReportEvent}
  {ms : List Published}

/-- The switch follows the requests, a periodic post is armed while it is on and only then, and no
indication is published while it is off. Stopping switches it off. -/
structure Obeys (c : ReportingConnections) : Prop where
  on_iff : c.reporter.isOn = true ↔ c.phase ≠ .stopping ∧ 0 < c.asked
  armed : c.reporter.posts.records.length = if c.reporter.isOn then 1 else 0
  silent : Silent c.published

/-- An interval is no larger than a float, and no tick is left in the fifo by a request that
disables. -/
def heeds (c : ReportingConnections) : Label → Bool
  | .handle =>
    match c.phase, c.fifo with
    | .ready, .messageReceived (.setThroughputInterval _ i) :: rest =>
      if 0 < i then !overflows i else i < 0 || !ticksFirst rest
    | _, _ => true
  | _ => true

structure Sound (c : ReportingConnections) : Prop where
  reporter : c.reporter.Armed
  on_iff : c.reporter.isOn = true ↔ c.phase ≠ .stopping ∧ 0 < c.asked
  early : c.phase = .off ∨ c.phase = .starting → c.asked = 0 ∧ .throughputTick ∉ c.fifo
  answered : c.phase ≠ .stopping → ∀ i ∈ lastAnswered c.published, i = c.asked
  silent : Silent c.published

def Clear (c : ReportingConnections) : Prop :=
  c.phase = .ready → c.reporter.isOn = false → ticksFirst c.fifo = false

theorem Sound.obeys (h : c.Sound) : c.Obeys := ⟨h.on_iff, h.reporter.length, h.silent⟩

theorem sound_initial (slot : ℤ) (ao : DataConnectionAO) (presets : ℤ → Option ThroughputPreset) :
    (initial slot ao presets).Sound := by
  refine ⟨ThroughputReporter.armed_create, ?_, ?_, ?_, silent_nil⟩
  · simp [initial, ThroughputReporter.create]
  · simp [initial]
  · simp [initial, lastAnswered]

def Plain (ms : List Published) : Prop :=
  ∀ m ∈ ms, m.interval = none ∧ ∀ infos, m ≠ .throughputInfoInd infos

theorem plain_nil : Plain [] := by
  intro m hm
  cases hm

theorem plain_call (l : List Message) : Plain (l.map .call) := by
  intro m hm
  obtain ⟨x, -, rfl⟩ := List.mem_map.mp hm
  exact ⟨rfl, fun infos => Published.noConfusion⟩

structure Grows (c c' : ReportingConnections) : Prop where
  phase : c'.phase = c.phase
  reporter : c'.reporter = c.reporter
  asked : c'.asked = c.asked
  fifo : ∃ es, c'.fifo = c.fifo ++ es ∧ .throughputTick ∉ es
  published : ∃ ms, c'.published = c.published ++ ms ∧ Plain ms

theorem Grows.refl (c : ReportingConnections) : Grows c c :=
  ⟨rfl, rfl, rfl, ⟨[], (List.append_nil _).symm, List.not_mem_nil⟩,
    ⟨[], (List.append_nil _).symm, plain_nil⟩⟩

theorem Grows.trans {c'' : ReportingConnections} (h : Grows c c') (h' : Grows c' c'') :
    Grows c c'' := by
  obtain ⟨es, hes, hmem⟩ := h.fifo
  obtain ⟨es', hes', hmem'⟩ := h'.fifo
  obtain ⟨ms, hms, hplain⟩ := h.published
  obtain ⟨ms', hms', hplain'⟩ := h'.published
  refine ⟨h'.phase.trans h.phase, h'.reporter.trans h.reporter, h'.asked.trans h.asked,
    ⟨es ++ es', ?_, ?_⟩, ⟨ms ++ ms', ?_, ?_⟩⟩
  · rw [hes', hes, List.append_assoc]
  · rw [List.mem_append]
    exact not_or.mpr ⟨hmem, hmem'⟩
  · rw [hms', hms, List.append_assoc]
  · intro m hm
    rcases List.mem_append.mp hm with hm | hm
    · exact hplain m hm
    · exact hplain' m hm

theorem grows_postFifo (he : e ≠ .throughputTick) (c : ReportingConnections) :
    Grows c (c.postFifo e) := by
  refine ⟨rfl, rfl, rfl, ⟨[e], rfl, ?_⟩, (Grows.refl c).published⟩
  rw [List.mem_singleton]
  exact he.symm

theorem grows_publish {m : Published} (hm : Plain [m]) (c : ReportingConnections) :
    Grows c (c.publish m) := ⟨rfl, rfl, rfl, (Grows.refl c).fifo, [m], rfl, hm⟩

theorem grows_settle (r : DataConnectionAO × List Message) (c : ReportingConnections) :
    Grows c (c.settle r) := by
  refine ⟨rfl, rfl, rfl, ⟨r.1.fifo.map .ofCall, rfl, ?_⟩, ⟨r.2.map .call, rfl, plain_call r.2⟩⟩
  intro hmem
  obtain ⟨x, -, hx⟩ := List.mem_map.mp hmem
  cases x <;> cases hx

theorem grows_recallOldest (c : ReportingConnections) : Grows c c.recallOldest := by
  unfold recallOldest
  split
  · exact .refl c
  · exact ⟨rfl, rfl, rfl, ⟨_, rfl, by simp⟩, (Grows.refl c).published⟩

theorem Sound.grow (h : c.Sound) (hgrow : Grows c c') : c'.Sound := by
  obtain ⟨hphase, hreporter, hasked, ⟨es, hfifo, hes⟩, ⟨ms, hpublished, hms⟩⟩ := hgrow
  refine ⟨hreporter ▸ h.reporter, ?_, ?_, ?_, ?_⟩
  · rw [hreporter, hphase, hasked]
    exact h.on_iff
  · intro hearly
    obtain ⟨hzero, htick⟩ := h.early (hphase ▸ hearly)
    refine ⟨hasked.trans hzero, ?_⟩
    rw [hfifo, List.mem_append]
    exact not_or.mpr ⟨htick, hes⟩
  · rw [hphase, hpublished, hasked, lastAnswered_append_of_none (fun m hm => (hms m hm).1)]
    exact h.answered
  · rw [hpublished]
    exact h.silent.append (fun infos hmem => (hms _ hmem).2 infos rfl)

theorem Clear.grow (h : c.Clear) (hgrow : Grows c c') : c'.Clear := by
  obtain ⟨hphase, hreporter, -, ⟨es, hfifo, hes⟩, -⟩ := hgrow
  intro hready hoff
  rw [hfifo]
  exact ticksFirst_append hes (h (hphase ▸ hready) (hreporter ▸ hoff))

theorem Sound.pop (h : c.Sound) (hfifo : c.fifo = e :: rest) : { c with fifo := rest }.Sound := by
  refine ⟨h.reporter, h.on_iff, ?_, h.answered, h.silent⟩
  intro hearly
  obtain ⟨hzero, htick⟩ := h.early hearly
  rw [hfifo] at htick
  exact ⟨hzero, fun hmem => htick (List.mem_cons_of_mem e hmem)⟩

/-- Once the object is stopping its fifo is not served any more. -/
theorem clear_of_stopping (h : c.phase = .stopping) : c.Clear := by
  intro hready
  rw [h] at hready
  cases hready

theorem clear_of_on (h : c.reporter.isOn = true) : c.Clear := by
  intro _ hoff
  rw [h] at hoff
  cases hoff

theorem clear_of_not_ready (h : c.phase ≠ .ready) : c.Clear := fun hready => absurd hready h

theorem Sound.publishThroughputInfo (h : c.Sound) (hon : c.reporter.isOn = true) :
    c.publishThroughputInfo.Sound := by
  obtain ⟨hphase, hpos⟩ := h.on_iff.mp hon
  refine ⟨h.reporter, h.on_iff, h.early, ?_, ?_⟩
  · intro hphase i hi
    unfold lastAnswered ReportingConnections.publishThroughputInfo publish at hi
    simp only [List.filterMap_append] at hi
    exact h.answered hphase i (by simpa [lastAnswered, Published.interval] using hi)
  · refine h.silent.append_ind ?_ _
    intro i hi
    rw [h.answered hphase i hi]
    exact hpos

theorem Sound.doStop (h : c.Sound) : c.doStop.Sound := by
  refine ⟨h.reporter.disable, ?_, ?_, ?_, h.silent⟩
  · simp [ReportingConnections.doStop, ThroughputReporter.isOn_disable]
  · simp [ReportingConnections.doStop]
  · simp [ReportingConnections.doStop]

theorem Sound.handleSetThroughputInterval (h : c.Sound) (hphase : c.phase = .ready) {i : ℤ}
    (hfit : 0 < i → overflows i = false) (corrId : ℕ) :
    (c.handleSetThroughputInterval corrId i).Sound ∧
      (c.handleSetThroughputInterval corrId i).fifo = c.fifo ∧
      ((c.handleSetThroughputInterval corrId i).reporter.isOn = true ↔ 0 < i) := by
  have hsound : ∀ r : ThroughputReporter, r.Armed → (r.isOn = true ↔ 0 < i) →
      ({ c with asked := i, reporter := r }.publish
        (.setThroughputIntervalRsp corrId i)).Sound := by
    intro r harmed hon
    refine ⟨harmed, ?_, ?_, ?_, ?_⟩
    · simp [publish, hphase, hon]
    · simp [publish, hphase]
    · intro _ j hj
      rw [publish, lastAnswered_rsp] at hj
      exact (Option.some.inj hj).symm
    · exact h.silent.append (by simp)
  unfold ReportingConnections.handleSetThroughputInterval
  by_cases hpos : 0 < i
  · obtain ⟨r, hr, harmed, hon⟩ := h.reporter.enable hpos (hfit hpos)
    simp only [hpos, if_true, hr]
    exact ⟨hsound r harmed (by simp [hon, hpos]), rfl, by simp [publish, hon]⟩
  · simp only [hpos, if_false]
    have hoff := ThroughputReporter.isOn_disable (r := c.reporter)
    exact ⟨hsound _ h.reporter.disable (by simp [hoff, hpos]), rfl, by simp [publish, hoff]⟩

theorem plain_subsysReady (ready : Bool) : Plain [.subsysReady ready] := by
  intro m hm
  rw [List.mem_singleton.mp hm]
  exact ⟨rfl, fun infos => Published.noConfusion⟩

theorem plain_infoRsp (corrId : ℕ) (infos : List ThroughputInfo) :
    Plain [.requestThroughputInfoRsp corrId infos] := by
  intro m hm
  rw [List.mem_singleton.mp hm]
  exact ⟨rfl, fun infos => Published.noConfusion⟩

theorem handleStarting_kept (h : c.Sound) (hphase : c.phase = .starting) (e : ReportEvent) :
    (c.handleStarting e).Sound ∧ (.throughputTick ∉ c.fifo → (c.handleStarting e).Clear) := by
  cases e with
  | startingDone =>
    have hready : { c with phase := .ready }.Sound := by
      refine ⟨h.reporter, ?_, ?_, ?_, h.silent⟩
      · simpa [hphase] using h.on_iff
      · simp
      · intro _
        exact h.answered (by simp [hphase])
    have hgrow := (grows_publish (plain_subsysReady true) { c with phase := .ready }).trans
      (grows_recallOldest _)
    refine ⟨hready.grow hgrow, ?_⟩
    intro htick
    have hclear : { c with phase := .ready }.Clear := fun _ _ => ticksFirst_of_not_mem htick
    exact hclear.grow hgrow
  | messageReceived q =>
    exact ⟨⟨h.reporter, h.on_iff, h.early, h.answered, h.silent⟩,
      fun _ => clear_of_not_ready (by simp [handleStarting, hphase])⟩
  | stop => exact ⟨h.doStop, fun _ => clear_of_stopping rfl⟩
  | _ => exact ⟨h, fun _ => clear_of_not_ready (by simp [handleStarting, hphase])⟩

/-- The event that is handled is no longer in the fifo. -/
def unpop (e : ReportEvent) (c : ReportingConnections) : ReportingConnections :=
  { c with fifo := e :: c.fifo }

theorem Clear.of_unpop (h : (c.unpop e).Clear)
    (heq : ticksFirst (e :: c.fifo) = ticksFirst c.fifo) : c.Clear := by
  intro hready hoff
  rw [← heq]
  exact h hready hoff

theorem dispatchMessage_kept (h : c.Sound) (hphase : c.phase = .ready) (q : ReportRequest)
    (hheeds : (c.unpop (.messageReceived q)).heeds .handle = true)
    (hclear : (c.unpop (.messageReceived q)).Clear) :
    (c.dispatchMessage q).Sound ∧ (c.dispatchMessage q).Clear := by
  unfold dispatchMessage
  cases q with
  | call q => exact ⟨h.grow (grows_settle _ c), (hclear.of_unpop rfl).grow (grows_settle _ c)⟩
  | requestThroughputInfo corrId =>
    have hgrow := grows_publish (plain_infoRsp corrId c.collectThroughputInfos) c
    exact ⟨h.grow hgrow, (hclear.of_unpop rfl).grow hgrow⟩
  | setThroughputInterval corrId i =>
    simp only [heeds, unpop, hphase] at hheeds
    by_cases hvalid : 0 ≤ i
    · have hfit : 0 < i → overflows i = false := by
        intro hpos
        simpa [hpos] using hheeds
      obtain ⟨hsound, hkeeps, hon⟩ := h.handleSetThroughputInterval hphase hfit corrId
      simp only [ReportRequest.valid, hvalid, decide_true, if_true]
      refine ⟨hsound, ?_⟩
      intro _ hoff
      have hzero : ¬ 0 < i := by
        intro hpos
        rw [hon.mpr hpos] at hoff
        cases hoff
      have hneg : ¬ i < 0 := by omega
      rw [hkeeps]
      simpa [hzero, hneg] using hheeds
    · simp only [ReportRequest.valid, hvalid, decide_false, Bool.false_eq_true, if_false]
      have hle : i ≤ 0 := by omega
      exact ⟨h, hclear.of_unpop (by simp [ticksFirst, hle])⟩

theorem handleReady_kept (h : c.Sound) (hphase : c.phase = .ready)
    (hheeds : (c.unpop e).heeds .handle = true) (hclear : (c.unpop e).Clear) :
    (c.handleReady e).Sound ∧ (c.handleReady e).Clear := by
  have hgrows : ∀ c', Grows c c' → ticksFirst (e :: c.fifo) = ticksFirst c.fifo →
      c'.Sound ∧ c'.Clear :=
    fun c' hgrow heq => ⟨h.grow hgrow, (hclear.of_unpop heq).grow hgrow⟩
  cases e with
  | messageReceived q => exact dispatchMessage_kept h hphase q hheeds hclear
  | timeout t p => exact hgrows _ (grows_settle _ c) rfl
  | forceCallDrop p => exact hgrows _ (grows_settle _ c) rfl
  | resubscribe => exact hgrows _ (grows_publish (plain_subsysReady true) c) rfl
  | start => exact hgrows _ (.refl c) rfl
  | startingDone => exact hgrows _ (.refl c) rfl
  | stop =>
    have hgrow := grows_publish (plain_subsysReady false) c
    exact ⟨(h.grow hgrow).doStop, clear_of_stopping rfl⟩
  | throughputTick =>
    -- with the switch off there is none to handle
    have hon : c.reporter.isOn = true := by
      by_contra hoff
      have hfirst := hclear hphase (Bool.eq_false_iff.mpr hoff)
      cases hfirst
    exact ⟨h.publishThroughputInfo hon, clear_of_on hon⟩
  | forceThroughput data =>
    have hgrow : ∀ presets, Grows c { c with throughputByProfile := presets } :=
      fun _ => ⟨rfl, rfl, rfl, (Grows.refl c).fifo, (Grows.refl c).published⟩
    simp only [handleReady, applyForceThroughput]
    split_ifs with hon
    · exact ⟨(h.grow (hgrow _)).publishThroughputInfo hon, clear_of_on hon⟩
    · exact hgrows _ (hgrow _) rfl

theorem handle_kept (h : c.Sound) (hheeds : (c.unpop e).heeds .handle = true)
    (hclear : (c.unpop e).Clear) : (c.handle e).Sound ∧ (c.handle e).Clear := by
  unfold handle
  split
  case h_1 hphase =>
    split
    · have hstarting : { c with phase := .starting }.Sound := by
        refine ⟨h.reporter, ?_, ?_, ?_, h.silent⟩
        · simpa [hphase] using h.on_iff
        · intro _
          exact h.early (.inl hphase)
        · intro _
          exact h.answered (by simp [hphase])
      exact ⟨hstarting.grow (grows_postFifo (by simp) _), clear_of_not_ready (by simp [postFifo])⟩
    · exact ⟨h, clear_of_not_ready (by simp [hphase])⟩
  case h_2 hphase =>
    obtain ⟨hsound, hkept⟩ := handleStarting_kept h hphase e
    exact ⟨hsound, hkept (h.early (.inr hphase)).2⟩
  case h_3 hphase => exact handleReady_kept h hphase hheeds hclear
  case h_4 hphase => exact ⟨h, clear_of_stopping hphase⟩

theorem step_kept {l : Label} (h : c.Sound ∧ c.Clear) (hheeds : c.heeds l = true)
    (hstep : c.step l = some c') : c'.Sound ∧ c'.Clear := by
  have hpost : ∀ e, e ≠ .throughputTick → (c.postFifo e).Sound ∧ (c.postFifo e).Clear :=
    fun e he => ⟨h.1.grow (grows_postFifo he c), h.2.grow (grows_postFifo he c)⟩
  cases l with
  | start | stop | resubscribe | handleMessage | forceCallDrop | forceThroughput =>
    obtain rfl := Option.some.inj hstep
    exact hpost _ (by simp)
  | elapse p =>
    obtain ⟨m, -, rfl⟩ := Option.map_eq_some_iff.mp hstep
    exact ⟨h.1.grow (grows_settle _ c), h.2.grow (grows_settle _ c)⟩
  | tick uuid =>
    simp only [step, Option.ite_none_right_eq_some] at hstep
    obtain ⟨harmed, hpost⟩ := hstep
    obtain rfl := Option.some.inj hpost
    -- a post that is armed tells that the switch is on
    have hon : c.reporter.isOn = true := by
      have hlength := h.1.reporter.length
      by_contra hoff
      rw [if_neg hoff, List.length_eq_zero_iff] at hlength
      rw [hlength] at harmed
      cases harmed
    obtain ⟨-, hpos⟩ := h.1.on_iff.mp hon
    refine ⟨⟨h.1.reporter, h.1.on_iff, ?_, h.1.answered, h.1.silent⟩, clear_of_on hon⟩
    intro hearly
    have hzero := (h.1.early hearly).1
    omega
  | handle =>
    unfold step at hstep
    cases hfifo : c.fifo with
    | nil => simp [hfifo] at hstep
    | cons e rest =>
      simp only [hfifo] at hstep
      obtain rfl := Option.some.inj hstep
      have heq : { c with fifo := rest }.unpop e = c := by
        rw [unpop, ← hfifo]
      exact handle_kept (h.1.pop hfifo) (heq ▸ hheeds) (heq ▸ h.2)

/-- As long as no tick is left in the fifo by a request that disables reporting, and no interval
raises, reporting obeys its switch in every state of a run. -/
theorem obeys_run (slot : ℤ) (ao : DataConnectionAO) (presets : ℤ → Option ThroughputPreset)
    (l : List Label)
    (hok : Trace.AllSteps step (fun c l => c.heeds l = true) (initial slot ao presets) l) :
    Trace.Always step Obeys (initial slot ao presets) l := by
  refine Trace.always_of_allSteps (fun c (h : c.Sound ∧ c.Clear) => h.1.obeys) ?_ hok
    ⟨sound_initial slot ao presets, clear_of_not_ready (by simp [initial])⟩
  intro c l c' h hheeds hstep
  exact step_kept h hheeds hstep

def noCalls : DataConnectionAO := .start ⟨0, 0⟩ "rmnet_data" 2 (fun _ => none)

/-- A tick is handled before the request that disables comes, and one before the object stops. -/
def heedingRun : List Label :=
  [.start, .handle, .handle, .handleMessage (.setThroughputInterval 1 100), .handle, .tick 0,
    .handle, .handleMessage (.setThroughputInterval 2 0), .handle,
    .forceThroughput ⟨1, some 5, none, none, none⟩, .handle,
    .handleMessage (.setThroughputInterval 3 50), .handle, .tick 1, .stop, .handle, .tick 1,
    .handle, .handle]

theorem obeys_heedingRun :
    Trace.Always step Obeys (initial 1 noCalls (fun _ => none)) heedingRun ∧
    (Trace.run step (initial 1 noCalls (fun _ => none)) heedingRun).map (fun c => c.published) =
      some [.subsysReady true, .setThroughputIntervalRsp 1 100, .throughputInfoInd [],
        .setThroughputIntervalRsp 2 0, .setThroughputIntervalRsp 3 50, .throughputInfoInd [],
        .subsysReady false] := by
  constructor
  · exact obeys_run 1 noCalls (fun _ => none) heedingRun (by decide +kernel)
  · decide +kernel

def lateTickRun : List Label :=
  [.start, .handle, .handle, .handleMessage (.setThroughputInterval 1 100), .handle,
    .handleMessage (.setThroughputInterval 2 0), .tick 0, .handle, .handle]

theorem lateTickRun_not_silent :
    ∃ c, Trace.run step (initial 1 noCalls (fun _ => none)) lateTickRun = some c ∧
      c.reporter.isOn = false ∧ c.reporter.posts.records = [] ∧
      c.published = [.subsysReady true, .setThroughputIntervalRsp 1 100,
        .setThroughputIntervalRsp 2 0, .throughputInfoInd []] ∧
      ¬ Silent c.published := by
  have hrun : (Trace.run step (initial 1 noCalls (fun _ => none)) lateTickRun).map
      (fun c => (c.reporter.isOn, c.reporter.posts.records, c.published)) =
      some (false, [], [.subsysReady true, .setThroughputIntervalRsp 1 100,
        .setThroughputIntervalRsp 2 0, .throughputInfoInd []]) := by decide +kernel
  obtain ⟨c, hrun, heq⟩ := Option.map_eq_some_iff.mp hrun
  obtain ⟨hoff, hrecords, hpublished⟩ : c.reporter.isOn = false ∧
      c.reporter.posts.records = [] ∧ c.published = _ := by simpa [Prod.ext_iff] using heq
  refine ⟨c, hrun, hoff, hrecords, hpublished, ?_⟩
  intro hsilent
  have hpos := hsilent [.subsysReady true, .setThroughputIntervalRsp 1 100,
    .setThroughputIntervalRsp 2 0] [] [] hpublished 0 rfl
  exact absurd hpos (by decide)

end ReportingConnections

end TelafSim.Mpss
