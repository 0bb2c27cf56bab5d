import TelafSim.Subscriptions

/-!
# Which subscriptions a reconnect restores

An object that is not Ready drops the Resubscribe of a reconnect, because the entry action of
Starting subscribes anyway. That is so when the whole entry action comes after the reconnect. When
the link goes down and comes back in the middle of it, the broker forgets the topics that it had
subscribed, and the Resubscribe stands in front of StartingDone in the fifo.
-/

namespace TelafSim.Subscriptions

open Mqtt

namespace Chart

def todo (c : Chart) : List Act := c.job.getD []

def entering (c : Chart) : Bool := c.state = .starting && c.job.isSome

/-- Resubscribe is behind the first StartingDone. -/
def behind : List AoEvent → Bool
  | [] => false
  | .startingDone :: rest => rest.contains .resubscribe
  | _ :: rest => behind rest

/-- A Resubscribe that Ready will take is in the fifo. -/
def hears (c : Chart) : Bool :=
  match c.state with
  | .ready => c.fifo.contains .resubscribe
  | .starting => c.job.isNone && behind c.fifo
  | _ => false

end Chart

def isDown : ClientEvent → Bool
  | .linkDown _ => true
  | _ => false

/-- The client is not in Operational, or will leave it. -/
def leaves (m : MqttClient) : Bool := m.state ≠ .operational || m.fifo.any isDown

namespace System

/-- Start is in the fifo of the object, or will be posted to it. -/
def startComes (s : System) (ao : Ao) : Prop :=
  .start ∈ (s.chart ao).fifo ∨ .post ao .start ∈ s.dataSubsystem.todo ∨
    s.dataSubsystem.state = .off ∧ .start ∈ s.dataSubsystem.fifo

/-- The topic is subscribed, or the object is going to subscribe it. -/
def Due (s : System) (ao : Ao) (topic : String) : Prop :=
  topic ∈ s.subscribed ∨ .subscribe topic ∈ (s.chart ao).todo ∨
    (s.chart ao).state = .off ∧ s.startComes ao ∨ (s.chart ao).hears ∨ s.dataSubsystem.hears ∨
    .post ao .resubscribe ∈ s.dataSubsystem.todo

instance (s : System) (ao : Ao) (topic : String) : Decidable (s.Due ao topic) :=
  inferInstanceAs (Decidable (_ ∨ _ ∨ _ ∧ (_ ∨ _ ∨ _ ∧ _) ∨ _ ∨ _ ∨ _))

/-- No Resubscribe is posted to an object in the middle of its entry action of Starting, unless the
client will post another one or nothing in the care of the object is lost: every topic is
subscribed on this session or is going to be. -/
def heeds (s : System) : Label → Bool
  | .client (.handle _) =>
    match s.client.fifo with
    | [] => true
    | e :: rest =>
      decide (MqttClient.target s.client.state e = some .operational → s.client.subAosStarted →
        s.dataSubsystem.entering → rest.any isDown ∨
        ∀ ao ∈ aos, ∀ topic ∈ ownedTopics ao, s.Due ao topic)
  | .ao .dataSubsystem =>
    match s.dataSubsystem.job with
    | some (.post ao .resubscribe :: _) =>
      decide ((s.chart ao).entering → leaves s.client ∨ ∀ topic ∈ ownedTopics ao,
        topic ∈ s.subscribed ∨ .subscribe topic ∈ (s.chart ao).todo ∨ s.dataSubsystem.hears)
    | _ => true
  | _ => true

/-- The fifos are empty and no handler is under way. -/
def Quiet (s : System) : Prop :=
  s.client.fifo = [] ∧ ∀ ao ∈ aos, (s.chart ao).fifo = [] ∧ (s.chart ao).job = none

instance (s : System) : Decidable s.Quiet := inferInstanceAs (Decidable (_ ∧ _))

def Label.isStop : Label → Bool
  | .client l => l.isStop
  | .ao _ => false

end System

section Charts

variable {c c' : Chart} {es : List AoEvent}

/-- Another thread only posts. -/
structure Chart.Grows (c c' : Chart) : Prop where
  state : c'.state = c.state
  job : c'.job = c.job
  fifo : ∃ es, c'.fifo = c.fifo ++ es

theorem Chart.Grows.refl (c : Chart) : c.Grows c := ⟨rfl, rfl, [], by simp⟩

theorem Chart.Grows.todo (h : c.Grows c') : c'.todo = c.todo := by
  unfold Chart.todo
  rw [h.job]

theorem Chart.Grows.mem (h : c.Grows c') {e : AoEvent} (he : e ∈ c.fifo) : e ∈ c'.fifo := by
  obtain ⟨es, hes⟩ := h.fifo
  rw [hes]
  exact List.mem_append_left es he

theorem Chart.behind_append (l : List AoEvent) (h : Chart.behind l) : Chart.behind (l ++ es) := by
  induction l with
  | nil => cases h
  | cons e l ih =>
    cases e with
    | startingDone =>
      simp only [Chart.behind, List.contains_eq_mem, decide_eq_true_eq] at h
      simp only [List.cons_append, Chart.behind, List.contains_eq_mem, decide_eq_true_eq]
      exact List.mem_append_left es h
    | _ => exact ih h

theorem Chart.behind_append_of_mem (l : List AoEvent) (h : .startingDone ∈ l)
    (hes : .resubscribe ∈ es) : Chart.behind (l ++ es) := by
  induction l with
  | nil => cases h
  | cons e l ih =>
    cases e with
    | startingDone =>
      simp only [List.cons_append, Chart.behind, List.contains_eq_mem, decide_eq_true_eq]
      exact List.mem_append_right l hes
    | _ => exact ih (by simpa using h)

theorem Chart.Grows.hears (h : c.Grows c') (hc : c.hears) : c'.hears := by
  obtain ⟨es, hes⟩ := h.fifo
  unfold Chart.hears at hc ⊢
  rw [h.state, h.job, hes]
  cases hst : c.state with
  | ready =>
    rw [hst] at hc
    simp only [List.contains_eq_mem, decide_eq_true_eq] at hc ⊢
    exact List.mem_append_left es hc
  | starting =>
    rw [hst] at hc
    simp only [Bool.and_eq_true] at hc ⊢
    exact ⟨hc.1, Chart.behind_append _ hc.2⟩
  | off =>
    rw [hst] at hc
    cases hc
  | stopping =>
    rw [hst] at hc
    cases hc

theorem grows_postFifo (e : AoEvent) (c : Chart) : c.Grows (c.postFifo e) := ⟨rfl, rfl, [e], rfl⟩

/-- Makes the object stop, or the broker forget. -/
def Act.stops : Act → Bool
  | .post _ .stop => true
  | .unsubscribe _ => true
  | _ => false

/-- The object has not been told to stop. -/
structure Chart.Runs (c : Chart) : Prop where
  state : c.state ≠ .stopping
  fifo : .stop ∉ c.fifo
  todo : ∀ a ∈ c.todo, a.stops = false

theorem Chart.runs_initial : Chart.initial.Runs := by
  constructor <;> simp [Chart.initial, Chart.todo]

theorem Chart.Runs.append (h : c.Runs) (hes : .stop ∉ es) :
    Chart.Runs { c with fifo := c.fifo ++ es } :=
  ⟨h.state, by simp [h.fifo, hes], h.todo⟩

theorem stops_subscribeOwned {ao : Ao} {a : Act} (ha : a ∈ subscribeOwned ao) :
    a.stops = false := by
  obtain ⟨topic, -, rfl⟩ := List.mem_map.mp ha
  rfl

theorem stops_posts {ao : Ao} {e : AoEvent} (he : e ≠ .stop) {a : Act}
    (ha : a ∈ subAos.map (Act.post · e) ++ subscribeOwned ao) : a.stops = false := by
  obtain ha | ha := List.mem_append.mp ha
  · obtain ⟨b, -, rfl⟩ := List.mem_map.mp ha
    cases e with
    | stop => exact absurd rfl he
    | _ => rfl
  · exact stops_subscribeOwned ha

theorem subscribe_mem_doStart {ao : Ao} {topic : String} (h : topic ∈ ownedTopics ao) :
    .subscribe topic ∈ doStart ao := by
  have hmem : Act.subscribe topic ∈ subscribeOwned ao := List.mem_map_of_mem h
  cases ao with
  | dataSubsystem => exact List.mem_append_right _ hmem
  | _ => exact hmem

theorem subscribe_mem_doResubscribe {ao : Ao} {topic : String} (h : topic ∈ ownedTopics ao) :
    .subscribe topic ∈ doResubscribe ao := by
  have hmem : Act.subscribe topic ∈ subscribeOwned ao := List.mem_map_of_mem h
  cases ao with
  | dataSubsystem => exact List.mem_append_right _ hmem
  | _ => exact hmem

theorem mem_subAos {ao : Ao} (h : ao ≠ .dataSubsystem) : ao ∈ subAos := by
  cases ao with
  | dataSubsystem => exact absurd rfl h
  | _ => decide

theorem post_mem_doStart {ao : Ao} (h : ao ≠ .dataSubsystem) :
    .post ao .start ∈ doStart .dataSubsystem :=
  List.mem_append_left _ (List.mem_map_of_mem (mem_subAos h))

theorem post_mem_doResubscribe {ao : Ao} (h : ao ≠ .dataSubsystem) :
    .post ao .resubscribe ∈ doResubscribe .dataSubsystem :=
  List.mem_append_left _ (List.mem_map_of_mem (mem_subAos h))

/-- An object with nothing to do has its handler return, or takes an event. -/
structure Chart.Turns (ao : Ao) (c c' : Chart) : Prop where
  todo : c.todo = []
  hears : c.hears → c'.hears ∨ c'.todo = doResubscribe ao
  starts : c.state = .off → .start ∈ c.fifo → .start ∈ c'.fifo ∨ c'.todo = doStart ao
  off : c.state = .off → c'.state = .off ∨ c'.todo = doStart ao
  ofOff : c'.state = .off → c.state = .off ∧ c'.job = none
  done : c'.state = .starting → c'.job = none → .startingDone ∈ c'.fifo
  runs : c'.Runs

theorem Chart.Turns.started {ao : Ao} (h : c.Turns ao c') (hoff : c.state = .off)
    (hstart : .start ∈ c.fifo) :
    c'.state = .off ∧ .start ∈ c'.fifo ∨ c'.todo = doStart ao := by
  obtain hkeep | hdo := h.off hoff
  · obtain hmem | hdo := h.starts hoff hstart
    · exact .inl ⟨hkeep, hmem⟩
    · exact .inr hdo
  · exact .inr hdo

/-- An object that is still in Off has not begun its start. -/
theorem Chart.Turns.mem_fifo {ao : Ao} (h : c.Turns ao c') (hoff : c'.state = .off)
    (hstart : .start ∈ c.fifo) : .start ∈ c'.fifo := by
  obtain ⟨hold, hjob⟩ := h.ofOff hoff
  obtain hmem | hdo := h.starts hold hstart
  · exact hmem
  · unfold Chart.todo at hdo
    rw [hjob] at hdo
    cases ao <;> cases hdo

theorem Chart.turns_finish (ao : Ao) (hjob : c.job = some []) (hidle : c.state ≠ .off)
    (hruns : c.Runs) : c.Turns ao c.finish := by
  have htodo : c.todo = [] := by
    unfold Chart.todo
    rw [hjob]
    rfl
  refine ⟨htodo, ?_, fun hoff => absurd hoff hidle, fun hoff => absurd hoff hidle,
    fun hoff => absurd hoff hidle, ?_, ?_⟩
  · unfold Chart.hears Chart.finish
    cases hst : c.state with
    | starting => simp [hjob]
    | ready => exact Or.inl
    | _ => simp
  · intro hst _
    have hst' : c.state = .starting := hst
    simp [Chart.finish, hst']
  · refine ⟨hruns.state, ?_, ?_⟩
    · unfold Chart.finish
      dsimp only
      split
      · simp [hruns.fifo]
      · exact hruns.fifo
    · simp [Chart.finish, Chart.todo]

theorem stops_doStart {ao : Ao} {a : Act} (ha : a ∈ doStart ao) : a.stops = false := by
  cases ao with
  | dataSubsystem => exact stops_posts (by simp) ha
  | _ => exact stops_subscribeOwned ha

theorem stops_doResubscribe {ao : Ao} {a : Act} (ha : a ∈ doResubscribe ao) :
    a.stops = false := by
  cases ao with
  | dataSubsystem => exact stops_posts (by simp) ha
  | _ => exact stops_subscribeOwned ha

theorem Chart.turns_drop (ao : Ao) {e : AoEvent} {rest : List AoEvent} (hjob : c.job = none)
    (hfifo : c.fifo = e :: rest) (hruns : c.Runs) (hdone : c.state = .starting →
      .startingDone ∈ c.fifo) (hstart : c.state = .off → e ≠ .start)
    (hready : c.state = .ready → e ≠ .resubscribe)
    (hstarting : c.state = .starting → e ≠ .startingDone) :
    c.Turns ao { c with fifo := rest } := by
  have htodo : c.todo = [] := by
    unfold Chart.todo
    rw [hjob]
    rfl
  refine ⟨htodo, ?_, ?_, fun hoff => .inl hoff, fun hoff => ⟨hoff, hjob⟩, ?_, hruns.state, ?_, ?_⟩
  · intro hears
    refine .inl ?_
    unfold Chart.hears at hears ⊢
    rw [hfifo] at hears
    cases hst : c.state with
    | ready =>
      rw [hst] at hears
      simp only [List.contains_eq_mem, decide_eq_true_eq, List.mem_cons] at hears ⊢
      exact hears.resolve_left (fun h => hready hst h.symm)
    | starting =>
      rw [hst] at hears
      simp only [Bool.and_eq_true] at hears ⊢
      refine ⟨hears.1, ?_⟩
      cases e with
      | startingDone => exact absurd rfl (hstarting hst)
      | _ => exact hears.2
    | off =>
      rw [hst] at hears
      cases hears
    | stopping =>
      rw [hst] at hears
      cases hears
  · intro hst hmem
    rw [hfifo, List.mem_cons] at hmem
    exact .inl (hmem.resolve_left (fun h => hstart hst h.symm))
  · intro hst _
    have hmem := hdone hst
    rw [hfifo, List.mem_cons] at hmem
    exact hmem.resolve_left (fun h => hstarting hst h.symm)
  · intro hmem
    exact hruns.fifo (hfifo ▸ List.mem_cons_of_mem e hmem)
  · exact hruns.todo

theorem Chart.turns_handle (ao : Ao) {e : AoEvent} {rest : List AoEvent} (hjob : c.job = none)
    (hfifo : c.fifo = e :: rest) (hruns : c.Runs)
    (hdone : c.state = .starting → .startingDone ∈ c.fifo) :
    c.Turns ao ({ c with fifo := rest }.handle ao e) := by
  have htodo : c.todo = [] := by
    unfold Chart.todo
    rw [hjob]
    rfl
  have hnostop : e ≠ .stop := by
    rintro rfl
    exact hruns.fifo (hfifo ▸ List.mem_cons_self)
  have hrest : .stop ∉ rest := fun h => hruns.fifo (hfifo ▸ List.mem_cons_of_mem e h)
  have hdrop := Chart.turns_drop ao hjob hfifo hruns hdone
  unfold Chart.handle
  dsimp only
  cases hst : c.state with
  | off =>
    by_cases he : e = .start
    · subst he
      refine ⟨htodo, ?_, fun _ _ => .inr rfl, fun _ => .inr rfl, by simp [Chart.react],
        by simp [Chart.react], by simp [Chart.react], hrest, ?_⟩
      · simp [Chart.hears, hst]
      · exact fun a ha => stops_doStart ha
    · have hnone : Chart.react ao .off e = none := by
        cases e <;> first | rfl | exact absurd rfl he
      have hturns := hdrop (fun _ => he) (by simp [hst]) (by simp [hst])
      rw [hst] at hturns
      rw [hnone]
      exact hturns
  | starting =>
    by_cases he : e = .startingDone
    · subst he
      refine ⟨htodo, ?_, by simp [hst], by simp [hst], by simp [Chart.react],
        by simp [Chart.react], by simp [Chart.react], hrest, by simp [Chart.todo, Chart.react]⟩
      intro hears
      refine .inl ?_
      simp only [Chart.hears, hst, hfifo, Chart.behind, Bool.and_eq_true] at hears
      exact hears.2
    · have hnone : Chart.react ao .starting e = none := by
        cases e <;> first | rfl | exact absurd rfl he | exact absurd rfl hnostop
      have hturns := hdrop (by simp [hst]) (by simp [hst]) (fun _ => he)
      rw [hst] at hturns
      rw [hnone]
      exact hturns
  | ready =>
    by_cases he : e = .resubscribe
    · subst he
      exact ⟨htodo, fun _ => .inr rfl, by simp [hst], by simp [hst], by simp [Chart.react],
        by simp [Chart.react], by simp [Chart.react], hrest, fun a ha => stops_doResubscribe ha⟩
    · have hnone : Chart.react ao .ready e = none := by
        cases e <;> first | rfl | exact absurd rfl he | exact absurd rfl hnostop
      have hturns := hdrop (by simp [hst]) (fun _ => he) (by simp [hst])
      rw [hst] at hturns
      rw [hnone]
      exact hturns
  | stopping => exact absurd hst hruns.state

end Charts

section Posting

namespace System

variable {s s' : System} {ao b : Ao} {topic : String}

@[simp] theorem chart_setChart_self (ao : Ao) (c : Chart) (s : System) :
    (s.setChart ao c).chart ao = c := by
  cases ao <;> rfl

theorem chart_setChart_ne (c : Chart) (s : System) (h : b ≠ ao) :
    (s.setChart ao c).chart b = s.chart b := by
  cases ao <;> cases b <;> first | rfl | exact absurd rfl h

@[simp] theorem client_setChart (ao : Ao) (c : Chart) (s : System) :
    (s.setChart ao c).client = s.client := by
  cases ao <;> rfl

@[simp] theorem link_setChart (ao : Ao) (c : Chart) (s : System) :
    (s.setChart ao c).link = s.link := by
  cases ao <;> rfl

@[simp] theorem subscribed_setChart (ao : Ao) (c : Chart) (s : System) :
    (s.setChart ao c).subscribed = s.subscribed := by
  cases ao <;> rfl

@[simp] theorem client_postTo (ao : Ao) (e : AoEvent) (s : System) :
    (s.postTo ao e).client = s.client := client_setChart _ _ _

@[simp] theorem link_postTo (ao : Ao) (e : AoEvent) (s : System) :
    (s.postTo ao e).link = s.link := link_setChart _ _ _

@[simp] theorem subscribed_postTo (ao : Ao) (e : AoEvent) (s : System) :
    (s.postTo ao e).subscribed = s.subscribed := subscribed_setChart _ _ _

theorem grows_postTo (ao : Ao) (e : AoEvent) (s : System) (b : Ao) :
    (s.chart b).Grows ((s.postTo ao e).chart b) := by
  unfold postTo
  by_cases hb : b = ao
  · subst hb
    rw [chart_setChart_self]
    exact grows_postFifo e _
  · rw [chart_setChart_ne _ _ hb]
    exact Chart.Grows.refl _

/-- What the object was going to do it still is when others have posted and subscribed. -/
theorem startComes_of_grows (hgrows : ∀ b, (s.chart b).Grows (s'.chart b))
    (h : s.startComes ao) : s'.startComes ao := by
  have hdata := hgrows .dataSubsystem
  obtain hfifo | htodo | ⟨hoff, hfifo⟩ := h
  · exact .inl ((hgrows ao).mem hfifo)
  · exact .inr (.inl (hdata.todo ▸ htodo))
  · exact .inr (.inr ⟨hdata.state.trans hoff, hdata.mem hfifo⟩)

theorem due_of_grows (hgrows : ∀ b, (s.chart b).Grows (s'.chart b))
    (hsub : topic ∈ s.subscribed → topic ∈ s'.subscribed) (h : s.Due ao topic) :
    s'.Due ao topic := by
  have hdata := hgrows .dataSubsystem
  obtain h | h | ⟨hoff, h⟩ | h | h | h := h
  · exact .inl (hsub h)
  · exact .inr (.inl ((hgrows ao).todo ▸ h))
  · exact .inr (.inr (.inl ⟨(hgrows ao).state.trans hoff, startComes_of_grows hgrows h⟩))
  · exact .inr (.inr (.inr (.inl ((hgrows ao).hears h))))
  · exact .inr (.inr (.inr (.inr (.inl (hdata.hears h)))))
  · exact .inr (.inr (.inr (.inr (.inr (hdata.todo ▸ h)))))

theorem foldl_postTo (es : List AoEvent) (s : System) :
    es.foldl (fun s e => s.postTo .dataSubsystem e) s =
      { s with dataSubsystem := { s.dataSubsystem with fifo := s.dataSubsystem.fifo ++ es } } := by
  induction es generalizing s with
  | nil => simp
  | cons e es ih =>
    rw [List.foldl_cons, ih]
    simp [postTo, setChart, chart, Chart.postFifo]

theorem filterMap_received_of_messages {cs : List SubCall}
    (h : cs.filter SubCall.isLifecycle = []) : cs.filterMap received = [] := by
  rw [List.filterMap_eq_nil_iff]
  intro c hc
  have hnot := List.filter_eq_nil_iff.mp h c hc
  cases c with
  | handleMessage ds topic => rfl
  | _ => exact absurd rfl hnot

/-- What entering Operational posts to the data subsystem. -/
def announced (m : MqttClient) : AoEvent := if m.subAosStarted then .resubscribe else .start

theorem received_entryCalls {m : MqttClient} (hmem : dataEntry ∈ m.subsystems) :
    (∀ e ∈ (m.entryCalls .operational).filterMap received, e = announced m) ∧
      announced m ∈ (m.entryCalls .operational).filterMap received := by
  unfold announced MqttClient.entryCalls
  cases hstarted : m.subAosStarted with
  | true =>
    simp only [if_true, List.mem_filterMap, List.mem_map, List.mem_filter]
    constructor
    · rintro e ⟨-, ⟨ds, -, rfl⟩, he⟩
      simp only [received, Option.ite_none_right_eq_some] at he
      exact (Option.some.inj he.2).symm
    · exact ⟨_, ⟨dataEntry, ⟨hmem, rfl⟩, rfl⟩, rfl⟩
  | false =>
    simp only [Bool.false_eq_true, if_false, List.mem_filterMap, List.mem_map]
    constructor
    · rintro e ⟨-, ⟨ds, -, rfl⟩, he⟩
      simp only [received, Option.ite_none_right_eq_some] at he
      exact (Option.some.inj he.2).symm
    · exact ⟨_, ⟨dataEntry, hmem, rfl⟩, rfl⟩

end System

end Posting

section Client

variable {m m' : MqttClient} {l : MqttClient.Label} {link : Bool}

/-- Whether the client will be in Operational, as far as the link events of the fifo say. -/
def upStep (up : Bool) : ClientEvent → Bool
  | .linkUp rc => up || rc = 0
  | .linkDown _ => false
  | _ => up

def upAfter (up : Bool) (fifo : List ClientEvent) : Bool := fifo.foldl upStep up

theorem upAfter_of_false {up : Bool} (fifo : List ClientEvent) (h : upAfter false fifo) :
    upAfter up fifo := by
  induction fifo generalizing up with
  | nil => cases h
  | cons e fifo ih =>
    simp only [upAfter, List.foldl_cons] at h ih ⊢
    cases e with
    | linkUp rc =>
      by_cases hrc : rc = 0
      · simpa [upStep, hrc] using h
      · simp only [upStep, hrc, decide_false, Bool.or_false] at h ⊢
        exact ih h
    | linkDown rc => exact h
    | _ => exact ih h

theorem upAfter_true_of_any {fifo : List ClientEvent} (h : upAfter true fifo = false) :
    fifo.any isDown := by
  induction fifo with
  | nil => cases h
  | cons e fifo ih =>
    rw [List.any_cons, Bool.or_eq_true]
    cases e with
    | linkDown rc => exact .inl rfl
    | _ => exact .inr (ih h)

/-- The client before Stop, and the link as far as it can know. -/
structure Connected (link : Bool) (m : MqttClient) : Prop where
  leaf : MqttClient.isLeaf m.state
  noStop : m.state ≠ .stopping
  noStopQueued : .stop ∉ m.fifo
  registered : dataEntry ∈ m.subsystems
  started : m.state = .operational → m.subAosStarted
  up : upAfter (m.state = .operational) m.fifo → link

def linkAfter (l : MqttClient.Label) (link : Bool) : Bool :=
  match l with
  | .onConnect rc => link || rc = 0
  | .onDisconnect _ => false
  | _ => link

theorem upAfter_append_of_noLink {up : Bool} (fifo : List ClientEvent) {es : List ClientEvent}
    (hes : es.any ClientEvent.isLink = false) : upAfter up (fifo ++ es) = upAfter up fifo := by
  rw [upAfter, List.foldl_append]
  induction es with
  | nil => rfl
  | cons e es ih =>
    simp only [List.any_cons, Bool.or_eq_false_iff] at hes
    rw [List.foldl_cons]
    cases e with
    | linkUp rc => cases hes.1
    | linkDown rc => cases hes.1
    | _ => exact ih hes.2

theorem upAfter_posts {up : Bool} {fifo : List ClientEvent} (hup : upAfter up fifo → link)
    (h : upAfter up (fifo ++ m.posts l)) : linkAfter l link := by
  have hother : (m.posts l).any ClientEvent.isLink = false → link := by
    intro hes
    rw [upAfter_append_of_noLink fifo hes] at h
    exact hup h
  cases l with
  | onConnect rc =>
    simp only [MqttClient.posts, upAfter, List.foldl_append, List.foldl_cons, List.foldl_nil,
      upStep, Bool.or_eq_true] at h
    simp only [linkAfter, Bool.or_eq_true]
    exact h.imp_left hup
  | onDisconnect rc =>
    simp only [MqttClient.posts, upAfter, List.foldl_append, List.foldl_cons] at h
    split at h <;> cases h
  | elapse uuid =>
    refine hother ?_
    simp only [MqttClient.posts]
    cases m.armed.find? (fun a => a.1 = uuid) with
    | none => rfl
    | some a =>
      obtain ⟨_, t⟩ := a
      cases t <;> rfl
  | stray t =>
    refine hother ?_
    cases t <;> rfl
  | _ => exact hother rfl

theorem leaves_posts {es : List ClientEvent} (hposts : MqttClient.Posts es m m')
    (h : leaves m) : leaves m' := by
  unfold leaves at h ⊢
  rw [hposts.state, hposts.fifo, List.any_append]
  simp only [Bool.or_eq_true] at h ⊢
  exact h.imp_right .inl

/-- An event that leads nowhere makes no call but those of `handle_message`. -/
theorem calls_dispatch {w : World} {e : ClientEvent} (hleaf : MqttClient.isLeaf m.state)
    (h : MqttClient.target m.state e = none) : ∃ cs : List SubCall,
      (m.dispatch w e).calls = m.calls ++ cs ∧ cs.filter SubCall.isLifecycle = [] := by
  have hnone : (m.dispatch w e).calls = m.calls → ∃ cs : List SubCall,
      (m.dispatch w e).calls = m.calls ++ cs ∧ cs.filter SubCall.isLifecycle = [] :=
    fun heq => ⟨[], by rw [heq, List.append_nil], rfl⟩
  cases hst : m.state with
  | operational =>
    rw [hst] at h
    cases e with
    | messageReceived topic payload =>
      obtain ⟨cs, heq, hcs⟩ := MqttClient.onMessage_eq w m topic m.subsystems
      refine ⟨cs, ?_, hcs⟩
      simp only [MqttClient.dispatch, hst, MqttClient.handler, MqttClient.smfnOperational, heq]
    | publish p =>
      refine hnone ?_
      simp only [MqttClient.dispatch, hst, MqttClient.handler, MqttClient.smfnOperational,
        MqttClient.doPublish]
      split <;> rfl
    | linkDown rc => cases h
    | stop => cases h
    | _ => exact hnone (by simp only [MqttClient.dispatch, hst]; rfl)
  | connected =>
    rw [hst] at hleaf
    cases hleaf
  | disconnected =>
    rw [hst] at hleaf
    cases hleaf
  | _ =>
    rw [hst] at h
    refine hnone ?_
    simp only [MqttClient.dispatch, hst, MqttClient.handler]
    cases e <;> first | rfl | cases h

/-- The client stays where it is, or goes somewhere else than to Operational. -/
structure Stays (l : MqttClient.Label) (m m' : MqttClient) : Prop where
  received : (m'.calls.drop m.calls.length).filterMap received = []
  leaves : leaves m → leaves m'
  started : m'.subAosStarted = m.subAosStarted
  down : ∀ rc, l = .onDisconnect rc → Subscriptions.leaves m'

/-- The client enters Operational. -/
structure Announces (l : MqttClient.Label) (m m' : MqttClient) : Prop where
  received : (m'.calls.drop m.calls.length).filterMap received =
    (m.entryCalls .operational).filterMap received
  started : m'.subAosStarted
  before : Subscriptions.leaves m
  event : ∃ w e rest, l = .handle w ∧ m.fifo = e :: rest ∧
    MqttClient.target m.state e = some .operational ∧
    (rest.any isDown → Subscriptions.leaves m')

theorem connected_initial (connectTimeoutMs : ℤ) (before after : List Subsystem) :
    Connected false (MqttClient.initial connectTimeoutMs (before ++ dataEntry :: after)) := by
  constructor <;> simp [MqttClient.initial, MqttClient.isLeaf, upAfter]

theorem Connected.posts (hm : Connected link m) (hl : l.isStop = false)
    (hposts : MqttClient.Posts (m.posts l) m m') :
    Connected (linkAfter l link) m' ∧ Stays l m m' := by
  refine ⟨⟨?_, ?_, ?_, ?_, ?_, ?_⟩, ⟨?_, leaves_posts hposts, hposts.started, ?_⟩⟩
  · rw [hposts.state]
    exact hm.leaf
  · rw [hposts.state]
    exact hm.noStop
  · rw [hposts.fifo, List.mem_append]
    rintro (hold | hnew)
    · exact hm.noStopQueued hold
    · have hstop := (MqttClient.mem_posts hnew).1 rfl
      rw [hl] at hstop
      cases hstop
  · rw [hposts.subsystems]
    exact hm.registered
  · rw [hposts.state, hposts.started]
    exact hm.started
  · rw [hposts.state, hposts.fifo]
    exact upAfter_posts hm.up
  · rw [hposts.calls, List.drop_length]
    rfl
  · rintro rc rfl
    unfold leaves
    rw [hposts.fifo, List.any_append]
    simp [MqttClient.posts, isDown]

theorem isDown_eq_false_of_target {st : ClientState} {e : ClientEvent}
    (h : MqttClient.target st e = none) (hst : st = .operational) : isDown e = false := by
  subst hst
  cases e with
  | linkDown rc => cases h
  | _ => rfl

theorem Connected.rest (hm : Connected link m) {w : World} {e : ClientEvent}
    {rest : List ClientEvent} (hfifo : m.fifo = e :: rest)
    (ht : MqttClient.target m.state e = none) :
    Connected link (MqttClient.dispatch w e { m with fifo := rest }) ∧
      Stays (.handle w) m (MqttClient.dispatch w e { m with fifo := rest }) := by
  have hrests := MqttClient.rests_dispatch (w := w) (m := { m with fifo := rest }) hm.leaf ht
  obtain ⟨cs, hcs, hmessages⟩ := calls_dispatch (m := { m with fifo := rest }) (w := w) hm.leaf ht
  refine ⟨⟨?_, ?_, ?_, ?_, ?_, ?_⟩, ⟨?_, ?_, hrests.started, by simp⟩⟩
  · rw [hrests.state]
    exact hm.leaf
  · rw [hrests.state]
    exact hm.noStop
  · rw [hrests.fifo]
    intro hmem
    exact hm.noStopQueued (hfifo ▸ List.mem_cons_of_mem e hmem)
  · rw [hrests.subsystems]
    exact hm.registered
  · rw [hrests.state, hrests.started]
    exact hm.started
  · rw [hrests.state, hrests.fifo]
    intro hup
    refine hm.up ?_
    rw [hfifo, upAfter, List.foldl_cons]
    by_cases hst : m.state = .operational
    · -- the event does not end Operational
      have he : upStep true e = true := by
        have hdown := isDown_eq_false_of_target ht hst
        cases e with
        | linkDown rc => cases hdown
        | _ => rfl
      simpa [hst, he, upAfter] using hup
    · refine upAfter_of_false rest ?_
      simpa [hst] using hup
  · rw [hcs, List.drop_left]
    exact System.filterMap_received_of_messages hmessages
  · unfold leaves
    rw [hrests.state, hrests.fifo, hfifo, List.any_cons]
    simp only [Bool.or_eq_true, decide_eq_true_eq]
    rintro (hst | he | hrest)
    · exact .inl hst
    · refine .inl ?_
      intro hst
      rw [isDown_eq_false_of_target ht hst] at he
      cases he
    · exact .inr hrest

theorem Connected.enter (hm : Connected link m) {w : World} {e : ClientEvent}
    {rest : List ClientEvent} {st : ClientState} (hfifo : m.fifo = e :: rest)
    (ht : MqttClient.target m.state e = some st) :
    Connected link (MqttClient.dispatch w e { m with fifo := rest }) ∧
      (Stays (.handle w) m (MqttClient.dispatch w e { m with fifo := rest }) ∨
        Announces (.handle w) m (MqttClient.dispatch w e { m with fifo := rest })) := by
  have henters := MqttClient.enters_dispatch (w := w) (m := { m with fifo := rest }) hm.leaf ht
  obtain ⟨hleaf, -, -, hstop⟩ := MqttClient.target_spec ht
  have hnostop : st ≠ .stopping := by
    rintro rfl
    exact hm.noStopQueued (by rw [hfifo, hstop.mp rfl]; exact List.mem_cons_self)
  have hcalls : ∀ calls, calls = m.calls ++ MqttClient.entryCalls st { m with fifo := rest } →
      calls.drop m.calls.length = m.entryCalls st := by
    rintro calls rfl
    rw [List.drop_left]
    rfl
  constructor
  · refine ⟨?_, ?_, ?_, ?_, ?_, ?_⟩
    · rw [henters.state]
      exact hleaf
    · rw [henters.state]
      exact hnostop
    · rw [henters.fifo, List.mem_append]
      rintro (hold | hnew)
      · exact hm.noStopQueued (hfifo ▸ List.mem_cons_of_mem e hold)
      · split at hnew <;> simp at hnew
    · rw [henters.subsystems]
      exact hm.registered
    · rw [henters.state, henters.started]
      rintro rfl
      rfl
    · rw [henters.state, henters.fifo]
      intro hup
      refine hm.up ?_
      rw [hfifo, upAfter, List.foldl_cons]
      by_cases hst : st = .operational
      · -- only a LinkUp(0) leads to Operational
        subst hst
        have he : ∀ up, upStep up e = true := by
          intro up
          unfold MqttClient.target at ht
          split at ht <;> simp at ht
          · rename_i rc
            simp [upStep, ht]
        rw [he]
        simpa [upAfter] using hup
      · refine upAfter_of_false rest ?_
        simp only [hst, decide_false] at hup
        by_cases hraises : st = .connecting ∧ w.connectRaises
        · rw [if_pos hraises, upAfter, List.foldl_append] at hup
          cases hup
        · rwa [if_neg hraises, List.append_nil] at hup
  · by_cases hst : st = .operational
    · subst hst
      refine .inr ⟨?_, ?_, ?_, w, e, rest, rfl, hfifo, ht, ?_⟩
      · rw [hcalls _ henters.calls]
      · rw [henters.started, if_pos rfl]
      · unfold leaves
        have hst : m.state ≠ .operational := by
          intro hst
          rw [hst] at ht
          cases e <;> cases ht
        simp [hst]
      · intro hdown
        unfold leaves
        rw [henters.fifo, List.any_append, hdown]
        simp
    · refine .inl ⟨?_, ?_, ?_, by simp⟩
      · rw [hcalls _ henters.calls]
        unfold MqttClient.entryCalls
        cases st with
        | operational => exact absurd rfl hst
        | stopping => exact absurd rfl hnostop
        | _ => rfl
      · intro _
        unfold leaves
        rw [henters.state]
        simp [hst]
      · rw [henters.started, if_neg hst, if_neg hnostop]

/-- Everything a step of the client means to the data subsystem before Stop. -/
theorem Connected.step (hm : Connected link m) (hl : l.isStop = false)
    (h : m.step l = some m') :
    Connected (linkAfter l link) m' ∧ (Stays l m m' ∨ Announces l m m') := by
  obtain ⟨hposts, -⟩ | ⟨w, e, rest, rfl, hfifo, rfl⟩ := MqttClient.step_cases h
  · obtain ⟨hconnected, hstays⟩ := hm.posts hl hposts
    exact ⟨hconnected, .inl hstays⟩
  · cases ht : MqttClient.target m.state e with
    | none =>
      obtain ⟨hconnected, hstays⟩ := hm.rest hfifo ht
      exact ⟨hconnected, .inl hstays⟩
    | some st => exact hm.enter hfifo ht

end Client

section Steps

namespace System

/-- What the objects and the client have to do with each other before Stop. -/
structure Orderly (s : System) : Prop where
  client : Connected s.link s.client
  fresh : s.client.subAosStarted = false → s.dataSubsystem = .initial
  idle : s.dataSubsystem.state = .off → ∀ ao, (s.chart ao).state = .off ∧
    (ao ≠ .dataSubsystem → (s.chart ao).fifo = [])
  busy : ∀ ao, (s.chart ao).state = .off → (s.chart ao).job = none
  started : s.client.subAosStarted → ∀ ao, (s.chart ao).state = .off → s.startComes ao
  done : ∀ ao, (s.chart ao).state = .starting → (s.chart ao).job = none →
    .startingDone ∈ (s.chart ao).fifo
  runs : ∀ ao, (s.chart ao).Runs

/-- Unless the client is going to announce a session, every topic is due. -/
def Covered (s : System) : Prop :=
  leaves s.client ∨ ∀ ao, ∀ topic ∈ ownedTopics ao, s.Due ao topic

variable {s s' : System} {ao b : Ao} {topic : String}

theorem orderly_initial (connectTimeoutMs : ℤ) (before after : List Subsystem) :
    (initial connectTimeoutMs before after).Orderly := by
  have hchart : ∀ ao, (initial connectTimeoutMs before after).chart ao = .initial := by
    intro ao
    cases ao <;> rfl
  refine ⟨connected_initial _ _ _, fun _ => rfl, ?_, ?_, ?_, ?_, ?_⟩
  · intro _ ao
    rw [hchart]
    exact ⟨rfl, fun _ => rfl⟩
  · intro ao _
    rw [hchart]
    rfl
  · intro hstarted
    cases hstarted
  · intro ao hst
    rw [hchart] at hst
    cases hst
  · intro ao
    rw [hchart]
    exact Chart.runs_initial

theorem startComes_of_turns {c' : Chart} (hturns : (s.chart b).Turns b c')
    (hoff : ((s.setChart b c').chart ao).state = .off) (h : s.startComes ao) :
    (s.setChart b c').startComes ao := by
  by_cases hb : b = .dataSubsystem
  · subst hb
    obtain hfifo | htodo | ⟨hidle, hfifo⟩ := h
    · refine .inl ?_
      by_cases hao : ao = .dataSubsystem
      · subst hao
        rw [chart_setChart_self] at hoff ⊢
        exact hturns.mem_fifo hoff hfifo
      · rw [chart_setChart_ne _ _ hao]
        exact hfifo
    · have hnil : s.dataSubsystem.todo = [] := hturns.todo
      rw [hnil] at htodo
      cases htodo
    · obtain ⟨hidle', hmem⟩ | hdo := hturns.started hidle hfifo
      · exact .inr (.inr ⟨hidle', hmem⟩)
      · by_cases hao : ao = .dataSubsystem
        · subst hao
          rw [chart_setChart_self] at hoff
          refine .inl ?_
          rw [chart_setChart_self]
          exact hturns.mem_fifo hoff hfifo
        · exact .inr (.inl (show _ ∈ c'.todo from hdo ▸ post_mem_doStart hao))
  · have hdata : (s.setChart b c').dataSubsystem = s.dataSubsystem :=
      chart_setChart_ne (b := .dataSubsystem) c' s (Ne.symm hb)
    unfold startComes
    rw [hdata]
    refine h.imp_left ?_
    intro hfifo
    by_cases hao : ao = b
    · subst hao
      rw [chart_setChart_self] at hoff ⊢
      exact hturns.mem_fifo hoff hfifo
    · rw [chart_setChart_ne _ _ hao]
      exact hfifo

/-- A turn of one object keeps a topic due: what it was going to hear it does. -/
theorem due_of_turns {c' : Chart} (hturns : (s.chart b).Turns b c')
    (howned : topic ∈ ownedTopics ao) (h : s.Due ao topic) : (s.setChart b c').Due ao topic := by
  have hself : ∀ {a : Act}, ao = b → a ∈ c'.todo → a ∈ ((s.setChart b c').chart ao).todo := by
    rintro a rfl ha
    rwa [chart_setChart_self]
  obtain h | h | ⟨hoff, h⟩ | h | h | h := h
  · exact .inl (by rwa [subscribed_setChart])
  · refine .inr (.inl ?_)
    by_cases hao : ao = b
    · subst hao
      rw [hturns.todo] at h
      cases h
    · rwa [chart_setChart_ne _ _ hao]
  · by_cases hao : ao = b
    · have hoff' := hoff
      rw [hao] at hoff'
      obtain hkeep | hdo := hturns.off hoff'
      · have hst : ((s.setChart b c').chart ao).state = .off := by
          rw [hao, chart_setChart_self]
          exact hkeep
        exact .inr (.inr (.inl ⟨hst, startComes_of_turns hturns hst h⟩))
      · refine .inr (.inl (hself hao ?_))
        rw [hdo, ← hao]
        exact subscribe_mem_doStart howned
    · have hst : ((s.setChart b c').chart ao).state = .off := by
        rwa [chart_setChart_ne _ _ hao]
      exact .inr (.inr (.inl ⟨hst, startComes_of_turns hturns hst h⟩))
  · by_cases hao : ao = b
    · subst hao
      obtain hkeep | hdo := hturns.hears h
      · exact .inr (.inr (.inr (.inl (by rwa [chart_setChart_self]))))
      · exact .inr (.inl (hself rfl (hdo ▸ subscribe_mem_doResubscribe howned)))
    · exact .inr (.inr (.inr (.inl (by rwa [chart_setChart_ne _ _ hao]))))
  · by_cases hb : b = .dataSubsystem
    · subst hb
      obtain hkeep | hdo := hturns.hears h
      · exact .inr (.inr (.inr (.inr (.inl hkeep))))
      · by_cases hao : ao = .dataSubsystem
        · subst hao
          exact .inr (.inl (hself rfl (hdo ▸ subscribe_mem_doResubscribe howned)))
        · exact .inr (.inr (.inr (.inr (.inr (show _ ∈ c'.todo from
            hdo ▸ post_mem_doResubscribe hao)))))
    · have hdata : (s.setChart b c').dataSubsystem = s.dataSubsystem :=
        chart_setChart_ne (b := .dataSubsystem) c' s (Ne.symm hb)
      exact .inr (.inr (.inr (.inr (.inl (hdata.symm ▸ h)))))
  · by_cases hb : b = .dataSubsystem
    · subst hb
      have hnil : s.dataSubsystem.todo = [] := hturns.todo
      rw [hnil] at h
      cases h
    · have hdata : (s.setChart b c').dataSubsystem = s.dataSubsystem :=
        chart_setChart_ne (b := .dataSubsystem) c' s (Ne.symm hb)
      exact .inr (.inr (.inr (.inr (.inr (hdata.symm ▸ h)))))

theorem Orderly.turn {c' : Chart} (hs : s.Orderly) (hstarted : s.client.subAosStarted)
    (hdata : s.dataSubsystem.state = .off → b = .dataSubsystem)
    (hturns : (s.chart b).Turns b c') : (s.setChart b c').Orderly := by
  refine ⟨?_, ?_, ?_, ?_, ?_, ?_, ?_⟩
  · rw [client_setChart, link_setChart]
    exact hs.client
  · rw [client_setChart, hstarted]
    intro h
    cases h
  · intro hoff ao
    by_cases hb : b = .dataSubsystem
    · subst hb
      obtain ⟨hold, -⟩ := hturns.ofOff hoff
      by_cases hao : ao = .dataSubsystem
      · subst hao
        rw [chart_setChart_self]
        exact ⟨hoff, fun h => absurd rfl h⟩
      · rw [chart_setChart_ne _ _ hao]
        exact hs.idle hold ao
    · have heq : (s.setChart b c').dataSubsystem = s.dataSubsystem :=
        chart_setChart_ne (b := .dataSubsystem) c' s (Ne.symm hb)
      rw [heq] at hoff
      exact absurd (hdata hoff) hb
  · intro ao hoff
    by_cases hao : ao = b
    · subst hao
      rw [chart_setChart_self] at hoff ⊢
      exact (hturns.ofOff hoff).2
    · rw [chart_setChart_ne _ _ hao] at hoff ⊢
      exact hs.busy ao hoff
  · intro _ ao hoff
    refine startComes_of_turns hturns hoff (hs.started hstarted ao ?_)
    by_cases hao : ao = b
    · subst hao
      rw [chart_setChart_self] at hoff
      exact (hturns.ofOff hoff).1
    · rwa [chart_setChart_ne _ _ hao] at hoff
  · intro ao
    by_cases hao : ao = b
    · subst hao
      rw [chart_setChart_self]
      exact hturns.done
    · rw [chart_setChart_ne _ _ hao]
      exact hs.done ao
  · intro ao
    by_cases hao : ao = b
    · subst hao
      rw [chart_setChart_self]
      exact hturns.runs
    · rw [chart_setChart_ne _ _ hao]
      exact hs.runs ao

theorem Covered.turn {c' : Chart} (hcovered : s.Covered) (hturns : (s.chart b).Turns b c') :
    (s.setChart b c').Covered := by
  refine hcovered.imp ?_ ?_
  · intro h
    rwa [client_setChart]
  · intro h ao topic howned
    exact due_of_turns hturns howned (h ao topic howned)

section Acts

variable {a : Act} {job : List Act}

/-- The thread of the object is about to make the call. -/
def pop (b : Ao) (job : List Act) (s : System) : System :=
  s.setChart b { s.chart b with job := some job }

theorem chart_pop_state (s : System) (ao : Ao) :
    ((s.pop b job).chart ao).state = (s.chart ao).state := by
  unfold pop
  by_cases hao : ao = b
  · subst hao
    rw [chart_setChart_self]
  · rw [chart_setChart_ne _ _ hao]

theorem chart_pop_fifo (s : System) (ao : Ao) :
    ((s.pop b job).chart ao).fifo = (s.chart ao).fifo := by
  unfold pop
  by_cases hao : ao = b
  · subst hao
    rw [chart_setChart_self]
  · rw [chart_setChart_ne _ _ hao]

theorem chart_pop_hears (hjob : (s.chart b).job = some (a :: job)) (ao : Ao) :
    ((s.pop b job).chart ao).hears = (s.chart ao).hears := by
  unfold pop
  by_cases hao : ao = b
  · subst hao
    rw [chart_setChart_self]
    unfold Chart.hears
    dsimp only
    rw [hjob]
    cases (s.chart ao).state <;> rfl
  · rw [chart_setChart_ne _ _ hao]

theorem chart_pop_job (hjob : (s.chart b).job = some (a :: job)) :
    ((s.pop b job).chart ao).job = none → (s.chart ao).job = none := by
  unfold pop
  by_cases hao : ao = b
  · subst hao
    rw [chart_setChart_self]
    intro h
    cases h
  · rw [chart_setChart_ne _ _ hao]
    exact id

theorem mem_todo_pop (hjob : (s.chart b).job = some (a :: job)) (ao : Ao) {x : Act}
    (hx : x ∈ (s.chart ao).todo) : x ∈ ((s.pop b job).chart ao).todo ∨ ao = b ∧ x = a := by
  unfold pop
  by_cases hao : ao = b
  · subst hao
    rw [chart_setChart_self]
    unfold Chart.todo at hx ⊢
    rw [hjob] at hx
    obtain hhead | htail := List.mem_cons.mp hx
    · exact .inr ⟨rfl, hhead⟩
    · exact .inl htail
  · rw [chart_setChart_ne _ _ hao]
    exact .inl hx

theorem startComes_pop (hjob : (s.chart b).job = some (a :: job)) (h : s.startComes ao) :
    (s.pop b job).startComes ao ∨ a = .post ao .start := by
  obtain hfifo | htodo | ⟨hoff, hfifo⟩ := h
  · refine .inl (.inl ?_)
    rw [chart_pop_fifo]
    exact hfifo
  · obtain hmem | ⟨-, rfl⟩ := mem_todo_pop hjob .dataSubsystem htodo
    · exact .inl (.inr (.inl hmem))
    · exact .inr rfl
  · refine .inl (.inr (.inr ⟨?_, ?_⟩))
    · exact (chart_pop_state s .dataSubsystem).trans hoff
    · rw [show (s.pop b job).dataSubsystem.fifo = s.dataSubsystem.fifo from
        chart_pop_fifo s .dataSubsystem]
      exact hfifo

theorem due_pop (hjob : (s.chart b).job = some (a :: job)) (h : s.Due ao topic) :
    (s.pop b job).Due ao topic ∨ a = .subscribe topic ∨
      (s.chart ao).state = .off ∧ a = .post ao .start ∨
      b = .dataSubsystem ∧ a = .post ao .resubscribe := by
  obtain h | h | ⟨hoff, h⟩ | h | h | h := h
  · exact .inl (.inl (by rwa [pop, subscribed_setChart]))
  · obtain hmem | ⟨-, rfl⟩ := mem_todo_pop hjob _ h
    · exact .inl (.inr (.inl hmem))
    · exact .inr (.inl rfl)
  · obtain hcomes | rfl := startComes_pop hjob h
    · exact .inl (.inr (.inr (.inl ⟨(chart_pop_state s _).trans hoff, hcomes⟩)))
    · exact .inr (.inr (.inl ⟨hoff, rfl⟩))
  · exact .inl (.inr (.inr (.inr (.inl ((chart_pop_hears hjob _).trans h)))))
  · exact .inl (.inr (.inr (.inr (.inr (.inl
      ((chart_pop_hears hjob .dataSubsystem).trans h))))))
  · obtain hmem | ⟨hb, rfl⟩ := mem_todo_pop hjob .dataSubsystem h
    · exact .inl (.inr (.inr (.inr (.inr (.inr hmem)))))
    · exact .inr (.inr (.inr ⟨hb.symm, rfl⟩))

/-- A call that stops nothing posts, and the broker forgets nothing. -/
theorem grows_act (ha : a.stops = false) (s : System) (ao : Ao) :
    (s.chart ao).Grows ((s.act a).chart ao) := by
  cases a with
  | post b e => exact grows_postTo b e s ao
  | subscribe topic =>
    unfold act
    dsimp only
    split <;> exact Chart.Grows.refl _
  | unsubscribe topic => cases ha

theorem act_frame (ha : a.stops = false) (s : System) : (s.act a).client = s.client ∧
    (s.act a).link = s.link ∧ ∀ topic ∈ s.subscribed, topic ∈ (s.act a).subscribed := by
  cases a with
  | post b e => exact ⟨client_postTo _ _ _, link_postTo _ _ _, fun _ h => by
      rwa [act, subscribed_postTo]⟩
  | subscribe topic =>
    unfold act
    dsimp only
    split
    · exact ⟨rfl, rfl, fun _ h => List.mem_cons_of_mem _ h⟩
    · exact ⟨rfl, rfl, fun _ h => h⟩
  | unsubscribe topic => cases ha

/-- When there is no session the client is going to announce the next one. -/
theorem Orderly.leaves_of_link (hs : s.Orderly) (hlink : s.link = false) :
    leaves s.client := by
  unfold leaves
  rw [Bool.or_eq_true]
  by_cases hst : s.client.state = .operational
  · refine .inr (upAfter_true_of_any ?_)
    by_contra hup
    have hlink' := hs.client.up (by simpa [hst] using hup)
    rw [hlink] at hlink'
    cases hlink'
  · exact .inl (by simpa using hst)

theorem Orderly.act (hs : s.Orderly) (hstarted : s.client.subAosStarted)
    (hjob : (s.chart b).job = some (a :: job)) : ((s.pop b job).act a).Orderly := by
  have ha : a.stops = false := (hs.runs b).todo a (by
    unfold Chart.todo
    rw [hjob]
    exact List.mem_cons_self)
  have hgrows := grows_act ha (s.pop b job)
  obtain ⟨hclient, hlink, -⟩ := act_frame ha (s.pop b job)
  have hstate : ∀ ao, (((s.pop b job).act a).chart ao).state = (s.chart ao).state := fun ao =>
    (hgrows ao).state.trans (chart_pop_state s ao)
  have hbusy : (s.chart b).state ≠ .off := by
    intro hoff
    have hnone := hs.busy b hoff
    rw [hjob] at hnone
    cases hnone
  refine ⟨?_, ?_, ?_, ?_, ?_, ?_, ?_⟩
  · rw [hclient, hlink, pop, client_setChart, link_setChart]
    exact hs.client
  · rw [hclient, pop, client_setChart, hstarted]
    intro h
    cases h
  · intro hoff
    exact absurd (hs.idle ((hstate .dataSubsystem).symm.trans hoff) b).1 hbusy
  · intro ao hoff
    rw [hstate] at hoff
    rw [(hgrows ao).job, pop]
    by_cases hao : ao = b
    · subst hao
      exact absurd hoff hbusy
    · rw [chart_setChart_ne _ _ hao]
      exact hs.busy ao hoff
  · intro _ ao hoff
    rw [hstate] at hoff
    obtain hcomes | rfl := startComes_pop hjob (hs.started hstarted ao hoff)
    · exact startComes_of_grows hgrows hcomes
    · refine .inl ?_
      simp [System.act, postTo, Chart.postFifo]
  · intro ao hst hnone
    rw [hstate] at hst
    rw [(hgrows ao).job] at hnone
    refine (hgrows ao).mem ?_
    rw [chart_pop_fifo]
    exact hs.done ao hst (chart_pop_job hjob hnone)
  · intro ao
    refine ⟨?_, ?_, ?_⟩
    · rw [hstate]
      exact (hs.runs ao).state
    · cases a with
      | post c e =>
        unfold System.act postTo
        dsimp only
        by_cases hao : ao = c
        · subst hao
          rw [chart_setChart_self]
          simp only [Chart.postFifo, List.mem_append, List.mem_singleton, chart_pop_fifo]
          rintro (hold | rfl)
          · exact (hs.runs ao).fifo hold
          · cases ha
        · rw [chart_setChart_ne _ _ hao, chart_pop_fifo]
          exact (hs.runs ao).fifo
      | subscribe topic =>
        have hfifo : (((s.pop b job).act (.subscribe topic)).chart ao).fifo =
            (s.chart ao).fifo := by
          unfold System.act
          dsimp only
          split <;> exact chart_pop_fifo s ao
        rw [hfifo]
        exact (hs.runs ao).fifo
      | unsubscribe topic => cases ha
    · intro x hx
      rw [(hgrows ao).todo] at hx
      refine (hs.runs ao).todo x ?_
      unfold pop at hx
      by_cases hao : ao = b
      · subst hao
        rw [chart_setChart_self] at hx
        unfold Chart.todo
        rw [hjob]
        exact List.mem_cons_of_mem a hx
      · rwa [chart_setChart_ne _ _ hao] at hx

/-- A Resubscribe that an object gets outside the entry action of Starting is not lost on it. -/
theorem Orderly.due_of_posted (hs : s.Orderly) (ao : Ao) (hstarted : s.client.subAosStarted)
    (hentering : (s.chart ao).entering = false)
    (hgrows : ∀ b, (s.chart b).state = (s'.chart b).state)
    (hcomes : s.startComes ao → s'.startComes ao)
    (hjob : (s.chart ao).job = none → (s'.chart ao).job = none)
    (hfifo : ∃ es, (s'.chart ao).fifo = (s.chart ao).fifo ++ es ∧ .resubscribe ∈ es) :
    (s'.chart ao).state = .off ∧ s'.startComes ao ∨ (s'.chart ao).hears := by
  obtain ⟨es, hes, hmem⟩ := hfifo
  cases hst : (s.chart ao).state with
  | off =>
    exact .inl ⟨(hgrows ao).symm.trans hst, hcomes (hs.started hstarted ao hst)⟩
  | starting =>
    refine .inr ?_
    have hnone : (s.chart ao).job = none := by
      unfold Chart.entering at hentering
      rw [hst] at hentering
      simpa using hentering
    unfold Chart.hears
    rw [← hgrows ao, hst, hes, hjob hnone]
    simpa using Chart.behind_append_of_mem _ (hs.done ao hst hnone) hmem
  | ready =>
    refine .inr ?_
    unfold Chart.hears
    rw [← hgrows ao, hst, hes]
    simp [hmem]
  | stopping => exact absurd hst (hs.runs ao).state

theorem Covered.act (hcovered : s.Covered) (hs : s.Orderly) (hstarted : s.client.subAosStarted)
    (hjob : (s.chart b).job = some (a :: job)) (hheeds : s.heeds (.ao b)) :
    ((s.pop b job).act a).Covered := by
  have ha : a.stops = false := (hs.runs b).todo a (by
    unfold Chart.todo
    rw [hjob]
    exact List.mem_cons_self)
  have hgrows := grows_act ha (s.pop b job)
  obtain ⟨hclient, hlink, hsub⟩ := act_frame ha (s.pop b job)
  have horderly := hs.act hstarted hjob
  have hstate : ∀ ao, (s.chart ao).state = (((s.pop b job).act a).chart ao).state := fun ao =>
    ((hgrows ao).state.trans (chart_pop_state s _)).symm
  have hleaves : leaves ((s.pop b job).act a).client = leaves s.client := by
    rw [hclient, pop, client_setChart]
  obtain h | hdue := hcovered
  · exact .inl (hleaves.trans h)
  by_cases hout : leaves s.client
  · exact .inl (hleaves.trans hout)
  refine .inr ?_
  intro ao topic howned
  have hcomes : (s.chart ao).state = .off → ((s.pop b job).act a).startComes ao := fun hoff =>
    horderly.started (by rw [hclient, pop, client_setChart]; exact hstarted) ao
      ((hstate ao).symm.trans hoff)
  obtain hkept | rfl | ⟨hoff, rfl⟩ | ⟨rfl, rfl⟩ := due_pop hjob (hdue ao topic howned)
  · exact due_of_grows hgrows (hsub topic) hkept
  · -- the call reaches the broker, or there is no session
    refine .inl ?_
    cases hsession : s.link with
    | false => exact absurd (hs.leaves_of_link hsession) hout
    | true => simp [System.act, pop, hsession]
  · exact .inr (.inr (.inl ⟨(hstate ao).symm.trans hoff, hcomes hoff⟩))
  · by_cases hentering : (s.chart ao).entering
    · -- the Resubscribe will be dropped
      have hheeds' := hheeds
      unfold heeds at hheeds'
      dsimp only at hheeds'
      rw [show s.dataSubsystem.job = some (.post ao .resubscribe :: job) from hjob] at hheeds'
      obtain h | h := of_decide_eq_true hheeds' hentering
      · exact absurd h hout
      obtain h | h | h := h topic howned
      · exact .inl (hsub topic (by rwa [pop, subscribed_setChart]))
      · refine .inr (.inl ?_)
        obtain hmem | ⟨-, hx⟩ := mem_todo_pop hjob _ h
        · rwa [(hgrows ao).todo]
        · cases hx
      · exact .inr (.inr (.inr (.inr (.inl ((hgrows .dataSubsystem).hears
          ((chart_pop_hears hjob .dataSubsystem).trans h))))))
    · have hkept : s.startComes ao →
          ((s.pop .dataSubsystem job).act (.post ao .resubscribe)).startComes ao := by
        intro h
        obtain h | hx := startComes_pop hjob h
        · exact startComes_of_grows hgrows h
        · cases hx
      have hnone : (s.chart ao).job = none →
          (((s.pop .dataSubsystem job).act (.post ao .resubscribe)).chart ao).job = none := by
        intro hnone
        rw [(hgrows ao).job, pop]
        by_cases hao : ao = .dataSubsystem
        · subst hao
          rw [hjob] at hnone
          cases hnone
        · rwa [chart_setChart_ne _ _ hao]
      have hfifo : (((s.pop .dataSubsystem job).act (.post ao .resubscribe)).chart ao).fifo =
          (s.chart ao).fifo ++ [.resubscribe] := by
        simp [System.act, postTo, Chart.postFifo, chart_pop_fifo]
      obtain h | h := hs.due_of_posted ao hstarted (by simpa using hentering) hstate hkept hnone
        ⟨_, hfifo, List.mem_singleton_self _⟩
      · exact .inr (.inr (.inl h))
      · exact .inr (.inr (.inr (.inl h)))

end Acts

/-- Until the data subsystem has been started no thread has anything to do. -/
theorem Orderly.started_of_stepAo (hs : s.Orderly) (h : s.stepAo b = some s') :
    s.client.subAosStarted ∧ (s.dataSubsystem.state = .off → b = .dataSubsystem) := by
  have hnone : (s.chart b).job = none → (s.chart b).fifo = [] → False := by
    intro hjob hfifo
    unfold System.stepAo at h
    dsimp only at h
    rw [hjob, hfifo] at h
    cases h
  have hdata : s.dataSubsystem.state = .off → b = .dataSubsystem := by
    intro hoff
    by_contra hb
    obtain ⟨hst, hfifo⟩ := hs.idle hoff b
    exact hnone (hs.busy b hst) (hfifo hb)
  refine ⟨?_, hdata⟩
  cases hstarted : s.client.subAosStarted with
  | true => rfl
  | false =>
    have hfresh := hs.fresh hstarted
    have hb := hdata (by rw [hfresh]; rfl)
    subst hb
    refine (hnone ?_ ?_).elim
    · rw [show s.chart .dataSubsystem = s.dataSubsystem from rfl, hfresh]
      rfl
    · rw [show s.chart .dataSubsystem = s.dataSubsystem from rfl, hfresh]
      rfl

theorem Orderly.stepAo (hs : s.Orderly) (hcovered : s.Covered) (hheeds : s.heeds (.ao b))
    (h : s.stepAo b = some s') : s'.Orderly ∧ s'.Covered := by
  obtain ⟨hstarted, hdata⟩ := hs.started_of_stepAo h
  unfold System.stepAo at h
  dsimp only at h
  split at h
  · rename_i a job hjob
    obtain rfl := Option.some.inj h
    exact ⟨hs.act hstarted hjob, hcovered.act hs hstarted hjob hheeds⟩
  · rename_i hjob
    obtain rfl := Option.some.inj h
    have hidle : (s.chart b).state ≠ .off := by
      intro hoff
      have hnone := hs.busy b hoff
      rw [hjob] at hnone
      cases hnone
    have hturns := Chart.turns_finish b hjob hidle (hs.runs b)
    exact ⟨hs.turn hstarted hdata hturns, hcovered.turn hturns⟩
  · rename_i hjob
    split at h
    · cases h
    · rename_i e rest hfifo
      obtain ⟨-, h⟩ := Option.ite_none_left_eq_some.mp h
      obtain rfl := Option.some.inj h
      have hturns := Chart.turns_handle b hjob hfifo (hs.runs b) (fun hst => hs.done b hst hjob)
      exact ⟨hs.turn hstarted hdata hturns, hcovered.turn hturns⟩

theorem stepClient_spec {l : MqttClient.Label} (h : s.stepClient l = some s') : ∃ m' es,
    s.client.step l = some m' ∧
      es = (m'.calls.drop s.client.calls.length).filterMap received ∧ s'.client = m' ∧
      s'.link = linkAfter l s.link ∧
      ((∀ rc, l ≠ .onDisconnect rc) → s'.subscribed = s.subscribed) ∧
      ∀ ao, s'.chart ao = if ao = .dataSubsystem then
        { s.dataSubsystem with fifo := s.dataSubsystem.fifo ++ es } else s.chart ao := by
  obtain ⟨m', hm', rfl⟩ := Option.map_eq_some_iff.mp h
  refine ⟨m', _, hm', rfl, ?_⟩
  rw [foldl_postTo]
  refine ⟨rfl, ?_, ?_, ?_⟩
  · cases l <;> rfl
  · intro hdown
    cases l with
    | onDisconnect rc => exact absurd rfl (hdown rc)
    | _ => rfl
  · intro ao
    cases ao <;> cases l <;> rfl

theorem Orderly.stepClient {l : MqttClient.Label} (hs : s.Orderly) (hcovered : s.Covered)
    (hheeds : s.heeds (.client l)) (hstop : l.isStop = false) (h : s.stepClient l = some s') :
    s'.Orderly ∧ s'.Covered := by
  obtain ⟨m', es, hm', hes, hclient, hlink, hsub, hchart⟩ := stepClient_spec h
  obtain ⟨hconnected, hcases⟩ := hs.client.step hstop hm'
  have hdata : s'.dataSubsystem =
      { s.dataSubsystem with fifo := s.dataSubsystem.fifo ++ es } := hchart .dataSubsystem
  have hgrows : ∀ ao, (s.chart ao).Grows (s'.chart ao) := by
    intro ao
    rw [hchart]
    split
    · rename_i hao
      subst hao
      exact ⟨rfl, rfl, es, rfl⟩
    · exact Chart.Grows.refl _
  have hmem : ∀ e ∈ es, e = announced s.client := by
    obtain hstays | hannounces := hcases
    · rw [hes, hstays.received]
      intro e he
      cases he
    · rw [hes, hannounces.received]
      exact (received_entryCalls hs.client.registered).1
  have hcomes : s'.client.subAosStarted → ∀ ao, (s'.chart ao).state = .off →
      s'.startComes ao := by
    intro hstarted ao hoff
    rw [(hgrows ao).state] at hoff
    cases hold : s.client.subAosStarted with
    | true => exact startComes_of_grows hgrows (hs.started hold ao hoff)
    | false =>
      obtain hstays | hannounces := hcases
      · rw [hclient, hstays.started, hold] at hstarted
        cases hstarted
      · -- the first time in Operational
        have hstart := (received_entryCalls hs.client.registered).2
        rw [← hannounces.received, ← hes, announced, hold] at hstart
        refine .inr (.inr ?_)
        rw [hdata, hs.fresh hold]
        exact ⟨rfl, List.mem_append_right _ hstart⟩
  refine ⟨⟨?_, ?_, ?_, ?_, hcomes, ?_, ?_⟩, ?_⟩
  · rw [hclient, hlink]
    exact hconnected
  · rw [hclient]
    intro hfresh
    obtain hstays | hannounces := hcases
    · rw [hstays.started] at hfresh
      rw [hdata, hs.fresh hfresh, hes, hstays.received]
      rfl
    · rw [hannounces.started] at hfresh
      cases hfresh
  · intro hoff ao
    rw [hdata] at hoff
    obtain ⟨hst, hfifo⟩ := hs.idle hoff ao
    refine ⟨(hgrows ao).state.trans hst, ?_⟩
    intro hao
    rw [hchart, if_neg hao]
    exact hfifo hao
  · intro ao hoff
    rw [(hgrows ao).state] at hoff
    rw [(hgrows ao).job]
    exact hs.busy ao hoff
  · intro ao hst hjob
    rw [(hgrows ao).state] at hst
    rw [(hgrows ao).job] at hjob
    exact (hgrows ao).mem (hs.done ao hst hjob)
  · intro ao
    rw [hchart]
    split
    · refine (hs.runs .dataSubsystem).append ?_
      intro he
      have hstop' := hmem _ he
      unfold announced at hstop'
      split at hstop' <;> cases hstop'
    · exact hs.runs ao
  · unfold Covered
    rw [hclient]
    obtain hstays | hannounces := hcases
    · obtain hout | hdue := hcovered
      · exact .inl (hstays.leaves hout)
      · by_cases hdown : ∃ rc, l = .onDisconnect rc
        · obtain ⟨rc, rfl⟩ := hdown
          exact .inl (hstays.down rc rfl)
        · refine .inr ?_
          intro ao topic howned
          refine due_of_grows hgrows ?_ (hdue ao topic howned)
          rw [hsub (fun rc hl => hdown ⟨rc, hl⟩)]
          exact id
    · obtain ⟨w, e, rest, rfl, hfifo, ht, hdown⟩ := hannounces.event
      by_cases hrest : rest.any isDown
      · exact .inl (hdown hrest)
      refine .inr ?_
      intro ao topic howned
      have hstart : s.dataSubsystem.state = .off → s'.Due ao topic := by
        intro hoff
        have hst := (hgrows ao).state.trans (hs.idle hoff ao).1
        refine .inr (.inr (.inl ⟨hst, hcomes ?_ ao hst⟩))
        rw [hclient]
        exact hannounces.started
      cases hold : s.client.subAosStarted with
      | false => exact hstart (by rw [hs.fresh hold]; rfl)
      | true =>
        by_cases hentering : s.dataSubsystem.entering
        · -- the Resubscribe will be dropped
          unfold heeds at hheeds
          dsimp only at hheeds
          rw [hfifo] at hheeds
          obtain h | h := of_decide_eq_true hheeds ht hold hentering
          · exact absurd h hrest
          · refine due_of_grows hgrows ?_ (h ao (mem_aos ao) topic howned)
            rw [hsub (by simp)]
            exact id
        · have hposted := (received_entryCalls hs.client.registered).2
          rw [← hannounces.received, ← hes, announced, hold] at hposted
          have hfifo' : (s'.chart .dataSubsystem).fifo = s.dataSubsystem.fifo ++ es := by
            rw [hchart]
            rfl
          obtain ⟨hoff, -⟩ | hears := hs.due_of_posted .dataSubsystem hold
            (Bool.eq_false_iff.mpr hentering) (fun b => ((hgrows b).state).symm)
            (startComes_of_grows hgrows) (fun h => (hgrows .dataSubsystem).job.trans h)
            ⟨es, hfifo', hposted⟩
          · exact hstart ((hgrows .dataSubsystem).state.symm.trans hoff)
          · exact .inr (.inr (.inr (.inr (.inl hears))))

theorem Orderly.step {l : Label} (hs : s.Orderly ∧ s.Covered)
    (hok : s.heeds l ∧ l.isStop = false) (h : s.step l = some s') :
    s'.Orderly ∧ s'.Covered := by
  cases l with
  | client l => exact hs.1.stepClient hs.2 hok.1 hok.2 h
  | ao b => exact hs.1.stepAo hs.2 hok.1 h

end System

end Steps

section Runs

namespace System

variable (connectTimeoutMs : ℤ) (before after : List Subsystem) (ls : List Label) (s : System)

/-- In every run before Stop in which no Resubscribe is lost on an object in the middle of its entry
action of Starting, a client that is in Operational finds every owned topic subscribed on the
current session when nothing is left to do. -/
theorem subscribed_of_heeds
    (hrun : Trace.run step (initial connectTimeoutMs before after) ls = some s)
    (hheeds : Trace.AllSteps step (fun s l => s.heeds l) (initial connectTimeoutMs before after) ls)
    (hstop : ∀ l ∈ ls, l.isStop = false) (hup : s.client.state = .operational) (hquiet : s.Quiet)
    (ao : Ao) (topic : String) (howned : topic ∈ ownedTopics ao) : topic ∈ s.subscribed := by
  have hok : Trace.AllSteps step (fun s l => s.heeds l ∧ l.isStop = false)
      (initial connectTimeoutMs before after) ls :=
    hheeds.imp (fun _ l hl h => ⟨h, hstop l hl⟩)
  have hinitial : (initial connectTimeoutMs before after).Covered := .inl rfl
  obtain ⟨-, hcovered⟩ := Trace.run_invariant_of (I := fun s => s.Orderly ∧ s.Covered)
    (fun _ _ _ hs hl h => Orderly.step hs hl h) hok hrun
    ⟨orderly_initial connectTimeoutMs before after, hinitial⟩
  have hfifo := hquiet.1
  have hcharts : ∀ ao, (s.chart ao).fifo = [] ∧ (s.chart ao).job = none :=
    fun ao => hquiet.2 ao (mem_aos ao)
  have htodo : ∀ ao, (s.chart ao).todo = [] := by
    intro ao
    unfold Chart.todo
    rw [(hcharts ao).2]
    rfl
  have hears : ∀ ao, (s.chart ao).hears = false := by
    intro ao
    unfold Chart.hears
    rw [(hcharts ao).1]
    cases (s.chart ao).state <;> simp [Chart.behind]
  have hcomes : ¬ s.startComes ao := by
    rintro (h | h | ⟨-, h⟩)
    · rw [(hcharts ao).1] at h
      cases h
    · rw [show s.dataSubsystem.todo = [] from htodo .dataSubsystem] at h
      cases h
    · rw [show s.dataSubsystem.fifo = [] from (hcharts .dataSubsystem).1] at h
      cases h
  obtain hout | hdue := hcovered
  · unfold leaves at hout
    rw [hup, hfifo] at hout
    cases hout
  · obtain h | h | ⟨-, h⟩ | h | h | h := hdue ao topic howned
    · exact h
    · rw [htodo] at h
      cases h
    · exact absurd h hcomes
    · rw [hears] at h
      cases h
    · rw [show s.dataSubsystem.hears = false from hears .dataSubsystem] at h
      cases h
    · rw [show s.dataSubsystem.todo = [] from htodo .dataSubsystem] at h
      cases h

/-- A thread goes on `n` times. -/
def goesOn (ao : Ao) (n : ℕ) : List Label := List.replicate n (.ao ao)

def connects : List Label :=
  [.client (.onConnect 0), .client (.handle MqttClient.calmWorld)]

def reconnects (reconnectUuid : ℕ) : List Label :=
  [Label.client (.onDisconnect 7), .client (.handle MqttClient.calmWorld),
    .client (.elapse reconnectUuid), .client (.handle MqttClient.calmWorld)] ++ connects

/-- Everything is started; then the client reconnects. -/
def restoredRun : List Label :=
  [Label.client .start, .client (.handle MqttClient.calmWorld)] ++ connects ++
    goesOn .dataSubsystem 16 ++ goesOn .servingSystem 8 ++ goesOn .profile 11 ++
    goesOn .connection 11 ++ reconnects 1 ++ goesOn .dataSubsystem 14 ++
    goesOn .servingSystem 6 ++ goesOn .profile 9 ++ goesOn .connection 9

/-- The client reconnects when the serving system has subscribed its first topic. -/
def lostRun : List Label :=
  [Label.client .start, .client (.handle MqttClient.calmWorld)] ++ connects ++
    goesOn .dataSubsystem 16 ++ goesOn .servingSystem 2 ++ reconnects 1 ++
    goesOn .dataSubsystem 14 ++ goesOn .servingSystem 7 ++ goesOn .profile 12 ++
    goesOn .connection 12

theorem subscribed_restoredRun : ∃ s, Trace.run step (initial 5000 [] []) restoredRun = some s ∧
    s.client.state = .operational ∧ s.Quiet ∧
    ∀ ao, ∀ topic ∈ ownedTopics ao, topic ∈ s.subscribed := by
  have hrun : (Trace.run step (initial 5000 [] []) restoredRun).any (fun s =>
      s.client.state = .operational ∧ s.Quiet) = true := by
    decide +kernel
  simp only [Option.any_eq_true, decide_eq_true_eq] at hrun
  obtain ⟨s, hs, hup, hquiet⟩ := hrun
  exact ⟨s, hs, hup, hquiet, subscribed_of_heeds 5000 [] [] restoredRun s hs (by decide +kernel)
    (by decide) hup hquiet⟩

/-- Everything is Ready and nothing is queued, and a topic is not subscribed on the session. -/
theorem lost_subscription : ∃ s, Trace.run step (initial 5000 [] []) lostRun = some s ∧
    (∀ l ∈ lostRun, l.isStop = false) ∧ s.client.state = .operational ∧ s.Quiet ∧
    "mp/req/data/request_service_status" ∈ ownedTopics .servingSystem ∧
    "mp/req/data/request_service_status" ∉ s.subscribed := by
  have hrun : (Trace.run step (initial 5000 [] []) lostRun).any (fun s =>
      s.client.state = .operational ∧ s.Quiet ∧
        "mp/req/data/request_service_status" ∉ s.subscribed) = true := by
    decide +kernel
  simp only [Option.any_eq_true, decide_eq_true_eq] at hrun
  obtain ⟨s, hs, hup, hquiet, hlost⟩ := hrun
  exact ⟨s, hs, by decide, hup, hquiet, by decide, hlost⟩

end System

end Runs

end TelafSim.Subscriptions
