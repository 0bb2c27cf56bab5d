import TelafSim.MqttClient

/-!
# The MQTT client and its link

Before Stop, a client whose queue is empty should be in Operational when the last link event it got
was a LinkUp with rc 0. Reconnecting and its super-state Disconnected have no case for LinkUp: one
that is taken from the queue after the connect timeout is gone, and nothing else says that the
session is up. It does no harm when another link event is still queued behind it.
-/

namespace TelafSim.Mqtt.MqttClient

/-- No LinkUp(0) is dequeued in Reconnecting, unless another link event is queued behind it. -/
def heeds (m : MqttClient) : Label → Bool
  | .handle _ =>
    match m.fifo with
    | .linkUp rc :: rest => rc ≠ 0 || m.state ≠ .reconnecting || rest.any ClientEvent.isLink
    | _ => true
  | _ => true

def Label.isStop : Label → Bool
  | .requestStop => true
  | _ => false

/-- The state of the client follows the link events that it took from the queue. -/
structure Linked (m : MqttClient) : Prop where
  leaf : isLeaf m.state
  noStop : m.state ≠ .stopping
  noStopQueued : .stop ∉ m.fifo
  session : m.session → m.paho
  paho : m.paho → m.state ≠ .off
  queued : m.fifo.any ClientEvent.isLink → m.paho
  last : ∀ e, (m.fifo.filter ClientEvent.isLink).getLast? = some e → m.lastLink = some e
  up : m.fifo.any ClientEvent.isLink = false → m.lastLink = some (.linkUp 0) →
    m.state = .operational

section Link

variable {w : World} {m m' : MqttClient} {l : Label} {e : ClientEvent} {es : List ClientEvent}

theorem last_append {last : Option ClientEvent} {fifo : List ClientEvent}
    (h : ∀ e, (fifo.filter ClientEvent.isLink).getLast? = some e → last = some e) :
    ∀ e, ((fifo ++ es).filter ClientEvent.isLink).getLast? = some e → lastOf es last = some e := by
  intro e he
  rw [List.filter_append, List.getLast?_append] at he
  unfold lastOf
  cases hes : (es.filter ClientEvent.isLink).getLast? with
  | none =>
    rw [hes, Option.none_or] at he
    rw [Option.none_or]
    exact h e he
  | some e' =>
    rw [hes, Option.some_or] at he
    exact he

theorem dispatch_spec (w : World) (e : ClientEvent) (hleaf : isLeaf m.state) :
    (m.dispatch w e).state = (target m.state e).getD m.state ∧
      (m.dispatch w e).session = m.session ∧
      ((m.dispatch w e).paho = true ↔ m.paho = true ∨ target m.state e = some .connecting) ∧
      ∃ es, (m.dispatch w e).fifo = m.fifo ++ es ∧
        (m.dispatch w e).lastLink = lastOf es m.lastLink ∧
        (es = [] ∨ es = [.linkDown (-1)] ∧ target m.state e = some .connecting) := by
  cases ht : target m.state e with
  | none =>
    have hrests := rests_dispatch (w := w) hleaf ht
    refine ⟨hrests.state, hrests.session, by simp [hrests.paho], [], ?_, hrests.lastLink, .inl rfl⟩
    rw [hrests.fifo, List.append_nil]
  | some st' =>
    have henters := enters_dispatch (w := w) hleaf ht
    refine ⟨henters.state, henters.session, by simp [henters.paho], _, henters.fifo, ?_, ?_⟩
    · rw [henters.lastLink]
      split <;> rfl
    · split
      · rename_i hraises
        exact .inr ⟨rfl, congrArg some hraises.1⟩
      · exact .inl rfl

theorem linked_initial (connectTimeoutMs : ℤ) (subsystems : List Subsystem) :
    Linked (initial connectTimeoutMs subsystems) := by
  constructor <;> simp [initial, isLeaf]

theorem Linked.posts (hlinked : m.Linked) (hposts : Posts es m m') (hstop : .stop ∉ es)
    (hsession : m'.session → m.paho) (hlink : es.any ClientEvent.isLink → m.paho) :
    m'.Linked := by
  refine ⟨?_, ?_, ?_, ?_, ?_, ?_, ?_, ?_⟩
  · rw [hposts.state]
    exact hlinked.leaf
  · rw [hposts.state]
    exact hlinked.noStop
  · rw [hposts.fifo, List.mem_append]
    exact not_or.mpr ⟨hlinked.noStopQueued, hstop⟩
  · rw [hposts.paho]
    exact hsession
  · rw [hposts.paho, hposts.state]
    exact hlinked.paho
  · rw [hposts.paho, hposts.fifo, List.any_append, Bool.or_eq_true]
    exact fun h => h.elim hlinked.queued hlink
  · rw [hposts.lastLink, hposts.fifo]
    exact last_append hlinked.last
  · rw [hposts.lastLink, hposts.fifo, hposts.state, List.any_append]
    intro hnone hlast
    obtain ⟨hold, hnew⟩ := Bool.or_eq_false_iff.mp hnone
    have hes : es.filter ClientEvent.isLink = [] := by
      rw [List.filter_eq_nil_iff]
      rw [List.any_eq_false] at hnew
      exact hnew
    rw [lastOf, hes] at hlast
    exact hlinked.up hold hlast

/-- Where the client is when it has taken the last link event, a LinkUp(0), from the queue. -/
theorem Linked.operational_of_last (hlinked : m.Linked) {rest : List ClientEvent}
    (hfifo : m.fifo = e :: rest) (hheeds : m.heeds (.handle w))
    (hnone : rest.any ClientEvent.isLink = false) (hlast : m.lastLink = some (.linkUp 0)) :
    (target m.state e).getD m.state = .operational := by
  by_cases he : e.isLink
  · -- the event at the head is the last link event
    have hrest : rest.filter ClientEvent.isLink = [] := by
      rw [List.filter_eq_nil_iff]
      rw [List.any_eq_false] at hnone
      exact hnone
    have hhead := hlinked.last e (by rw [hfifo, List.filter_cons_of_pos he, hrest]; rfl)
    obtain rfl : e = .linkUp 0 := Option.some.inj (hhead.symm.trans hlast)
    have hpaho : m.paho := hlinked.queued (by rw [hfifo, List.any_cons, he, Bool.true_or])
    have hoff := hlinked.paho hpaho
    have hleaf := hlinked.leaf
    have hstop := hlinked.noStop
    rw [heeds, hfifo] at hheeds
    have hback : m.state ≠ .reconnecting := by simpa [hnone] using hheeds
    cases hst : m.state with
    | connecting => rfl
    | operational => rfl
    | off => exact absurd hst hoff
    | stopping => exact absurd hst hstop
    | reconnecting => exact absurd hst hback
    | connected =>
      rw [hst] at hleaf
      cases hleaf
    | disconnected =>
      rw [hst] at hleaf
      cases hleaf
  · -- it was taken before, and no other event but Stop leads away from Operational
    have hst := hlinked.up (by rw [hfifo, List.any_cons, hnone]; simpa using he) hlast
    have hstop : e ≠ .stop := by
      rintro rfl
      exact hlinked.noStopQueued (by rw [hfifo]; exact List.mem_cons_self)
    rw [hst]
    cases e with
    | linkDown rc => exact absurd rfl he
    | stop => exact absurd rfl hstop
    | _ => rfl

theorem Linked.handle (hlinked : m.Linked) {rest : List ClientEvent} (hfifo : m.fifo = e :: rest)
    (hheeds : m.heeds (.handle w)) : (dispatch w e { m with fifo := rest }).Linked := by
  have hmem : ∀ x, x ∈ rest → x ∈ m.fifo := by
    rw [hfifo]
    exact fun x => List.mem_cons_of_mem e
  have hstop : e ≠ .stop := by
    rintro rfl
    exact hlinked.noStopQueued (by rw [hfifo]; exact List.mem_cons_self)
  obtain ⟨hstate, hsession, hpaho, es, hes, hlast, hdown⟩ :=
    dispatch_spec (m := { m with fifo := rest }) w e hlinked.leaf
  dsimp only at hstate hsession hpaho hes hlast hdown
  have hqueued : rest.any ClientEvent.isLink → m.paho := by
    intro h
    exact hlinked.queued (by rw [hfifo, List.any_cons, h, Bool.or_true])
  refine ⟨?_, ?_, ?_, ?_, ?_, ?_, ?_, ?_⟩
  · rw [hstate]
    cases ht : target m.state e with
    | none => exact hlinked.leaf
    | some st' => exact (target_spec ht).1
  · rw [hstate]
    cases ht : target m.state e with
    | none => exact hlinked.noStop
    | some st' => exact fun h => hstop ((target_spec ht).2.2.2.mp h)
  · rw [hes, List.mem_append]
    rintro (hold | hnew)
    · exact hlinked.noStopQueued (hmem _ hold)
    · rcases hdown with rfl | ⟨rfl, -⟩
      · cases hnew
      · simp at hnew
  · rw [hsession, hpaho]
    exact fun h => .inl (hlinked.session h)
  · rw [hpaho, hstate]
    cases ht : target m.state e with
    | none => exact fun h => hlinked.paho (h.resolve_right (by simp))
    | some st' => exact fun _ => (target_spec ht).2.1
  · rw [hpaho, hes, List.any_append, Bool.or_eq_true]
    rintro (hold | hnew)
    · exact .inl (hqueued hold)
    · rcases hdown with rfl | ⟨-, ht⟩
      · cases hnew
      · exact .inr ht
  · rw [hes, hlast]
    refine last_append ?_
    intro x hx
    refine hlinked.last x ?_
    rw [hfifo, List.filter_cons]
    split
    · rw [List.getLast?_cons, hx]
      rfl
    · exact hx
  · rw [hes, hlast, hstate, List.any_append]
    intro hnone hup
    obtain ⟨hold, hnew⟩ := Bool.or_eq_false_iff.mp hnone
    rcases hdown with rfl | ⟨rfl, -⟩
    · exact hlinked.operational_of_last hfifo hheeds hold hup
    · cases hnew

theorem mem_posts {x : ClientEvent} (hx : x ∈ m.posts l) :
    (x = .stop → l.isStop) ∧
      (x.isLink → (∃ rc, l = .onConnect rc) ∨ ∃ rc, l = .onDisconnect rc) := by
  have htimer : ∀ t : ClientTimer, t.event ≠ .stop ∧ t.event.isLink = false := by
    intro t
    cases t <;> exact ⟨by simp [ClientTimer.event], rfl⟩
  cases l with
  | requestStop =>
    obtain rfl := List.mem_singleton.mp hx
    exact ⟨fun _ => rfl, by simp [ClientEvent.isLink]⟩
  | onConnect rc =>
    obtain rfl := List.mem_singleton.mp hx
    exact ⟨by simp, fun _ => .inl ⟨rc, rfl⟩⟩
  | onDisconnect rc =>
    refine ⟨?_, fun _ => .inr ⟨rc, rfl⟩⟩
    rintro rfl
    simp [posts] at hx
  | elapse uuid =>
    obtain ⟨a, -, rfl⟩ := Option.map_eq_some_iff.mp (Option.mem_toList.mp hx)
    simp [htimer]
  | stray t =>
    obtain rfl := List.mem_singleton.mp hx
    simp [htimer]
  | handle w => cases hx
  | _ =>
    obtain rfl := List.mem_singleton.mp hx
    simp [ClientEvent.isLink]

theorem Linked.step (hlinked : m.Linked) (hok : m.heeds l ∧ l.isStop = false)
    (hstep : m.step l = some m') : m'.Linked := by
  obtain ⟨hposts, hsession, hup, hdown, -⟩ | ⟨w, e, rest, rfl, hfifo, rfl⟩ := step_cases hstep
  · refine hlinked.posts hposts ?_ ?_ ?_
    · intro hmem
      have hrequested := (mem_posts hmem).1 rfl
      rw [hok.2] at hrequested
      cases hrequested
    · rw [hsession]
      intro h
      cases l with
      | onConnect rc => exact hup rc rfl
      | onDisconnect rc => cases h
      | _ => exact hlinked.session h
    · intro hany
      obtain ⟨x, hx, hlink⟩ := List.any_eq_true.mp hany
      obtain ⟨rc, hl⟩ | ⟨rc, hl⟩ := (mem_posts hx).2 hlink
      · exact hup rc hl
      · exact hlinked.session (hdown rc hl)
  · exact hlinked.handle hfifo hok.1

/-- In every run before Stop in which no LinkUp(0) is dequeued in Reconnecting as the last link
event of the queue, a client with an empty queue whose last link event was a LinkUp(0) is in
Operational. -/
theorem operational_of_heeds (connectTimeoutMs : ℤ) (subsystems : List Subsystem)
    (ls : List Label) (m : MqttClient)
    (hrun : Trace.run MqttClient.step (initial connectTimeoutMs subsystems) ls = some m)
    (hheeds : Trace.AllSteps MqttClient.step (fun m l => m.heeds l)
      (initial connectTimeoutMs subsystems) ls)
    (hstop : ∀ l ∈ ls, l.isStop = false) (hempty : m.fifo = [])
    (hlast : m.lastLink = some (.linkUp 0)) : m.state = .operational := by
  have hok : Trace.AllSteps MqttClient.step (fun m l => m.heeds l ∧ l.isStop = false)
      (initial connectTimeoutMs subsystems) ls :=
    hheeds.imp (fun m l hl hm => ⟨hm, hstop l hl⟩)
  have hlinked : m.Linked :=
    Trace.run_invariant_of (fun m l m' hm hl hstep => hm.step hl hstep) hok hrun
      (linked_initial connectTimeoutMs subsystems)
  exact hlinked.up (by rw [hempty]; rfl) hlast

def calmWorld : World where
  connectRaises := false
  disconnectRaises := false
  raises _ := false
  ownsTopic _ _ := some false

/-- The broker answers in time, goes away, and comes back. -/
def returningRun : List Label :=
  [.start, .handle calmWorld, .onConnect 0, .handle calmWorld, .onDisconnect 7, .handle calmWorld,
    .elapse 1, .handle calmWorld, .onConnect 0, .handle calmWorld]

/-- The broker answers when the connect timeout is already in the queue. -/
def lateRun : List Label :=
  [.start, .handle calmWorld, .elapse 0, .onConnect 0, .handle calmWorld, .handle calmWorld]

theorem operational_returningRun :
    ∃ m, Trace.run MqttClient.step (initial 5000 []) returningRun = some m ∧ m.fifo = [] ∧
      m.lastLink = some (.linkUp 0) ∧ m.state = .operational := by
  have hrun : (Trace.run MqttClient.step (initial 5000 []) returningRun).any (fun m =>
      m.fifo = [] && m.lastLink = some (.linkUp 0)) = true := by
    decide +kernel
  simp only [Option.any_eq_true, Bool.and_eq_true, decide_eq_true_eq] at hrun
  obtain ⟨m, hm, hempty, hlast⟩ := hrun
  exact ⟨m, hm, hempty, hlast, operational_of_heeds 5000 [] returningRun m hm (by decide +kernel)
    (by decide +kernel) hempty hlast⟩

/-- The session is up, nothing is queued, and the client waits to connect again. -/
theorem late_linkUp_lost :
    ∃ m, Trace.run MqttClient.step (initial 5000 []) lateRun = some m ∧
      (∀ l ∈ lateRun, l.isStop = false) ∧ m.fifo = [] ∧ m.lastLink = some (.linkUp 0) ∧
      m.session = true ∧ m.state = .reconnecting := by
  have hrun : (Trace.run MqttClient.step (initial 5000 []) lateRun).any (fun m =>
      m.fifo = [] && m.lastLink = some (.linkUp 0) && m.session && m.state = .reconnecting) =
      true := by
    decide +kernel
  simp only [Option.any_eq_true, Bool.and_eq_true, decide_eq_true_eq] at hrun
  obtain ⟨m, hm, ⟨⟨hempty, hlast⟩, hsession⟩, hstate⟩ := hrun
  exact ⟨m, hm, by decide, hempty, hlast, hsession, hstate⟩

end Link

end TelafSim.Mqtt.MqttClient
