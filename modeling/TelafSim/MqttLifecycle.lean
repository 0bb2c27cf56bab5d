import TelafSim.MqttClient

/-!
# The life of the subsystems

What a subsystem sees of the MQTT client over a whole run, whichever calls raise: it is started on
the first entry into Operational, resubscribed on each later one and stopped on the way out, once
and in reverse order. The states entered so far decide what an entry calls, and nothing is entered
after Stopping.
-/

namespace TelafSim.Mqtt

/-- What the entry into a state calls, after the entries `entered`. -/
def callsOf (subs : List Subsystem) (entered : List (ClientState × List SubCall)) :
    ClientState → List SubCall
  | .operational =>
    if .operational ∈ entered.map Prod.fst then
      (subs.filter Subsystem.hasResubscribe).map .resubscribe
    else subs.map .start
  | .stopping => if .operational ∈ entered.map Prod.fst then subs.reverse.map .stop else []
  | _ => []

/-- Every entry makes its calls, and Stopping is the last state to be entered. -/
structure Lifecycle (subs : List Subsystem) (entries : List (ClientState × List SubCall)) :
    Prop where
  calls : ∀ before st cs after, entries = before ++ (st, cs) :: after → cs = callsOf subs before st
  last : ∀ before cs after, entries = before ++ (.stopping, cs) :: after → after = []

namespace Lifecycle

variable {subs : List Subsystem} {entries : List (ClientState × List SubCall)}

theorem nil : Lifecycle subs [] := by
  constructor <;> intros <;> simp_all

theorem old_or_new {new e : ClientState × List SubCall}
    {before after : List (ClientState × List SubCall)}
    (h : entries ++ [new] = before ++ e :: after) :
    (∃ after', entries = before ++ e :: after') ∨ (before = entries ∧ e = new ∧ after = []) := by
  rcases List.append_eq_append_iff.mp h with ⟨l, hbefore, htail⟩ | ⟨l, hentries, htail⟩
  · cases l with
    | nil => simp_all
    | cons y l => simp at htail
  · cases l with
    | nil => simp_all
    | cons y l =>
      obtain ⟨rfl, -⟩ := List.cons_eq_cons.mp htail
      exact .inl ⟨l, hentries⟩

theorem stopping_last (h : Lifecycle subs entries) {x : ClientState × List SubCall}
    {before : List (ClientState × List SubCall)} (heq : entries = before ++ [x]) :
    .stopping ∉ before.map Prod.fst := by
  intro hmem
  obtain ⟨⟨st, cs⟩, hcs, rfl⟩ := List.mem_map.mp hmem
  obtain ⟨l₁, l₂, rfl⟩ := List.append_of_mem hcs
  have hnil := h.last l₁ cs (l₂ ++ [x]) (by rw [heq, List.append_assoc]; rfl)
  simp at hnil

theorem snoc (h : Lifecycle subs entries) (hstop : .stopping ∉ entries.map Prod.fst)
    (st : ClientState) : Lifecycle subs (entries ++ [(st, callsOf subs entries st)]) := by
  constructor
  · intro before st' cs after heq
    obtain ⟨after', hold⟩ | ⟨rfl, hnew, -⟩ := old_or_new heq
    · exact h.calls before st' cs after' hold
    · obtain ⟨rfl, rfl⟩ := Prod.mk.inj hnew
      rfl
  · intro before cs after heq
    obtain ⟨after', hold⟩ | ⟨-, -, hnil⟩ := old_or_new heq
    · rw [hold] at hstop
      simp at hstop
    · exact hnil

theorem init {x : ClientState × List SubCall} (h : Lifecycle subs (entries ++ [x])) :
    Lifecycle subs entries := by
  constructor
  · intro before st cs after heq
    exact h.calls before st cs (after ++ [x]) (by rw [heq, List.append_assoc]; rfl)
  · intro before cs after heq
    have hnil := h.last before cs (after ++ [x]) (by rw [heq, List.append_assoc]; rfl)
    simp at hnil

theorem shape (h : Lifecycle subs entries) : ∃ again : List SubCall,
    (∀ c ∈ again, ∃ ds, c = .resubscribe ds) ∧
    entries.flatMap Prod.snd =
      if .operational ∈ entries.map Prod.fst then
        (subs.map .start ++ again) ++
          if .stopping ∈ entries.map Prod.fst then subs.reverse.map .stop else []
      else [] := by
  induction entries using List.reverseRecOn with
  | nil => exact ⟨[], by simp, by simp⟩
  | append_singleton entries x ih =>
    obtain ⟨again, hagain, heq⟩ := ih h.init
    obtain ⟨st, cs⟩ := x
    have hstop := h.stopping_last rfl
    obtain rfl := h.calls entries st cs [] rfl
    rw [List.flatMap_append, heq, if_neg hstop, List.flatMap_singleton]
    by_cases hop : .operational ∈ entries.map Prod.fst
    · cases st with
      | operational =>
        refine ⟨again ++ (subs.filter Subsystem.hasResubscribe).map .resubscribe, ?_, ?_⟩
        · intro c hc
          rcases List.mem_append.mp hc with hc | hc
          · exact hagain c hc
          · obtain ⟨ds, -, rfl⟩ := List.mem_map.mp hc
            exact ⟨ds, rfl⟩
        · simp [callsOf, hop, hstop]
      | _ =>
        refine ⟨again, hagain, ?_⟩
        simp [callsOf, hop, hstop]
    · cases st with
      | operational =>
        refine ⟨[], by simp, ?_⟩
        simp [callsOf, hop, hstop]
      | _ =>
        refine ⟨[], by simp, ?_⟩
        simp [callsOf, hop]

/-- No subsystem is started or stopped more often than it is registered. -/
theorem count_le (h : Lifecycle subs entries) (ds : Subsystem) :
    (entries.flatMap Prod.snd).count (.start ds) ≤ subs.count ds ∧
      (entries.flatMap Prod.snd).count (.stop ds) ≤ subs.count ds := by
  obtain ⟨again, hagain, heq⟩ := h.shape
  have hstarts : (subs.map SubCall.start).count (.start ds) = subs.count ds :=
    List.count_map_of_injective subs SubCall.start (fun a b hab => SubCall.start.inj hab) ds
  have hstops : (subs.reverse.map SubCall.stop).count (.stop ds) = subs.count ds := by
    rw [List.count_map_of_injective _ SubCall.stop (fun a b hab => SubCall.stop.inj hab),
      List.count_reverse]
  have hstart : (subs.reverse.map SubCall.stop).count (.start ds) = 0 :=
    List.count_eq_zero_of_not_mem (by simp)
  have hstop : (subs.map SubCall.start).count (.stop ds) = 0 :=
    List.count_eq_zero_of_not_mem (by simp)
  have hstartAgain : again.count (.start ds) = 0 := by
    refine List.count_eq_zero_of_not_mem ?_
    intro hmem
    obtain ⟨ds', hds'⟩ := hagain _ hmem
    cases hds'
  have hstopAgain : again.count (.stop ds) = 0 := by
    refine List.count_eq_zero_of_not_mem ?_
    intro hmem
    obtain ⟨ds', hds'⟩ := hagain _ hmem
    cases hds'
  rw [heq]
  by_cases hop : .operational ∈ entries.map Prod.fst
  · rw [if_pos hop]
    by_cases hstopped : .stopping ∈ entries.map Prod.fst
    · rw [if_pos hstopped]
      simp only [List.count_append]
      omega
    · rw [if_neg hstopped]
      simp only [List.count_append, List.count_nil]
      omega
  · rw [if_neg hop]
    simp

/-- A subsystem is stopped after it was started, and then no subsystem is started or
resubscribed. -/
theorem stop_after_start (h : Lifecycle subs entries) {ds : Subsystem} {before after : List SubCall}
    (heq : entries.flatMap Prod.snd = before ++ .stop ds :: after) :
    .start ds ∈ before ∧ ∀ ds', .start ds' ∉ after ∧ .resubscribe ds' ∉ after := by
  obtain ⟨again, hagain, hshape⟩ := h.shape
  rw [hshape] at heq
  have hfirst : .stop ds ∉ subs.map SubCall.start ++ again := by
    intro hmem
    rcases List.mem_append.mp hmem with hmem | hmem
    · simp at hmem
    · obtain ⟨ds', hds'⟩ := hagain _ hmem
      cases hds'
  split at heq
  · -- the first stop comes behind all the starts
    obtain ⟨l, hbefore, htail⟩ : ∃ l, before = (subs.map SubCall.start ++ again) ++ l ∧
        (if .stopping ∈ entries.map Prod.fst then subs.reverse.map SubCall.stop else []) =
          l ++ .stop ds :: after := by
      rcases List.append_eq_append_iff.mp heq with ⟨l, hbefore, htail⟩ | ⟨l, hpart, htail⟩
      · exact ⟨l, hbefore, htail⟩
      · cases l with
        | nil => exact ⟨[], by rw [hpart, List.append_nil, List.append_nil], htail.symm⟩
        | cons c l =>
          obtain ⟨rfl, -⟩ := List.cons_eq_cons.mp htail
          exact absurd (by rw [hpart]; simp) hfirst
    split at htail
    · have hmem : ∀ c ∈ l ++ .stop ds :: after, ∃ ds' ∈ subs, .stop ds' = c := by
        rw [← htail]
        simp
      refine ⟨?_, ?_⟩
      · obtain ⟨ds', hds', hsame⟩ := hmem (.stop ds) (by simp)
        obtain rfl := SubCall.stop.inj hsame
        rw [hbefore]
        simp [hds']
      · intro ds'
        constructor
        · intro hds'
          obtain ⟨_, -, hne⟩ := hmem _ (List.mem_append_right l (List.mem_cons_of_mem _ hds'))
          cases hne
        · intro hds'
          obtain ⟨_, -, hne⟩ := hmem _ (List.mem_append_right l (List.mem_cons_of_mem _ hds'))
          cases hne
    · simp at htail
  · simp at heq

end Lifecycle

namespace MqttClient

def stateOf (entries : List (ClientState × List SubCall)) : ClientState :=
  (entries.map Prod.fst).getLast?.getD .off

structure Tended (subs : List Subsystem) (m : MqttClient) : Prop where
  leaf : isLeaf m.state
  state : m.state = stateOf m.entries
  subsystems : m.subsystems = subs
  started : m.subAosStarted = true ↔
    .operational ∈ m.entries.map Prod.fst ∧ .stopping ∉ m.entries.map Prod.fst
  life : Lifecycle subs m.entries
  calls : m.calls.filter SubCall.isLifecycle = m.entries.flatMap Prod.snd

section Runs

variable {subs : List Subsystem} {w : World} {m m' : MqttClient} {l : Label}

theorem tended_initial (connectTimeoutMs : ℤ) (subs : List Subsystem) :
    Tended subs (initial connectTimeoutMs subs) := by
  refine ⟨rfl, rfl, rfl, ?_, Lifecycle.nil, rfl⟩
  simp [initial]

theorem Tended.stopping_notMem (h : Tended subs m) (hst : m.state ≠ .stopping) :
    .stopping ∉ m.entries.map Prod.fst := by
  intro hmem
  obtain ⟨⟨st, cs⟩, hcs, rfl⟩ := List.mem_map.mp hmem
  obtain ⟨before, after, heq⟩ := List.append_of_mem hcs
  obtain rfl := h.life.last before cs after heq
  refine hst ?_
  rw [h.state, stateOf, heq]
  simp

theorem Tended.entryCalls (h : Tended subs m) (hst : m.state ≠ .stopping) (target : ClientState) :
    m.entryCalls target = callsOf subs m.entries target := by
  have hstarted : m.subAosStarted = true ↔ .operational ∈ m.entries.map Prod.fst := by
    rw [h.started]
    exact and_iff_left (h.stopping_notMem hst)
  cases target <;> simp only [MqttClient.entryCalls, callsOf, hstarted, h.subsystems]

theorem filter_entryCalls (target : ClientState) (m : MqttClient) :
    (m.entryCalls target).filter SubCall.isLifecycle = m.entryCalls target := by
  rw [List.filter_eq_self]
  intro c hc
  cases target with
  | operational =>
    simp only [MqttClient.entryCalls] at hc
    split at hc
    · obtain ⟨ds, -, rfl⟩ := List.mem_map.mp hc
      rfl
    · obtain ⟨ds, -, rfl⟩ := List.mem_map.mp hc
      rfl
  | stopping =>
    simp only [MqttClient.entryCalls] at hc
    split at hc
    · obtain ⟨ds, -, rfl⟩ := List.mem_map.mp hc
      rfl
    · cases hc
  | _ => cases hc

theorem Tended.enters {e : ClientEvent} {st' : ClientState} (h : Tended subs m)
    (ht : target m.state e = some st') (henters : Enters w st' m m') : Tended subs m' := by
  obtain ⟨hleaf, -, hst, -⟩ := target_spec ht
  have hstop := h.stopping_notMem hst
  have hentries := henters.entries
  rw [h.entryCalls hst] at hentries
  refine ⟨?_, ?_, henters.subsystems.trans h.subsystems, ?_, ?_, ?_⟩
  · rw [henters.state]
    exact hleaf
  · rw [henters.state, hentries, stateOf]
    simp
  · rw [henters.started, hentries]
    by_cases hop : st' = .operational
    · simp [hop, hstop]
    · by_cases hstop' : st' = .stopping
      · simp [hstop']
      · simp [hop, hstop', Ne.symm hop, Ne.symm hstop', h.started]
  · rw [hentries]
    exact h.life.snoc hstop st'
  · rw [henters.calls, List.filter_append, h.calls, filter_entryCalls, h.entryCalls hst, hentries,
      List.flatMap_append, List.flatMap_singleton]

theorem Tended.stays (h : Tended subs m) (hstate : m'.state = m.state)
    (hentries : m'.entries = m.entries) (hsubs : m'.subsystems = m.subsystems)
    (hstarted : m'.subAosStarted = m.subAosStarted)
    (hcalls : m'.calls.filter SubCall.isLifecycle = m.calls.filter SubCall.isLifecycle) :
    Tended subs m' := by
  refine ⟨?_, ?_, hsubs.trans h.subsystems, ?_, ?_, ?_⟩
  · rw [hstate]
    exact h.leaf
  · rw [hstate, hentries]
    exact h.state
  · rw [hstarted, hentries]
    exact h.started
  · rw [hentries]
    exact h.life
  · rw [hcalls, hentries]
    exact h.calls

theorem Tended.step (h : Tended subs m) (hstep : m.step l = some m') : Tended subs m' := by
  obtain ⟨hposts, -⟩ | ⟨w, e, rest, -, hfifo, rfl⟩ := step_cases hstep
  · exact h.stays hposts.state hposts.entries hposts.subsystems hposts.started
      (congrArg (List.filter SubCall.isLifecycle) hposts.calls)
  · have htaken : Tended subs { m with fifo := rest } := h.stays rfl rfl rfl rfl rfl
    cases ht : target m.state e with
    | none =>
      have hrests := rests_dispatch (w := w) htaken.leaf ht
      exact htaken.stays hrests.state hrests.entries hrests.subsystems hrests.started hrests.calls
    | some st' => exact htaken.enters ht (enters_dispatch htaken.leaf ht)

/-- The life of the subsystems in every run: which state is entered, what each entry calls, that
nothing is entered after Stopping, that no other call of start, resubscribe or stop is made, that
none is started or stopped twice, and that a stop has its start before it and neither a start nor a
resubscribe behind it. -/
theorem lifecycle_run (connectTimeoutMs : ℤ) (subs : List Subsystem) (ls : List Label)
    (m : MqttClient)
    (hrun : Trace.run MqttClient.step (initial connectTimeoutMs subs) ls = some m) :
    m.state = stateOf m.entries ∧ Lifecycle subs m.entries ∧
      m.calls.filter SubCall.isLifecycle = m.entries.flatMap Prod.snd ∧
      (∀ ds, m.calls.count (.start ds) ≤ subs.count ds ∧
        m.calls.count (.stop ds) ≤ subs.count ds) ∧
      ∀ ds before after, m.calls = before ++ .stop ds :: after →
        .start ds ∈ before ∧ ∀ ds', .start ds' ∉ after ∧ .resubscribe ds' ∉ after := by
  have h : Tended subs m := Trace.run_invariant (fun m l m' hm hstep => hm.step hstep) hrun
    (tended_initial connectTimeoutMs subs)
  refine ⟨h.state, h.life, h.calls, ?_, ?_⟩
  · intro ds
    have hcount := h.life.count_le ds
    rw [← h.calls, List.count_filter rfl, List.count_filter rfl] at hcount
    exact hcount
  · intro ds before after heq
    have hcalls := h.calls
    rw [heq, List.filter_append, List.filter_cons_of_pos rfl] at hcalls
    obtain ⟨hstart, hafter⟩ := h.life.stop_after_start hcalls.symm
    refine ⟨(List.mem_filter.mp hstart).1, ?_⟩
    intro ds'
    obtain ⟨hnostart, hnoresub⟩ := hafter ds'
    exact ⟨fun hmem => hnostart (List.mem_filter.mpr ⟨hmem, rfl⟩),
      fun hmem => hnoresub (List.mem_filter.mpr ⟨hmem, rfl⟩)⟩

def twoSubsystems : List Subsystem := [⟨"data", true⟩, ⟨"legacy", false⟩]

def raisingWorld : World where
  connectRaises := false
  disconnectRaises := false
  raises _ := true
  ownsTopic _ _ := none

/-- The link comes up, goes down and comes up again; then the client is stopped. -/
def raisingRun : List Label :=
  [.start, .handle raisingWorld, .onConnect 0, .handle raisingWorld, .onDisconnect 7,
    .handle raisingWorld, .elapse 1, .handle raisingWorld, .onConnect 0, .handle raisingWorld,
    .requestStop, .handle raisingWorld]

theorem lifecycle_raisingRun :
    ∃ m, Trace.run MqttClient.step (initial 5000 twoSubsystems) raisingRun = some m ∧
      m.calls = [.start ⟨"data", true⟩, .start ⟨"legacy", false⟩, .resubscribe ⟨"data", true⟩,
        .stop ⟨"legacy", false⟩, .stop ⟨"data", true⟩] ∧
      Lifecycle twoSubsystems m.entries := by
  have hrun : (Trace.run MqttClient.step (initial 5000 twoSubsystems) raisingRun).any (fun m =>
      m.calls = [.start ⟨"data", true⟩, .start ⟨"legacy", false⟩, .resubscribe ⟨"data", true⟩,
        .stop ⟨"legacy", false⟩, .stop ⟨"data", true⟩]) = true := by
    decide +kernel
  simp only [Option.any_eq_true, decide_eq_true_eq] at hrun
  obtain ⟨m, hm, hcalls⟩ := hrun
  exact ⟨m, hm, hcalls, (lifecycle_run 5000 twoSubsystems raisingRun m hm).2.1⟩

end Runs

end MqttClient

end TelafSim.Mqtt
