import TelafSim.BridgeNet

/-!
# The link the bridge knows of

Between the network thread and the worker lies the queue: the chart is Connected when the link was
up as of the last link event taken. With the link events still queued it is what the network thread
knows.
-/

namespace TelafSim.ModemBridge

variable {δ : Type}

open Bridge

/-- The change of the link an event reports. A refused connection changes nothing. -/
def linkOf : BridgeEvent δ → Option Bool
  | .linkUp true => some true
  | .linkDown => some false
  | _ => none

/-- The link as it will be known when the queue is empty. -/
def level (st : BridgeState) (queue : List (BridgeEvent δ)) : Bool :=
  (queue.filterMap linkOf).getLast?.getD st.isConnected

theorem level_push (st : BridgeState) (queue : List (BridgeEvent δ)) (e : BridgeEvent δ) :
    level st (queue ++ [e]) = (linkOf e).getD (level st queue) := by
  cases he : linkOf e <;> simp [level, he]

theorem level_pop (st : BridgeState) (e : BridgeEvent δ) (rest : List (BridgeEvent δ)) :
    level st (e :: rest) = (rest.filterMap linkOf).getLast?.getD ((linkOf e).getD st.isConnected) := by
  cases he : linkOf e with
  | none => simp [level, he]
  | some up =>
    rw [level, List.filterMap_cons_some he, List.getLast?_cons]
    cases (rest.filterMap linkOf).getLast? <;> rfl

theorem level_of_quiet {st : BridgeState} {queue : List (BridgeEvent δ)}
    (h : ∀ e ∈ queue, linkOf e = none) : level st queue = st.isConnected := by
  have hnil : queue.filterMap linkOf = [] := by
    rw [List.filterMap_eq_nil_iff]
    exact h
  rw [level, hnil]
  rfl

/-- Taking an event makes the chart know what the event reports, unless it is going down. -/
theorem react_isConnected (valid : String → δ → Bool) {st : BridgeState} {e : BridgeEvent δ}
    {b : Bridge δ} (hleaf : isLeaf st) (hst : st ≠ .disconnected)
    (hdown : (react valid st e b).1 ≠ .shuttingDown) :
    (react valid st e b).1.isConnected = (linkOf e).getD st.isConnected := by
  have htable : ∀ st sg, isLeaf st → st ≠ .disconnected → (target st sg).getD st ≠ .shuttingDown →
      ((target st sg).getD st).isConnected =
        if sg = .linkUp true then true else if sg = .linkDown then false else st.isConnected := by
    decide
  rw [react_fst] at hdown ⊢
  rw [htable st e.signal hleaf hst hdown]
  cases e <;> try rfl
  rename_i ok
  cases ok <;> rfl

namespace BridgeNet

/-- The client is off before Start was taken and once the chart went down; else the link is up when
the chart says so, or a queued event does. -/
structure Linked (n : BridgeNet δ) : Prop where
  off : n.state = some .disconnected → n.dialed = false ∧ n.link = false ∧
    ∀ e ∈ n.ao.queue, linkOf e = none
  down : n.state = some .shuttingDown →
    .mqttDisconnect ∈ n.ao.todo ∨ (n.dialed = false ∧ n.link = false)
  last : .mqttDisconnect ∈ n.ao.todo → n.state = some .shuttingDown
  refused : .postFifo .linkDown ∈ n.ao.todo →
    n.state = some .connecting ∧ n.dialed = false ∧ n.link = false
  kept : ∀ e ∈ n.bridge.deferred, linkOf e = none
  level : ∀ st, n.state = some st → st ≠ .disconnected → st ≠ .shuttingDown →
    n.link = level st n.ao.queue
  bare : n.link = false → n.filters = []

section Steps

variable {valid : String → δ → Bool} {n n' : BridgeNet δ} {l : Label δ}

/-- A step that leaves the chart where it is and starts no effect. What it does to the link is in the
queue as well. -/
theorem linked_carry (hl : n.Linked) (hstate : n'.state = n.state)
    (htodo : ∀ f ∈ n'.ao.todo, f ∈ n.ao.todo)
    (hclose : .mqttDisconnect ∈ n.ao.todo →
      .mqttDisconnect ∈ n'.ao.todo ∨ (n'.dialed = false ∧ n'.link = false))
    (hdeferred : n'.bridge.deferred = n.bridge.deferred)
    (hoff : n.dialed = false ∧ n.link = false → n'.dialed = false ∧ n'.link = false)
    (hquiet : n.state = some .disconnected → ∀ e ∈ n'.ao.queue, e ∈ n.ao.queue ∨ linkOf e = none)
    (hlevel : ∀ st, n.state = some st → st ≠ .shuttingDown → n.link = level st n.ao.queue →
      n'.link = level st n'.ao.queue)
    (hbare : n'.link = false → n'.filters = []) : n'.Linked := by
  refine ⟨?_, ?_, ?_, ?_, ?_, ?_, hbare⟩
  · intro hst
    have hst : n.state = some .disconnected := hstate.symm.trans hst
    obtain ⟨hd, hlk, hnone⟩ := hl.off hst
    obtain ⟨hd', hlk'⟩ := hoff ⟨hd, hlk⟩
    exact ⟨hd', hlk', fun e he => (hquiet hst e he).elim (hnone e) id⟩
  · intro hst
    exact (hl.down (hstate.symm.trans hst)).elim hclose (fun h => .inr (hoff h))
  · intro h
    exact hstate.trans (hl.last (htodo _ h))
  · intro h
    obtain ⟨hst, hd⟩ := hl.refused (htodo _ h)
    exact ⟨hstate.trans hst, hoff hd⟩
  · intro e he
    exact hl.kept e (hdeferred ▸ he)
  · intro st hst hdisc hdown
    have hst : n.state = some st := hstate.symm.trans hst
    exact hlevel st hst hdown (hl.level st hst hdisc hdown)

theorem network_link {e : BridgeEvent δ} (hl : n.Linked) (he : n.posts l = some e) :
    (n.network l).dialed = n.dialed ∧ (n.network l).link = (linkOf e).getD n.link ∧
      ((n.network l).link = false → (n.network l).filters = []) := by
  cases l with
  | onConnect ok =>
    obtain rfl := Option.some.inj he
    cases ok
    · exact ⟨rfl, rfl, hl.bare⟩
    · exact ⟨rfl, rfl, fun h => by cases h⟩
  | onDisconnect =>
    obtain rfl := Option.some.inj he
    exact ⟨rfl, rfl, fun _ => rfl⟩
  | _ => first
    | (obtain rfl := Option.some.inj he; exact ⟨rfl, rfl, hl.bare⟩)
    | cases he

theorem linkOf_of_off {e : BridgeEvent δ} (he : n.posts l = some e) (hen : n.enabled l)
    (hoff : n.dialed = false ∧ n.link = false) : linkOf e = none := by
  cases l with
  | onConnect ok =>
    rw [enabled, hoff.1] at hen
    cases hen
  | onDisconnect =>
    rw [enabled, hoff.2] at hen
    cases hen
  | _ => first
    | (obtain rfl := Option.some.inj he; rfl)
    | cases he

theorem linked_post {e : BridgeEvent δ} (hl : n.Linked) (hn : n.Sound)
    (he : n.posts l = some e) (hen : n.enabled l) :
    Linked { n.network l with ao := n.ao.post e } := by
  have hhsm := n.ao.post_hsm e
  have hq := n.ao.post_queue e
  have htodo : (n.ao.post e).todo = n.ao.todo := congrArg (fun h => h.ext.effects) hhsm
  obtain ⟨hdialed, hlink, hbare⟩ := network_link hl he
  refine linked_carry hl (congrArg (fun h => h.state) hhsm) (fun _ h => htodo ▸ h)
    (fun h => .inl (htodo.symm ▸ h)) (congrArg (fun h => h.ext.deferred) hhsm) ?_ ?_ ?_ hbare
  · intro h
    change (n.network l).dialed = false ∧ (n.network l).link = false
    rw [hdialed, hlink, linkOf_of_off he hen h]
    exact h
  · intro hst e' he'
    obtain ⟨hd, hlk, -⟩ := hl.off hst
    change e' ∈ (n.ao.post e).queue at he'
    rw [hq] at he'
    split at he'
    · refine (List.mem_append.mp he').imp_right ?_
      intro he'
      rw [List.mem_singleton.mp he']
      exact linkOf_of_off he hen ⟨hd, hlk⟩
    · exact .inl he'
  · intro st hst hdown hlevel
    have hrun : n.ao.running := by
      cases hrun : n.ao.running with
      | true => rfl
      | false =>
        have hdown' : n.state = some .shuttingDown := hn.stopped.running hrun
        exact absurd (Option.some.inj (hst.symm.trans hdown')) hdown
    change (n.network l).link = level st (n.ao.post e).queue
    rw [hq, if_pos hrun, level_push, hlink, hlevel]

theorem wire_link {f : Effect δ} (hf : f ≠ .mqttDisconnect) :
    (n.wire f).dialed = n.dialed ∧ (n.wire f).link = n.link ∧
      (n.link = false → (n.wire f).filters = n.filters) := by
  cases f with
  | mqttDisconnect => exact absurd rfl hf
  | mqttSubscribe topic =>
    dsimp only [wire]
    split
    · rename_i hlk
      exact ⟨rfl, rfl, fun h => by rw [hlk] at h; cases h⟩
    · exact ⟨rfl, rfl, fun _ => rfl⟩
  | mqttUnsubscribe topic =>
    dsimp only [wire]
    split
    · rename_i hlk
      exact ⟨rfl, rfl, fun h => by rw [hlk] at h; cases h⟩
    · exact ⟨rfl, rfl, fun _ => rfl⟩
  | _ => exact ⟨rfl, rfl, fun _ => rfl⟩

/-- An effect adds an event to the queue that is none of the link's, or a LinkDown that is true. -/
theorem perform_added {f : Effect δ} (fs : List (Effect δ)) (hl : n.Linked) (hn : n.Sound)
    (hhead : f ∈ n.ao.todo) :
    ((n.ao.setTodo fs).perform f).queue = n.ao.queue ∨
      ∃ e, ((n.ao.setTodo fs).perform f).queue = n.ao.queue ++ [e] ∧ (linkOf e = none ∨
        (linkOf e = some false ∧ n.state = some .connecting ∧ n.link = false)) := by
  rcases (n.ao.setTodo fs).perform_queue f with hq | ⟨e, rfl, hq⟩
  · exact .inl hq
  · refine .inr ⟨e, hq, ?_⟩
    have hdefer : deferrable e := hn.accounted.orderly.posts e hhead
    cases e with
    | linkDown =>
      obtain ⟨hst, -, hlk⟩ := hl.refused hhead
      exact .inr ⟨rfl, hst, hlk⟩
    | linkUp ok => cases hdefer
    | _ => exact .inl rfl

theorem linked_effect {f : Effect δ} {fs : List (Effect δ)} (hl : n.Linked) (hn : n.Sound)
    (htodo : n.ao.todo = f :: fs) :
    Linked { n.wire f with ao := (n.ao.setTodo fs).perform f } := by
  have hhsm := (n.ao.setTodo fs).perform_hsm f
  have hstate : ((n.ao.setTodo fs).perform f).hsm.state = n.state :=
    congrArg (fun h => h.state) hhsm
  have htodo' : ((n.ao.setTodo fs).perform f).todo = fs := congrArg (fun h => h.ext.effects) hhsm
  have hmem : ∀ g ∈ ((n.ao.setTodo fs).perform f).todo, g ∈ n.ao.todo := by
    intro g hg
    rw [htodo'] at hg
    rw [htodo]
    exact List.mem_cons_of_mem _ hg
  have hdeferred : ((n.ao.setTodo fs).perform f).hsm.ext.deferred = n.bridge.deferred :=
    congrArg (fun h => h.ext.deferred) hhsm
  have hhead : f ∈ n.ao.todo := by
    rw [htodo]
    exact List.mem_cons_self
  by_cases hdisc : f = .mqttDisconnect
  · -- the chart is going down, and the client is closed
    subst hdisc
    refine linked_carry hl hstate hmem (fun _ => .inr ⟨rfl, rfl⟩) hdeferred (fun _ => ⟨rfl, rfl⟩) ?_ ?_
      (fun _ => rfl)
    · intro hst
      cases hst.symm.trans (hl.last hhead)
    · intro st hst hne
      exact absurd (Option.some.inj (hst.symm.trans (hl.last hhead))) hne
  · obtain ⟨hdialed, hlink, hfilters⟩ := wire_link (n := n) hdisc
    have hqueue := perform_added fs hl hn hhead
    refine linked_carry hl hstate hmem ?_ hdeferred ?_ ?_ ?_ ?_
    · intro h
      left
      change .mqttDisconnect ∈ ((n.ao.setTodo fs).perform f).todo
      rw [htodo']
      rw [htodo] at h
      exact (List.mem_cons.mp h).resolve_left (Ne.symm hdisc)
    · rintro ⟨hd, hlk⟩
      exact ⟨hdialed.trans hd, hlink.trans hlk⟩
    · intro hst e' he'
      rcases hqueue with hq | ⟨e, hq, he⟩
      · exact .inl (hq ▸ he')
      · have he' : e' ∈ n.ao.queue ++ [e] := hq ▸ he'
        refine (List.mem_append.mp he').imp_right ?_
        intro he'
        rw [List.mem_singleton.mp he']
        rcases he with he | ⟨-, hconn, -⟩
        · exact he
        · cases hconn.symm.trans hst
    · intro st hst hne hlevel
      refine hlink.trans ?_
      rcases hqueue with hq | ⟨e, hq, he⟩
      · exact hlevel.trans (congrArg _ hq.symm)
      · refine Eq.trans ?_ (congrArg _ hq.symm)
        rw [level_push]
        rcases he with he | ⟨he, -, hlk⟩
        · rw [he]
          exact hlevel
        · rw [he]
          exact hlk
    · intro hlk
      have hlk : n.link = false := hlink.symm.trans hlk
      exact (hfilters hlk).trans (hl.bare hlk)

structure Taken (valid : String → δ → Bool) (n n' : BridgeNet δ) (w : World) (st : BridgeState)
    (e : BridgeEvent δ) : Prop where
  before : n.state = some st
  leaf : isLeaf st
  idle : n.ao.todo = []
  queue : n.ao.queue = e :: n'.ao.queue
  state : n'.state = some (react valid st e { n.bridge with world := w }).1
  bridge : n'.bridge = (react valid st e { n.bridge with world := w }).2
  dialed : n'.dialed = if n.dials then w.connectOk else n.dialed
  link : n'.link = n.link
  filters : n'.filters = n.filters

section Taken

variable {w : World} {st : BridgeState} {e : BridgeEvent δ}

theorem Taken.next (h : Taken valid n n' w st e) :
    n'.state = some ((target st e.signal).getD st) := by
  rw [h.state, react_fst]

theorem Taken.dials_iff (h : Taken valid n n' w st e) :
    n.dials = true ↔ st = .disconnected ∧ e = .start := by
  rw [dials, h.before, h.queue]
  cases e <;> simp

theorem Taken.dialed_of_ne (h : Taken valid n n' w st e) (hne : ¬ (st = .disconnected ∧ e = .start)) :
    n'.dialed = n.dialed := by
  have hno : n.dials ≠ true := fun hd => hne (h.dials_iff.mp hd)
  rw [h.dialed, if_neg hno]

theorem Taken.emits (h : Taken valid n n' w st e) {f : Effect δ} (hf : f ∈ n'.ao.todo) :
    emits st e { n.bridge with world := w } f := by
  obtain ⟨es, heq, hes⟩ := react_leaves valid st e { n.bridge with world := w }
  have heff : ({ n.bridge with world := w } : Bridge δ).effects = [] := h.idle
  rw [← h.bridge, heff, List.nil_append] at heq
  exact hes f (heq ▸ hf)

theorem Taken.off (h : Taken valid n n' w st e) (hl : n.Linked)
    (hst : n'.state = some .disconnected) : n'.dialed = false ∧ n'.link = false ∧
      ∀ e ∈ n'.ao.queue, linkOf e = none := by
  have htable : ∀ st sg, (target st sg).getD st = .disconnected →
      st = .disconnected ∧ sg ≠ .start := by
    decide
  rw [h.next] at hst
  obtain ⟨rfl, hstart⟩ := htable st e.signal (Option.some.inj hst)
  obtain ⟨hd, hlk, hnone⟩ := hl.off h.before
  have hne : ¬ (BridgeState.disconnected = .disconnected ∧ e = .start) :=
    fun hs => hstart (congrArg BridgeEvent.signal hs.2)
  refine ⟨(h.dialed_of_ne hne).trans hd, h.link.trans hlk, ?_⟩
  intro e' he'
  refine hnone e' ?_
  rw [h.queue]
  exact List.mem_cons_of_mem _ he'

theorem Taken.down (h : Taken valid n n' w st e) (hl : n.Linked)
    (hst : n'.state = some .shuttingDown) :
    .mqttDisconnect ∈ n'.ao.todo ∨ (n'.dialed = false ∧ n'.link = false) := by
  by_cases hdown : st = .shuttingDown
  · subst hdown
    rcases hl.down h.before with hclose | ⟨hd, hlk⟩
    · rw [h.idle] at hclose
      cases hclose
    · exact .inr ⟨(h.dialed_of_ne (fun hs => by cases hs.1)).trans hd, h.link.trans hlk⟩
  · left
    have htarget : target st e.signal = some .shuttingDown := by
      rw [h.next] at hst
      cases ht : target st e.signal with
      | none =>
        rw [ht] at hst
        exact absurd (Option.some.inj hst) hdown
      | some st' =>
        rw [ht] at hst
        exact congrArg some (Option.some.inj hst)
    change .mqttDisconnect ∈ n'.bridge.effects
    rw [h.bridge, react, htarget]
    exact List.mem_append_right _ List.mem_cons_self

theorem Taken.last (h : Taken valid n n' w st e) (hclose : .mqttDisconnect ∈ n'.ao.todo) :
    n'.state = some .shuttingDown := by
  have htarget : target st e.signal = some .shuttingDown := h.emits hclose
  rw [h.next, htarget]
  rfl

/-- The worker posts a LinkDown itself when the client refuses to dial. -/
theorem Taken.refused (h : Taken valid n n' w st e) (hl : n.Linked)
    (hpost : .postFifo .linkDown ∈ n'.ao.todo) :
    n'.state = some .connecting ∧ n'.dialed = false ∧ n'.link = false := by
  rcases h.emits hpost with ⟨htarget, hno, -⟩ | ⟨-, hdefer⟩ | ⟨-, hdefer⟩
  · have htable : ∀ st sg, target st sg = some .connecting → st = .disconnected ∧ sg = .start := by
      decide
    obtain ⟨rfl, hsg⟩ := htable st e.signal htarget
    have hstart : e = .start := by cases e <;> first | rfl | cases hsg
    refine ⟨by rw [h.next, htarget]; rfl, ?_, h.link.trans (hl.off h.before).2.1⟩
    rw [h.dialed, if_pos (h.dials_iff.mpr ⟨rfl, hstart⟩)]
    exact hno
  · cases hdefer
  · cases hl.kept _ hdefer

theorem Taken.kept (h : Taken valid n n' w st e) (hl : n.Linked) :
    ∀ e ∈ n'.bridge.deferred, linkOf e = none := by
  intro e' he'
  rw [h.bridge] at he'
  have hmem := (react_deferred valid st e { n.bridge with world := w }).1.subset he'
  rcases List.mem_append.mp hmem with hold | hnew
  · exact hl.kept e' hold
  · split at hnew
    · rename_i hdefer
      rw [List.mem_singleton.mp hnew]
      cases e <;> first | rfl | cases hdefer
    · cases hnew

/-- What the event reports of the link is in the chart from now on. -/
theorem Taken.level (h : Taken valid n n' w st e) (hl : n.Linked) {st' : BridgeState}
    (hst : n'.state = some st') (hdown : st' ≠ .shuttingDown) :
    n'.link = ModemBridge.level st' n'.ao.queue := by
  have hst' := Option.some.inj (h.next.symm.trans hst)
  rw [h.link]
  by_cases hdisc : st = .disconnected
  · subst hdisc
    obtain ⟨-, hlk, hnone⟩ := hl.off h.before
    have hrest : ∀ e ∈ n'.ao.queue, linkOf e = none := fun e' he' =>
      hnone e' (h.queue ▸ List.mem_cons_of_mem _ he')
    have htable : ∀ sg st', (target .disconnected sg).getD .disconnected = st' →
        st' ≠ .shuttingDown → st'.isConnected = false := by
      decide
    rw [hlk, level_of_quiet hrest, htable e.signal st' hst' hdown]
  · have hbefore : st ≠ .shuttingDown := by
      rintro rfl
      exact hdown hst'.symm
    have hreact := Option.some.inj (h.state.symm.trans hst)
    have hconn := react_isConnected valid h.leaf hdisc (b := { n.bridge with world := w })
      (e := e) (by rw [hreact]; exact hdown)
    rw [hreact] at hconn
    rw [hl.level st h.before hdisc hbefore, h.queue, level_pop, ← hconn]
    rfl

theorem Taken.linked (h : Taken valid n n' w st e) (hl : n.Linked) : n'.Linked where
  off := h.off hl
  down := h.down hl
  last := h.last
  refused := h.refused hl
  kept := h.kept hl
  level _ hst _ hdown := h.level hl hst hdown
  bare hlk := h.filters.trans (hl.bare (h.link.symm.trans hlk))

end Taken

theorem linked_start (hl : n.Linked) (hn : n.Sound) (hret : n.ao.stopPhase = .returned) :
    Linked { n with ao := n.ao.restart } := by
  have hdown : n.state = some .shuttingDown :=
    hn.stopped.running (hn.stopped.halted (.inr hret))
  have htodo : n.ao.todo = [] := (hn.stopped.returned hret).2
  obtain ⟨hd, hlk⟩ : n.dialed = false ∧ n.link = false := by
    rcases hl.down hdown with h | h
    · rw [htodo] at h
      cases h
    · exact h
  have htodo' : n.ao.restart.todo = [] := htodo
  refine ⟨fun _ => ⟨hd, hlk, ?_⟩, (fun h => by cases h), ?_, ?_, hl.kept, ?_, hl.bare⟩
  · intro e he
    rw [List.mem_singleton.mp he]
    rfl
  · intro h
    rw [htodo'] at h
    cases h
  · intro h
    rw [htodo'] at h
    cases h
  · intro st hst hne
    exact absurd (Option.some.inj hst).symm hne

theorem step_linked (hl : n.Linked) (hn : n.Sound) (h : n.step valid l = some n') : n'.Linked := by
  cases step_moves hn h with
  | post hl' he hen hpost => exact linked_post hl hn he hen
  | take hst hleaf htodo hq hstate hext =>
    exact Taken.linked ⟨hst, hleaf, htodo, hq, hstate, hext, rfl, rfl, rfl⟩ hl
  | effect htodo => exact linked_effect hl hn htodo
  | @control _ ao hl' hhsm hent _ _ hq hkind heff =>
    have hlevel : ∀ st, level st ao.queue = level st n.ao.queue := by
      intro st
      rcases hq with hq | hq | hq <;> rw [hq] <;> first | rfl | exact level_push st _ _
    have hqueue : ∀ e ∈ ao.queue, e ∈ n.ao.queue ∨ linkOf e = none := by
      intro e he
      rcases hq with hq | hq | hq <;> rw [hq] at he
      · exact .inl he
      · exact (List.mem_append.mp he).imp_right (fun h => by rw [List.mem_singleton.mp h]; rfl)
      · exact (List.mem_append.mp he).imp_right (fun h => by rw [List.mem_singleton.mp h]; rfl)
    have htodo : ao.todo = n.ao.todo := congrArg (fun h => h.ext.effects) hhsm
    exact linked_carry hl (congrArg (fun h => h.state) hhsm) (fun _ h => htodo ▸ h)
      (fun h => .inl (htodo.symm ▸ h)) (congrArg (fun h => h.ext.deferred) hhsm) id
      (fun _ => hqueue) (fun st _ _ h => h.trans (hlevel st).symm) hl.bare
  | start hret => exact linked_start hl hn hret

theorem started_linked (paId : String) : (started paId : BridgeNet δ).Linked where
  off _ := by
    refine ⟨rfl, rfl, ?_⟩
    intro e he
    rw [List.mem_singleton.mp he]
    rfl
  down h := by cases h
  last h := by cases h
  refused h := by cases h
  kept _ h := by cases h
  level _ hst hne := absurd (Option.some.inj hst).symm hne
  bare _ := rfl

/-- What a step other than the worker's adds to the queue: one event at most, a message only from the
network, and news of the link only when the link is down before or after. -/
theorem queue_step (hl : n.Linked) (hn : n.Sound) (hne : ∀ w, l ≠ .take w)
    (h : n.step valid l = some n') : ∃ added, n'.ao.queue = n.ao.queue ++ added ∧
      added.length ≤ 1 ∧ ∀ e ∈ added, (linkOf e ≠ none → n.link = false ∨ n'.link = false) ∧
        ∀ m, e = .evtRecv m → l = .onMessage m := by
  have hone : ∀ {e : BridgeEvent δ} {P : BridgeEvent δ → Prop}, P e → ∀ e' ∈ [e], P e' := by
    intro e P he e' he'
    rw [List.mem_singleton.mp he']
    exact he
  cases step_moves hn h with
  | @post _ e hl' he hen hpost =>
    by_cases hrun : n.ao.running
    · refine ⟨[e], by rw [n.ao.post_queue, if_pos hrun], by simp, hone ⟨?_, ?_⟩⟩
      · cases l with
        | onConnect ok =>
          rw [enabled, Bool.and_eq_true, Bool.not_eq_true'] at hen
          exact fun _ => .inl hen.2
        | onDisconnect => exact fun _ => .inr rfl
        | _ => first
          | (obtain rfl := Option.some.inj he; exact fun h => absurd rfl h)
          | cases hl'
      · rintro m rfl
        cases l <;> cases he
        rfl
    · exact ⟨[], by rw [n.ao.post_queue, if_neg hrun, List.append_nil], by simp, by simp⟩
  | take => exact absurd rfl (hne _)
  | @effect f fs htodo =>
    rcases (n.ao.setTodo fs).perform_queue f with hq | ⟨e, rfl, hq⟩
    · exact ⟨[], hq.trans (List.append_nil _).symm, by simp, by simp⟩
    · have hmem : .postFifo e ∈ n.ao.todo := by
        rw [htodo]
        exact List.mem_cons_self
      have hdefer : deferrable e := hn.accounted.orderly.posts e hmem
      refine ⟨[e], hq, by simp, hone ⟨?_, ?_⟩⟩
      · cases e with
        | linkDown => exact fun _ => .inl (hl.refused hmem).2.2
        | linkUp ok => cases hdefer
        | _ => exact fun h => absurd rfl h
      · rintro m rfl
        cases hdefer
  | control hl' hhsm hent _ _ hq hkind heff =>
    rcases hq with hq | hq | hq
    · exact ⟨[], hq.trans (List.append_nil _).symm, by simp, by simp⟩
    · exact ⟨[_], hq, by simp, hone ⟨fun h => absurd rfl h, fun _ h => by cases h⟩⟩
    · exact ⟨[_], hq, by simp, hone ⟨fun h => absurd rfl h, fun _ h => by cases h⟩⟩
  | start hret =>
    refine ⟨[.start], ?_, by simp, hone ⟨fun h => absurd rfl h, fun _ h => by cases h⟩⟩
    change [.start] = n.ao.queue ++ [.start]
    rw [(hn.stopped.returned hret).1, List.nil_append]

end Steps

end BridgeNet

end TelafSim.ModemBridge
