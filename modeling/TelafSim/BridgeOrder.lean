import TelafSim.BridgeNet

/-!
# The order of published requests

Requests that find the bridge short of Operational are deferred, and entering Operational posts them
again, behind whatever waits in the queue by then. A thread's requests therefore go out in the order
of its calls as long as, whenever Operational is entered, no thread has one request deferred and
another one queued, and no thread calls while its own are being posted again.
-/

namespace TelafSim.ModemBridge

variable {δ : Type}

open Bridge
open BridgeAO (calm)

/-- What a list without repetitions has in common with a sublist of it is the sublist. -/
theorem filter_contains_sublist {m l : List String} (hm : m.Nodup) (h : l.Sublist m) :
    m.filter l.contains = l := by
  have hsub : l.Sublist (m.filter l.contains) := by
    have hself : l.filter l.contains = l := List.filter_eq_self.mpr (by simp)
    rw [← hself]
    simpa only [hself] using h.filter l.contains
  refine (hsub.eq_of_length_le ?_).symm
  refine (hm.filter _).length_le_of_subset ?_
  intro x hx
  simpa using (List.mem_filter.mp hx).2

def Effect.recalled : Effect δ → Option String
  | .postFifo e => reqOf e
  | _ => none

namespace Bridge

def waiting (b : Bridge δ) : List String := b.deferred.filterMap reqOf

def recalls (b : Bridge δ) : List String := b.effects.filterMap Effect.recalled

end Bridge

section React

variable (valid : String → δ → Bool) {st : BridgeState} {e : BridgeEvent δ} {b : Bridge δ}

theorem target_operational (h : target st e.signal = some .operational) :
    st = .subscribing ∧ e = .allSubAcked := by
  cases e <;> cases st <;> first | exact ⟨rfl, rfl⟩ | cases h | skip
  all_goals rename_i ok; cases ok <;> cases h

theorem react_operational (h : target st e.signal = some .operational) :
    (react valid st e b).2.deferred = [] ∧
      (react valid st e b).2.recalls = b.recalls ++ b.waiting := by
  obtain ⟨rfl, rfl⟩ := target_operational h
  refine ⟨rfl, ?_⟩
  have hnone : (b.observers.map (fun t => (.connectivity t true : Effect δ))).filterMap
      Effect.recalled = [] := by
    simp [List.filterMap_map, Function.comp_def, Effect.recalled]
  have hposts : (b.deferred.map (Effect.postFifo : _ → Effect δ)).filterMap Effect.recalled =
      b.waiting := by
    rw [List.filterMap_map]
    rfl
  change ((b.effects ++ b.observers.map (fun t => (.connectivity t true : Effect δ))) ++
    b.deferred.map Effect.postFifo).filterMap Effect.recalled = _
  rw [List.filterMap_append, List.filterMap_append, hnone, hposts, List.append_nil]
  rfl

theorem react_recalls (h : target st e.signal ≠ some .operational) :
    (react valid st e b).2.recalls = b.recalls := by
  obtain ⟨es, heq, hes⟩ := react_leaves valid st e b
  have hnone : es.filterMap Effect.recalled = [] := by
    rw [List.filterMap_eq_nil_iff]
    intro f hf
    have hemits := hes f hf
    cases f with
    | postFifo e' =>
      rcases hemits with ⟨-, -, rfl⟩ | ⟨-, rfl⟩ | ⟨hop, -⟩
      · rfl
      · rfl
      · exact absurd hop h
    | _ => rfl
  rw [recalls, heq, List.filterMap_append, hnone, List.append_nil]
  rfl

theorem react_waiting (st : BridgeState) (e : BridgeEvent δ) (b : Bridge δ) :
    (react valid st e b).2.waiting.Sublist (b.waiting ++ (reqOf e).toList) := by
  have hsub := (react_deferred valid st e b).1.filterMap reqOf
  rw [List.filterMap_append] at hsub
  refine hsub.trans ((List.Sublist.refl _).append ?_)
  split
  · cases he : reqOf e <;> simp [he]
  · exact List.nil_sublist _

end React

/-- A run of the bridge with the calls of `send_request` that found it running, by thread, and the
requests published, by connection. -/
structure RequestLog (δ : Type) where
  net : BridgeNet δ
  calls : List (ℕ × String)
  published : List (ℕ × String)

def Effect.isPublish : Effect δ → Bool
  | .publish _ _ => true
  | _ => false

namespace RequestLog

def callIn (n : BridgeNet δ) : BridgeNet.Label δ → List (ℕ × String)
  | .sendRequest thread r => if n.ao.running then [(thread, r.envelope.corrId)] else []
  | _ => []

def publishedIn (n n' : BridgeNet δ) : BridgeNet.Label δ → List (ℕ × String)
  | .take _ =>
    match n.state, n.ao.queue with
    | some .operational, .sendReq r :: _ =>
      if n'.ao.todo.any Effect.isPublish then [(n.conn, r.envelope.corrId)] else []
    | _, _ => []
  | _ => []

variable (valid : String → δ → Bool)

def step (h : RequestLog δ) (l : BridgeNet.Label δ) : Option (RequestLog δ) :=
  (h.net.step valid l).map (fun n =>
    ⟨n, h.calls ++ callIn h.net l, h.published ++ publishedIn h.net n l⟩)

def started (paId : String) : RequestLog δ := ⟨.started paId, [], []⟩

def callsOf (thread : ℕ) (h : RequestLog δ) : List String :=
  (h.calls.filter (fun c => c.1 = thread)).map Prod.snd

/-- The requests published on one connection, in their order on the wire. -/
def publishedOn (conn : ℕ) (h : RequestLog δ) : List String :=
  (h.published.filter (fun p => p.1 = conn)).map Prod.snd

/-- Of two requests of one thread that were published on one connection, the one called first was
published first. -/
def InOrder (h : RequestLog δ) : Prop :=
  ∀ thread conn c₁ c₂, [c₁, c₂].Sublist (h.callsOf thread) → c₁ ∈ h.publishedOn conn →
    c₂ ∈ h.publishedOn conn → [c₁, c₂].Sublist (h.publishedOn conn)

def mine (thread : ℕ) (l : List String) (h : RequestLog δ) : List String :=
  l.filter (h.callsOf thread).contains

/-- When Operational is entered, no thread has one request deferred and another one queued; and no
thread calls while one of its requests is being posted again. -/
def inTurn (h : RequestLog δ) : BridgeNet.Label δ → Bool
  | .take _ =>
    match h.net.state, h.net.ao.queue with
    | some .subscribing, .allSubAcked :: rest => h.calls.all (fun c =>
        (h.mine c.1 h.net.bridge.waiting).isEmpty || (h.mine c.1 (rest.filterMap reqOf)).isEmpty)
    | _, _ => true
  | .sendRequest thread _ => (h.mine thread h.net.bridge.recalls).isEmpty
  | _ => true

/-- The requests published, then those deferred, those queued and those being posted again. -/
def line (h : RequestLog δ) : List String :=
  h.published.map Prod.snd ++ (h.net.bridge.waiting ++ h.net.ao.queue.filterMap reqOf ++
    h.net.bridge.recalls)

/-- Every thread's requests stand in line in the order of its calls. -/
structure Kept (h : RequestLog δ) : Prop where
  sound : h.net.Sound
  calls : h.calls.map Prod.snd = h.net.ao.entered
  known : ∀ c ∈ h.line, c ∈ h.net.ao.entered
  operational : h.net.state = some .operational → h.net.bridge.deferred = []
  order : ∀ thread, (h.mine thread h.line).Sublist (h.callsOf thread)

section Steps

variable {valid} {h h' : RequestLog δ} {l : BridgeNet.Label δ}

theorem mine_append (thread : ℕ) (l l' : List String) :
    h.mine thread (l ++ l') = h.mine thread l ++ h.mine thread l' := List.filter_append ..

theorem mine_congr (hcalls : h'.calls = h.calls) (thread : ℕ) (l : List String) :
    h'.mine thread l = h.mine thread l := by
  rw [mine, mine, callsOf, callsOf, hcalls]

theorem Kept.shrink (hk : h.Kept) (hsound : h'.net.Sound) (hcalls : h'.calls = h.calls)
    (hent : h'.net.ao.entered = h.net.ao.entered)
    (hop : h'.net.state = some .operational → h'.net.bridge.deferred = [])
    (hline : h'.line.Sublist h.line) : h'.Kept := by
  refine ⟨hsound, by rw [hcalls, hent, hk.calls], ?_, hop, ?_⟩
  · intro c hc
    rw [hent]
    exact hk.known c (hline.subset hc)
  · intro thread
    rw [mine_congr hcalls, callsOf, hcalls]
    exact (hline.filter _).trans (hk.order thread)

section Call

variable {thread : ℕ} {c : String}

theorem callsOf_call (hcalls : h'.calls = h.calls ++ [(thread, c)]) (u : ℕ) :
    h'.callsOf u = h.callsOf u ++ if u = thread then [c] else [] := by
  rw [callsOf, hcalls, List.filter_append, List.map_append]
  congr 1
  by_cases hu : u = thread
  · simp [hu]
  · simp [hu, Ne.symm hu]

theorem mine_call (hcalls : h'.calls = h.calls ++ [(thread, c)]) {l : List String} (hl : c ∉ l)
    (u : ℕ) : h'.mine u l = h.mine u l := by
  refine List.filter_congr ?_
  intro x hx
  have hne : x ≠ c := fun heq => hl (heq ▸ hx)
  rw [callsOf_call hcalls]
  split <;> simp [hne]

theorem kept_call (hk : h.Kept) (hsound : h'.net.Sound) (hnew : c ∉ h.net.ao.entered)
    (hcalls : h'.calls = h.calls ++ [(thread, c)]) (hpub : h'.published = h.published)
    (hent : h'.net.ao.entered = h.net.ao.entered ++ [c]) (hhsm : h'.net.ao.hsm = h.net.ao.hsm)
    (hq : h'.net.ao.queue.filterMap reqOf = h.net.ao.queue.filterMap reqOf ++ [c])
    (hturn : h.mine thread h.net.bridge.recalls = []) : h'.Kept := by
  have hbridge : h'.net.bridge = h.net.bridge := congrArg (fun h => h.ext) hhsm
  obtain ⟨front, hline, hline'⟩ : ∃ front, h.line = front ++ h.net.bridge.recalls ∧
      h'.line = front ++ [c] ++ h.net.bridge.recalls := by
    refine ⟨h.published.map Prod.snd ++
      (h.net.bridge.waiting ++ h.net.ao.queue.filterMap reqOf), ?_, ?_⟩
    · simp only [line, List.append_assoc]
    · simp only [line, hbridge, hpub, hq, List.append_assoc]
  have hfront : c ∉ front ∧ c ∉ h.net.bridge.recalls := by
    rw [← not_or, ← List.mem_append, ← hline]
    exact fun hmem => hnew (hk.known c hmem)
  refine ⟨hsound, by rw [hcalls, hent, List.map_append, hk.calls]; rfl, ?_, ?_, ?_⟩
  · intro x hx
    rw [hline', List.append_assoc, List.mem_append, List.mem_append] at hx
    rw [hent, List.mem_append]
    rcases hx with hx | hx | hx
    · exact .inl (hk.known x (by rw [hline]; exact List.mem_append_left _ hx))
    · exact .inr hx
    · exact .inl (hk.known x (by rw [hline]; exact List.mem_append_right _ hx))
  · intro hop
    rw [hbridge]
    exact hk.operational ((congrArg (fun h => h.state) hhsm).symm.trans hop)
  · intro u
    have horder := hk.order u
    rw [hline, mine_append] at horder
    have hc : c ∉ h.callsOf u := by
      intro hmem
      obtain ⟨x, hx, rfl⟩ := List.mem_map.mp hmem
      exact hnew (hk.calls ▸ List.mem_map_of_mem (List.mem_filter.mp hx).1)
    rw [hline', mine_append, mine_append, mine_call hcalls hfront.1, mine_call hcalls hfront.2,
      callsOf_call hcalls]
    by_cases hu : u = thread
    · subst hu
      have hself : h'.mine u [c] = [c] := by
        simp [mine, callsOf_call hcalls]
      rw [hturn, List.append_nil] at horder ⊢
      rw [hself, if_pos rfl]
      exact horder.append (List.Sublist.refl _)
    · have hother : h'.mine u [c] = [] := by
        simp [mine, callsOf_call hcalls, hu, hc]
      rw [hother, if_neg hu, List.append_nil, List.append_nil]
      exact horder

end Call

theorem Kept.same (hk : h.Kept) (hsound : h'.net.Sound) (hcalls : h'.calls = h.calls)
    (hpub : h'.published = h.published) (hent : h'.net.ao.entered = h.net.ao.entered)
    (hhsm : h'.net.ao.hsm = h.net.ao.hsm)
    (hq : h'.net.ao.queue.filterMap reqOf = h.net.ao.queue.filterMap reqOf) : h'.Kept := by
  have hbridge : h'.net.bridge = h.net.bridge := congrArg (fun h => h.ext) hhsm
  have hstate : h'.net.state = h.net.state := congrArg (fun h => h.state) hhsm
  refine hk.shrink hsound hcalls hent ?_ ?_
  · rw [hstate, hbridge]
    exact hk.operational
  · rw [line, line, hbridge, hpub, hq]

theorem kept_post {e : BridgeEvent δ} (hk : h.Kept) (hsound : h'.net.Sound) (hl : l.isPost)
    (he : h.net.posts l = some e)
    (hstep : h.net.ao.step valid (.post e) = some (h.net.ao.post e))
    (hnet : h'.net = { h.net.network l with ao := h.net.ao.post e })
    (hcalls : h'.calls = h.calls ++ callIn h.net l) (hpub : h'.published = h.published)
    (hturn : h.inTurn l) : h'.Kept := by
  have hhsm : h'.net.ao.hsm = h.net.ao.hsm := by
    rw [hnet]
    exact h.net.ao.post_hsm e
  have hq : h'.net.ao.queue = if h.net.ao.running then h.net.ao.queue ++ [e] else h.net.ao.queue := by
    rw [hnet]
    exact h.net.ao.post_queue e
  have hent : h'.net.ao.entered =
      if h.net.ao.running then h.net.ao.entered ++ (reqOf e).toList else h.net.ao.entered := by
    rw [hnet]
    exact h.net.ao.post_entered e
  by_cases hrun : h.net.ao.running
  · rw [if_pos hrun] at hq hent
    by_cases hsend : ∃ thread r, l = .sendRequest thread r
    · obtain ⟨thread, r, rfl⟩ := hsend
      obtain rfl := Option.some.inj he
      simp only [BridgeAO.step, Option.ite_none_right_eq_some] at hstep
      have hnew : r.envelope.corrId ∉ h.net.ao.entered := by simpa [reqOf] using hstep.1.2
      rw [callIn, if_pos hrun] at hcalls
      refine kept_call hk hsound hnew hcalls hpub hent hhsm ?_ (List.isEmpty_iff.mp hturn)
      rw [hq, List.filterMap_append]
      rfl
    · have hnone : reqOf e = none := by
        cases l <;> first
          | exact absurd ⟨_, _, rfl⟩ hsend
          | (obtain rfl := Option.some.inj he; rfl)
          | cases hl
      have hcall : callIn h.net l = [] := by
        cases l <;> first | rfl | exact absurd ⟨_, _, rfl⟩ hsend
      rw [hcall, List.append_nil] at hcalls
      rw [hnone, Option.toList_none, List.append_nil] at hent
      refine hk.same hsound hcalls hpub hent hhsm ?_
      rw [hq, List.filterMap_append, List.filterMap_cons_none hnone, List.filterMap_nil,
        List.append_nil]
  · rw [if_neg hrun] at hq hent
    have hcall : callIn h.net l = [] := by
      cases l <;> first | rfl | exact if_neg hrun
    rw [hcall, List.append_nil] at hcalls
    exact hk.same hsound hcalls hpub hent hhsm (by rw [hq])

theorem kept_effect {f : Effect δ} {fs : List (Effect δ)} (hk : h.Kept) (hsound : h'.net.Sound)
    (htodo : h.net.ao.todo = f :: fs)
    (hnet : h'.net = { h.net.wire f with ao := (h.net.ao.setTodo fs).perform f })
    (hcalls : h'.calls = h.calls) (hpub : h'.published = h.published) : h'.Kept := by
  have hhsm : h'.net.ao.hsm = (h.net.ao.setTodo fs).hsm := by
    rw [hnet]
    exact BridgeAO.perform_hsm _ f
  have hent : h'.net.ao.entered = h.net.ao.entered := by
    rw [hnet]
    exact BridgeAO.perform_entered _ f
  have hrecalls : h.net.bridge.recalls = f.recalled.toList ++ fs.filterMap Effect.recalled := by
    have hfold : h.net.bridge.recalls = (f :: fs).filterMap Effect.recalled :=
      congrArg (List.filterMap Effect.recalled) htodo
    rw [hfold]
    cases hf : f.recalled <;> simp [hf]
  have hrecalls' : h'.net.bridge.recalls = fs.filterMap Effect.recalled :=
    congrArg (fun h => h.ext.recalls) hhsm
  have hdeferred : h'.net.bridge.deferred = h.net.bridge.deferred :=
    congrArg (fun h => h.ext.deferred) hhsm
  have hqueue : (h'.net.ao.queue.filterMap reqOf).Sublist
      (h.net.ao.queue.filterMap reqOf ++ f.recalled.toList) := by
    rw [hnet]
    rcases (h.net.ao.setTodo fs).perform_queue f with hq | ⟨e, rfl, hq⟩
    · have hq : ((h.net.ao.setTodo fs).perform f).queue = h.net.ao.queue := hq
      rw [hq]
      exact List.sublist_append_left _ _
    · have hq : ((h.net.ao.setTodo fs).perform (.postFifo e)).queue = h.net.ao.queue ++ [e] := hq
      rw [hq, List.filterMap_append]
      cases he : reqOf e <;> simp [he, Effect.recalled]
  refine hk.shrink hsound hcalls hent ?_ ?_
  · rw [hdeferred]
    have hstate : h'.net.state = h.net.state := congrArg (fun h => h.state) hhsm
    rw [hstate]
    exact hk.operational
  · rw [line, line, hpub, waiting, waiting, hdeferred, hrecalls, hrecalls']
    simp only [List.append_assoc]
    refine (List.Sublist.refl _).append ((List.Sublist.refl _).append ?_)
    rw [← List.append_assoc]
    exact hqueue.append (List.Sublist.refl _)

section Take

variable {w : World} {st : BridgeState} {e : BridgeEvent δ} {rest : List (BridgeEvent δ)}

/-- Only the request that is taken is published, and only by Operational. -/
theorem publishedIn_take (hst : h.net.state = some st) (hq : h.net.ao.queue = e :: rest)
    (n' : BridgeNet δ) : publishedIn h.net n' (.take w) = [] ∨
      (st = .operational ∧ (publishedIn h.net n' (.take w)).map Prod.snd = (reqOf e).toList) := by
  simp only [publishedIn, hst, hq]
  split
  · rename_i r _ hop he
    obtain rfl := Option.some.inj hop
    obtain ⟨rfl, -⟩ := List.cons.inj he
    split
    · exact .inr ⟨rfl, rfl⟩
    · exact .inl rfl
  · exact .inl rfl

theorem line_take (htodo : h.net.ao.todo = []) (hq : h.net.ao.queue = e :: rest) :
    h.line = h.published.map Prod.snd ++
      (h.net.bridge.waiting ++ ((reqOf e).toList ++ rest.filterMap reqOf)) := by
  have hrecalls : h.net.bridge.recalls = [] := congrArg (List.filterMap Effect.recalled) htodo
  rw [line, hrecalls, hq, List.append_nil]
  cases he : reqOf e <;> simp [he]

theorem kept_take (hk : h.Kept) (hsound : h'.net.Sound) (hst : h.net.state = some st)
    (htodo : h.net.ao.todo = []) (hq : h.net.ao.queue = e :: rest) (hq' : h'.net.ao.queue = rest)
    (hstate : h'.net.state = some (react valid st e { h.net.bridge with world := w }).1)
    (hext : h'.net.bridge = (react valid st e { h.net.bridge with world := w }).2)
    (hent : h'.net.ao.entered = h.net.ao.entered) (hcalls : h'.calls = h.calls)
    (hpub : h'.published = h.published ++ publishedIn h.net h'.net (.take w))
    (htarget : target st e.signal ≠ some .operational) : h'.Kept := by
  have hnone : h.net.bridge.recalls = [] := congrArg (List.filterMap Effect.recalled) htodo
  have hrecalls := react_recalls valid htarget (b := { h.net.bridge with world := w })
  have hsub := react_waiting valid st e { h.net.bridge with world := w }
  have hstay := (react_deferred valid st e { h.net.bridge with world := w }).2
  rw [← hext] at hrecalls hsub hstay
  have hrecalls : h'.net.bridge.recalls = [] := hrecalls.trans hnone
  have hop : st = .operational → h.net.bridge.deferred = [] := fun hop => hk.operational (hop ▸ hst)
  refine hk.shrink hsound hcalls hent ?_ ?_
  · intro hst'
    have hsame : st = .operational := by
      have heq := Option.some.inj (hstate.symm.trans hst')
      unfold react at heq
      split at heq
      · rename_i st' h
        exact absurd (heq ▸ h) htarget
      · exact heq
    exact hstay hsame (hop hsame)
  · rw [line_take htodo hq, line, hq', hrecalls, hpub, List.map_append, List.append_nil]
    rcases publishedIn_take hst hq h'.net (w := w) with hpub | ⟨rfl, hpub⟩
    · rw [hpub, List.map_nil, List.append_nil, ← List.append_assoc h.net.bridge.waiting]
      exact (List.Sublist.refl _).append (hsub.append (List.Sublist.refl _))
    · rw [hpub, waiting, waiting, hstay rfl (hop rfl), hop rfl, List.append_assoc]
      exact List.Sublist.refl _

theorem mine_or_nil {l₁ l₂ : List String} (hall : h.calls.all (fun c =>
    (h.mine c.1 l₁).isEmpty || (h.mine c.1 l₂).isEmpty)) (thread : ℕ) :
    h.mine thread l₁ = [] ∨ h.mine thread l₂ = [] := by
  cases hcalls : h.callsOf thread with
  | nil =>
    left
    simp [mine, hcalls]
  | cons c cs =>
    have hmem : c ∈ h.callsOf thread := by
      rw [hcalls]
      exact List.mem_cons_self
    obtain ⟨x, hx, -⟩ := List.mem_map.mp hmem
    obtain ⟨hx, hthread⟩ := List.mem_filter.mp hx
    have hempty := List.all_eq_true.mp hall x hx
    simpa [of_decide_eq_true hthread] using hempty

/-- Entering Operational swaps the requests deferred with those queued. -/
theorem kept_operational (hk : h.Kept) (hsound : h'.net.Sound) (hst : h.net.state = some .subscribing)
    (htodo : h.net.ao.todo = []) (hq : h.net.ao.queue = .allSubAcked :: rest)
    (hq' : h'.net.ao.queue = rest)
    (hext : h'.net.bridge = (react valid .subscribing .allSubAcked { h.net.bridge with world := w }).2)
    (hent : h'.net.ao.entered = h.net.ao.entered) (hcalls : h'.calls = h.calls)
    (hpub : h'.published = h.published ++ publishedIn h.net h'.net (.take w))
    (hturn : h.inTurn (.take w)) : h'.Kept := by
  have htarget : target .subscribing (.allSubAcked : BridgeEvent δ).signal = some .operational := rfl
  obtain ⟨hdeferred, hrecalls⟩ := react_operational valid htarget
    (b := { h.net.bridge with world := w })
  rw [← hext] at hdeferred hrecalls
  have hnone : h.net.bridge.recalls = [] := congrArg (List.filterMap Effect.recalled) htodo
  have hrecalls : h'.net.bridge.recalls = h.net.bridge.waiting := by
    rw [hrecalls]
    change h.net.bridge.recalls ++ h.net.bridge.waiting = _
    rw [hnone, List.nil_append]
  have hpub : h'.published = h.published := by
    rw [hpub]
    simp [publishedIn, hst]
  have hline : h.line = h.published.map Prod.snd ++
      (h.net.bridge.waiting ++ rest.filterMap reqOf) := line_take htodo hq
  have hline' : h'.line = h.published.map Prod.snd ++
      (rest.filterMap reqOf ++ h.net.bridge.waiting) := by
    rw [line, waiting, hdeferred, hrecalls, hq', hpub, List.filterMap_nil, List.nil_append]
  have hall : h.calls.all (fun c => (h.mine c.1 h.net.bridge.waiting).isEmpty ||
      (h.mine c.1 (rest.filterMap reqOf)).isEmpty) := by
    simpa only [inTurn, hst, hq] using hturn
  refine ⟨hsound, by rw [hcalls, hent, hk.calls], ?_, fun _ => hdeferred, ?_⟩
  · intro c hc
    rw [hent]
    apply hk.known
    rw [hline'] at hc
    rw [hline]
    simp only [List.mem_append] at hc ⊢
    tauto
  · intro thread
    have horder := hk.order thread
    rw [hline, mine_append, mine_append] at horder
    rw [hline', mine_congr hcalls, mine_append, mine_append, callsOf, hcalls]
    rcases mine_or_nil hall thread with hnil | hnil
    · rw [hnil, List.nil_append] at horder
      rw [hnil, List.append_nil]
      exact horder
    · rw [hnil, List.append_nil] at horder
      rw [hnil, List.nil_append]
      exact horder

end Take

theorem step_kept (hk : h.Kept) (hturn : h.inTurn l) (hstep : h.step valid l = some h') :
    h'.Kept := by
  obtain ⟨n, hn, rfl⟩ := Option.map_eq_some_iff.mp hstep
  have hsound := BridgeNet.step_sound hk.sound hn
  cases BridgeNet.step_moves hk.sound hn with
  | post hl he hen hpost =>
    refine kept_post hk hsound hl he hpost rfl rfl ?_ hturn
    cases l <;> first | exact List.append_nil _ | cases hl
  | @take w st e rest _ hst hleaf htodo hq hstate hext =>
    by_cases htarget : target st e.signal = some .operational
    · obtain ⟨rfl, rfl⟩ := target_operational htarget
      exact kept_operational hk hsound hst htodo hq rfl hext rfl (List.append_nil _) rfl hturn
    · exact kept_take hk hsound hst htodo hq rfl hstate hext rfl (List.append_nil _) rfl htarget
  | effect htodo =>
    exact kept_effect hk hsound htodo rfl (List.append_nil _) (List.append_nil _)
  | control hl hhsm hent _ _ hq hkind heff =>
    have hcalls : h.calls ++ callIn h.net l = h.calls := by
      cases l <;> first | exact List.append_nil _ | cases hl
    have hpub : ∀ n', h.published ++ publishedIn h.net n' l = h.published := by
      intro n'
      cases l with
      | take w => exact absurd rfl (hkind w)
      | _ => exact List.append_nil _
    refine hk.same hsound hcalls (hpub _) hent hhsm ?_
    rcases hq with hq | hq | hq <;> simp [hq, reqOf]
  | start hret =>
    refine hk.shrink hsound (List.append_nil _) rfl (fun h => by cases h) ?_
    have hq := (hk.sound.stopped.returned hret).1
    have hempty : h.net.ao.queue.filterMap reqOf = [] := by rw [hq]; rfl
    rw [line, line, hempty]
    have hpub : h.published ++ [] = h.published := List.append_nil _
    change ((h.published ++ []).map Prod.snd ++ _).Sublist _
    rw [hpub]
    exact List.Sublist.refl _

theorem started_inLine (paId : String) : (started paId : RequestLog δ).Kept where
  sound := BridgeNet.started_sound paId
  calls := rfl
  known _ hc := by cases hc
  operational h := by cases h
  order _ := List.Sublist.refl _

theorem Kept.inOrder (hk : h.Kept) : h.InOrder := by
  intro thread conn c₁ c₂ hcalls h₁ h₂
  have hnodup : (h.callsOf thread).Nodup := by
    have hall : (h.calls.map Prod.snd).Nodup := hk.calls ▸ hk.sound.accounted.nodup
    exact hall.sublist (List.filter_sublist.map _)
  have hsub : (h.mine thread (h.publishedOn conn)).Sublist (h.callsOf thread) := by
    have hpub : (h.publishedOn conn).Sublist h.line :=
      (List.filter_sublist.map _).trans (List.sublist_append_left _ _)
    exact (hpub.filter _).trans (hk.order thread)
  have hmine : ∀ c, [c₁, c₂].contains c → c ∈ h.mine thread (h.publishedOn conn) := by
    intro c hc
    have hmem := hcalls.subset (by simpa using hc)
    refine List.mem_filter.mpr ⟨?_, by simpa using hmem⟩
    rcases (by simpa using hc : c = c₁ ∨ c = c₂) with rfl | rfl
    · exact h₁
    · exact h₂
  have hpair := hcalls.filter (h.mine thread (h.publishedOn conn)).contains
  rw [filter_contains_sublist hnodup hsub] at hpair
  have hself : [c₁, c₂].filter (h.mine thread (h.publishedOn conn)).contains = [c₁, c₂] := by
    rw [List.filter_eq_self]
    intro c hc
    simpa using hmine c (by simpa using hc)
  rw [hself] at hpair
  exact hpair.trans List.filter_sublist

end Steps

/-- In a run whose steps are all in turn, the requests of every thread are published in the order of
its calls. -/
theorem inOrder_of_inTurn {paId : String} {l : List (BridgeNet.Label δ)} {h : RequestLog δ}
    (hturn : Trace.AllSteps (step valid) (fun h l => h.inTurn l) (started paId) l)
    (hrun : Trace.run (step valid) (started paId) l = some h) : h.InOrder := by
  have hkept : h.Kept := Trace.run_invariant_of (I := Kept)
    (fun h l h' hk hok hstep => step_kept hk hok hstep) hturn hrun (started_inLine paId)
  exact hkept.inOrder

def get (c : String) : SendReq Unit := ⟨"mp/req/sim/get", "sim.get.rsp", ⟨c, none, none⟩, 1000⟩

def deferredRun : List (BridgeNet.Label Unit) :=
  [.take calm, .sendRequest 0 (get "a"), .sendRequest 0 (get "b"), .take calm, .take calm,
    .onConnect true, .take calm, .effect, .effect, .effect, .take calm, .effect, .effect, .take calm,
    .effect, .take calm, .effect]

/-- The first request is deferred by Subscribing; the second one enters the queue before
Operational is entered. -/
def overtakenRun : List (BridgeNet.Label Unit) :=
  [.take calm, .onConnect true, .take calm, .sendRequest 0 (get "a"), .effect, .effect, .effect,
    .sendRequest 0 (get "b"), .take calm, .take calm, .effect, .take calm, .effect, .take calm,
    .effect]

theorem inOrder_deferredRun :
    ∃ h, Trace.run (step (fun _ _ => true)) (started "pa") deferredRun = some h ∧
      h.publishedOn 1 = ["a", "b"] ∧ h.InOrder := by
  have hrun : (Trace.run (step (fun _ _ => true)) (started "pa") deferredRun).map
      (publishedOn 1) = some ["a", "b"] := by
    decide +kernel
  obtain ⟨h, hh, hpub⟩ := Option.map_eq_some_iff.mp hrun
  exact ⟨h, hh, hpub, inOrder_of_inTurn _ (by decide +kernel) hh⟩

/-- The request called second is published first. -/
theorem overtaken_out_of_order :
    ∃ h, Trace.run (step (fun _ _ => true)) (started "pa") overtakenRun = some h ∧
      h.callsOf 0 = ["a", "b"] ∧ h.publishedOn 1 = ["b", "a"] ∧ ¬ h.InOrder := by
  have hrun : (Trace.run (step (fun _ _ => true)) (started "pa") overtakenRun).map
      (fun h => (h.callsOf 0, h.publishedOn 1)) = some (["a", "b"], ["b", "a"]) := by
    decide +kernel
  obtain ⟨h, hh, heq⟩ := Option.map_eq_some_iff.mp hrun
  obtain ⟨hcalls, hpub⟩ := Prod.mk.inj heq
  refine ⟨h, hh, hcalls, hpub, ?_⟩
  intro horder
  have hpair := horder 0 1 "a" "b" (by rw [hcalls]) (by simp [hpub]) (by simp [hpub])
  rw [hpub] at hpair
  exact absurd hpair (by decide)

end RequestLog

end TelafSim.ModemBridge
