import TelafSim.BridgeLink

/-!
# Indications between the subscribe calls and Operational

An indication that arrives on a subscribed topic is owed to the callback of the topic when the link
and the subscription last until it is taken. The retained messages arrive as soon as the subscribe
calls are made, before Subscribing has posted AllSubAcked, and Subscribing ignores what it takes
before that. Nothing else is lost: an indication is passed on exactly once if it is taken anywhere
but in Subscribing.
-/

namespace TelafSim.ModemBridge

variable {δ : Type}

open Bridge
open BridgeAO (calm)

/-- The callback an effect passes an indication to. -/
def Effect.delivery : Effect δ → Option ℕ
  | .deliver cb _ _ => some cb
  | _ => none

namespace Bridge

/-- The callbacks still to be called with an indication. -/
def deliveries (b : Bridge δ) : List ℕ := b.effects.filterMap Effect.delivery

variable (valid : String → δ → Bool)

/-- The callback a message goes to: the message has a body without `dest` that passes the schema of
its topic. -/
def indicated (m : Message δ) (b : Bridge δ) : Option ℕ :=
  m.body.bind fun env =>
    if env.dest.isSome then none
    else (b.subscriptions.find? (fun s => s.topic = m.topic)).bind fun s =>
      if payloadOk valid s.schemaId env then some s.cb else none

theorem deliveries_receive (m : Message δ) (b : Bridge δ) :
    (b.receive valid m).deliveries = b.deliveries ++ (b.indicated valid m).toList := by
  have hcomplete : ∀ corrId reply, (b.complete corrId reply).deliveries = b.deliveries := by
    intro corrId reply
    unfold complete
    split
    · rfl
    · simp [deliveries, Effect.delivery]
  unfold receive indicated
  cases m.body with
  | none => simp
  | some env =>
    cases hdest : env.dest with
    | some dest =>
      simp only [Option.bind_some, hdest, Option.isSome_some, if_true, Option.toList_none,
        List.append_nil]
      split
      · rfl
      · exact hcomplete _ _
    | none =>
      simp only [Option.bind_some, hdest, Option.isSome_none, Bool.false_eq_true, if_false]
      cases b.subscriptions.find? (fun s => s.topic = m.topic) with
      | none => simp
      | some s =>
        simp only [Option.bind_some]
        split
        · simp [deliveries, emit, Effect.delivery]
        · simp

end Bridge

theorem react_deliveries (valid : String → δ → Bool) (st : BridgeState) (e : BridgeEvent δ)
    (b : Bridge δ) : (react valid st e b).2.deliveries = b.deliveries ++
      match st, e with
      | .operational, .evtRecv m => (b.indicated valid m).toList
      | _, _ => [] := by
  by_cases hrecv : st = .operational ∧ ∃ m, e = .evtRecv m
  · obtain ⟨rfl, m, rfl⟩ := hrecv
    exact deliveries_receive valid m b
  · obtain ⟨es, heq, hes⟩ := react_leaves valid st e b
    have hnone : es.filterMap Effect.delivery = [] := by
      rw [List.filterMap_eq_nil_iff]
      intro f hf
      have hemits := hes f hf
      cases f with
      | deliver cb topic env =>
        obtain ⟨hop, ⟨m, he, -⟩, -⟩ := hemits
        exact absurd ⟨hop, m, he⟩ hrecv
      | _ => rfl
    rw [deliveries, heq, List.filterMap_append, hnone]
    congr 1
    split
    · exact absurd ⟨rfl, _, rfl⟩ hrecv
    · rfl

/-- A message on its way to the worker. -/
structure Arrival where
  no : ℕ
  topic : String
  /-- It came after the subscribe call for its topic, and since then the link and the subscription
  have lasted. -/
  steady : Bool

/-- A run of the bridge with every message numbered. -/
structure IndicationLog (δ : Type) where
  net : BridgeNet δ
  /-- The queue, with the messages in it. -/
  mail : List (BridgeEvent δ × Option Arrival)
  next : ℕ
  /-- The message taken last. -/
  current : ℕ
  /-- The indications that were taken while link and subscription had lasted, and the callback that
  was registered for the topic. -/
  owed : List (ℕ × ℕ)
  delivered : List (ℕ × ℕ)

namespace IndicationLog

def arrival (n : BridgeNet δ) (next : ℕ) : BridgeNet.Label δ → Option Arrival
  | .onMessage m => some ⟨next, m.topic, m.topic ∈ n.filters⟩
  | _ => none

def lasting (n : BridgeNet δ) (a : Arrival) : Arrival :=
  { a with steady := a.steady && n.link && n.bridge.subscriptions.any (fun s => s.topic = a.topic) }

def refresh (n : BridgeNet δ) (mail : List (BridgeEvent δ × Option Arrival)) :
    List (BridgeEvent δ × Option Arrival) :=
  mail.map (fun x => (x.1, x.2.map (lasting n)))

def carry (n n' : BridgeNet δ) (next : ℕ) (mail : List (BridgeEvent δ × Option Arrival)) :
    BridgeNet.Label δ → List (BridgeEvent δ × Option Arrival)
  | .take _ => mail.tail
  | l => mail ++ (n'.ao.queue.drop n.ao.queue.length).map (·, arrival n next l)

variable (valid : String → δ → Bool)

def taken (h : IndicationLog δ) : BridgeNet.Label δ → Option ℕ
  | .take _ => h.mail.head?.bind (fun x => x.2.map Arrival.no)
  | _ => none

/-- The callback the message at the head of the queue is owed to. -/
def owes (b : Bridge δ) : BridgeEvent δ × Option Arrival → Option (ℕ × ℕ)
  | (.evtRecv m, some a) => if a.steady then (b.indicated valid m).map (a.no, ·) else none
  | _ => none

def owedIn (h : IndicationLog δ) : BridgeNet.Label δ → Option (ℕ × ℕ)
  | .take _ => h.mail.head?.bind (owes valid h.net.bridge)
  | _ => none

def deliveredIn (h : IndicationLog δ) : BridgeNet.Label δ → Option (ℕ × ℕ)
  | .effect => (h.net.ao.todo.head?.bind Effect.delivery).map (h.current, ·)
  | _ => none

def step (h : IndicationLog δ) (l : BridgeNet.Label δ) : Option (IndicationLog δ) :=
  (h.net.step valid l).map (fun n => {
    net := n
    mail := refresh n (carry h.net n h.next h.mail l)
    next := h.next + (arrival h.net h.next l).toList.length
    current := (h.taken l).getD h.current
    owed := h.owed ++ (h.owedIn valid l).toList
    delivered := h.delivered ++ (h.deliveredIn l).toList })

def started (paId : String) : IndicationLog δ :=
  ⟨.started paId, [(.start, none)], 0, 0, [], []⟩

/-- The deliveries: those made, and those the handler that is running has yet to make. -/
def made (h : IndicationLog δ) : List (ℕ × ℕ) :=
  h.delivered ++ h.net.bridge.deliveries.map (h.current, ·)

/-- Every indication owed was passed on once, to the callback it is owed to. -/
def Complete (h : IndicationLog δ) : Prop :=
  ∀ x ∈ h.owed, h.made.filter (fun d => d.1 = x.1) = [x]

/-- The worker does not take an indication that is owed in Subscribing. -/
def heedful (h : IndicationLog δ) (l : BridgeNet.Label δ) : Bool :=
  (h.owedIn valid l).isNone || h.net.state ≠ some .subscribing

def numbers (mail : List (BridgeEvent δ × Option Arrival)) : List ℕ :=
  mail.filterMap (fun x => x.2.map Arrival.no)

/-- The queue with its messages: the link is up for every message that is steady, and no news of the
link stands behind it. -/
structure Sorted (n : BridgeNet δ) (mail : List (BridgeEvent δ × Option Arrival)) : Prop where
  queue : mail.map Prod.fst = n.ao.queue
  letters : ∀ x ∈ mail, ∀ m, x.1 = .evtRecv m → x.2.isSome
  quiet : mail.Pairwise (fun x y => x.2.any Arrival.steady → linkOf y.1 = none)
  up : ∀ x ∈ mail, x.2.any Arrival.steady → n.link

/-- No number is used twice. -/
structure Kept (h : IndicationLog δ) : Prop where
  sound : h.net.Sound
  linked : h.net.Linked
  sorted : Sorted h.net h.mail
  nodup : (numbers h.mail).Nodup
  below : ∀ k ∈ numbers h.mail, k < h.next
  spent : ∀ x, x ∈ h.made ∨ x ∈ h.owed → x.1 < h.next ∧ x.1 ∉ numbers h.mail

section Mail

variable {n n' : BridgeNet δ} {mail : List (BridgeEvent δ × Option Arrival)}
  {x : BridgeEvent δ × Option Arrival}

theorem steady_of_lasting (h : (x.2.map (lasting n)).any Arrival.steady) :
    x.2.any Arrival.steady ∧ n.link := by
  cases hx : x.2 with
  | none =>
    rw [hx] at h
    cases h
  | some a =>
    rw [hx] at h
    simp only [Option.map_some, Option.any_some, lasting, Bool.and_eq_true] at h
    exact ⟨h.1.1, h.1.2⟩

theorem numbers_refresh (n : BridgeNet δ) (mail : List (BridgeEvent δ × Option Arrival)) :
    numbers (refresh n mail) = numbers mail := by
  rw [numbers, refresh, List.filterMap_map]
  refine List.filterMap_congr ?_
  intro x _
  cases hx : x.2 <;> simp [hx, lasting]

theorem sorted_refresh (hqueue : mail.map Prod.fst = n.ao.queue)
    (hletters : ∀ x ∈ mail, ∀ m, x.1 = .evtRecv m → x.2.isSome)
    (hquiet : n.link → mail.Pairwise (fun x y => x.2.any Arrival.steady → linkOf y.1 = none)) :
    Sorted n (refresh n mail) := by
  refine ⟨?_, ?_, ?_, ?_⟩
  · rw [refresh, List.map_map]
    exact hqueue
  · intro x hx m hm
    obtain ⟨y, hy, rfl⟩ := List.mem_map.mp hx
    rw [Option.isSome_map]
    exact hletters y hy m hm
  · rw [refresh, List.pairwise_map]
    by_cases hlink : n.link
    · refine (hquiet hlink).imp ?_
      intro x y hxy hsteady
      exact hxy (steady_of_lasting hsteady).1
    · refine List.pairwise_of_forall ?_
      intro x y hsteady
      exact absurd (steady_of_lasting hsteady).2 hlink
  · intro x hx hsteady
    obtain ⟨y, hy, rfl⟩ := List.mem_map.mp hx
    exact (steady_of_lasting hsteady).2

end Mail

section Steps

variable {valid} {h h' : IndicationLog δ} {l : BridgeNet.Label δ}

theorem carry_of_ne (hk : h.Kept) (hne : ∀ w, l ≠ .take w) {n : BridgeNet δ}
    (hn : h.net.step valid l = some n) : ∃ added : List (BridgeEvent δ),
      carry h.net n h.next h.mail l = h.mail ++ added.map (·, arrival h.net h.next l) ∧
      n.ao.queue = h.net.ao.queue ++ added ∧ added.length ≤ 1 ∧
      ∀ e ∈ added, (linkOf e ≠ none → h.net.link = false ∨ n.link = false) ∧
        ∀ m, e = .evtRecv m → l = .onMessage m := by
  obtain ⟨added, hq, hlen, hadded⟩ := BridgeNet.queue_step hk.linked hk.sound hne hn
  refine ⟨added, ?_, hq, hlen, hadded⟩
  have hdrop : n.ao.queue.drop h.net.ao.queue.length = added := by
    rw [hq, List.drop_left]
  rw [← hdrop]
  cases l with
  | take w => exact absurd rfl (hne w)
  | _ => rfl

theorem sorted_of_ne (hk : h.Kept) (hne : ∀ w, l ≠ .take w) {n : BridgeNet δ}
    (hn : h.net.step valid l = some n) :
    Sorted n (refresh n (carry h.net n h.next h.mail l)) := by
  obtain ⟨added, hcarry, hq, hlen, hadded⟩ := carry_of_ne hk hne hn
  rw [hcarry]
  refine sorted_refresh ?_ ?_ ?_
  · rw [List.map_append, hk.sorted.queue, List.map_map, hq]
    exact congrArg _ (List.map_id' added)
  · intro x hx m hm
    rcases List.mem_append.mp hx with hx | hx
    · exact hk.sorted.letters x hx m hm
    · obtain ⟨e, he, rfl⟩ := List.mem_map.mp hx
      rw [(hadded e he).2 m hm]
      rfl
  · intro hlink
    rw [List.pairwise_append]
    refine ⟨hk.sorted.quiet, ?_, ?_⟩
    · rw [List.pairwise_map]
      rcases added with _ | ⟨e, _ | ⟨e', added⟩⟩
      · exact List.Pairwise.nil
      · exact List.pairwise_singleton _ _
      · simp at hlen
    · intro x hx y hy hsteady
      obtain ⟨e, he, rfl⟩ := List.mem_map.mp hy
      by_contra hnone
      rcases (hadded e he).1 hnone with hdown | hdown
      · rw [hk.sorted.up x hx hsteady] at hdown
        cases hdown
      · rw [hlink] at hdown
        cases hdown

theorem numbers_of_ne (hk : h.Kept) (hne : ∀ w, l ≠ .take w) {n : BridgeNet δ}
    (hn : h.net.step valid l = some n) :
    (numbers (refresh n (carry h.net n h.next h.mail l))).Sublist
      (numbers h.mail ++ ((arrival h.net h.next l).map Arrival.no).toList) := by
  obtain ⟨added, hcarry, -, hlen, -⟩ := carry_of_ne hk hne hn
  rw [hcarry, numbers_refresh, numbers, List.filterMap_append]
  refine (List.Sublist.refl _).append ?_
  rcases added with _ | ⟨e, _ | ⟨e', added⟩⟩
  · exact List.nil_sublist _
  · cases arrival h.net h.next l <;> simp
  · simp at hlen

theorem made_of_ne (hk : h.Kept) (hne : ∀ w, l ≠ .take w) (hstep : h.step valid l = some h') :
    h'.made = h.made := by
  obtain ⟨n, hn, rfl⟩ := Option.map_eq_some_iff.mp hstep
  have hcurrent : (h.taken l).getD h.current = h.current := by
    cases l with
    | take w => exact absurd rfl (hne w)
    | _ => rfl
  have hsame : n.bridge.deliveries = h.net.bridge.deliveries → h.deliveredIn l = none →
      h.delivered ++ (h.deliveredIn l).toList ++ n.bridge.deliveries.map ((h.taken l).getD h.current, ·) =
        h.made := by
    intro hdel hnone
    rw [hdel, hnone, hcurrent, Option.toList_none, List.append_nil]
    rfl
  cases BridgeNet.step_moves hk.sound hn with
  | @post _ e hl he hen hpost =>
    refine hsame (congrArg (fun h => h.ext.deliveries) (h.net.ao.post_hsm e)) ?_
    cases l <;> first | rfl | cases hl
  | take => exact absurd rfl (hne _)
  | @effect f fs htodo =>
    have hdel : ((h.net.ao.setTodo fs).perform f).hsm.ext.deliveries = fs.filterMap Effect.delivery :=
      congrArg (fun h => h.ext.deliveries) (BridgeAO.perform_hsm _ f)
    have hbefore : h.net.bridge.deliveries = (f :: fs).filterMap Effect.delivery :=
      congrArg (List.filterMap Effect.delivery) htodo
    change h.delivered ++ (h.deliveredIn .effect).toList ++
      ((h.net.ao.setTodo fs).perform f).hsm.ext.deliveries.map (h.current, ·) = _
    rw [made, hbefore, hdel, deliveredIn, htodo]
    cases hf : f.delivery <;> simp [hf]
  | control hl hhsm hent _ _ hq hkind heff =>
    refine hsame (congrArg (fun h => h.ext.deliveries) hhsm) ?_
    cases l <;> first | rfl | exact absurd rfl heff
  | start hret => exact hsame rfl rfl

theorem kept_of_ne (hk : h.Kept) (hne : ∀ w, l ≠ .take w) (hstep : h.step valid l = some h') :
    h'.Kept := by
  have hmade := made_of_ne hk hne hstep
  obtain ⟨n, hn, rfl⟩ := Option.map_eq_some_iff.mp hstep
  have hsub := numbers_of_ne hk hne hn
  have howed : h.owed ++ (h.owedIn valid l).toList = h.owed := by
    cases l with
    | take w => exact absurd rfl (hne w)
    | _ => exact List.append_nil _
  have hnew : (numbers h.mail ++ ((arrival h.net h.next l).map Arrival.no).toList).Nodup ∧
      ∀ k ∈ numbers h.mail ++ ((arrival h.net h.next l).map Arrival.no).toList,
        k ∈ numbers h.mail ∨ (k = h.next ∧ (arrival h.net h.next l).toList.length = 1) := by
    have hnext : h.next ∉ numbers h.mail := fun h' => Nat.lt_irrefl _ (hk.below _ h')
    cases l with
    | onMessage m =>
      refine ⟨List.Nodup.append hk.nodup (List.nodup_singleton _) ?_, ?_⟩
      · exact List.disjoint_singleton.mpr hnext
      · intro k hmem
        rcases List.mem_append.mp hmem with hmem | hmem
        · exact .inl hmem
        · exact .inr ⟨List.mem_singleton.mp hmem, rfl⟩
    | _ => exact ⟨(List.append_nil (numbers h.mail)).symm ▸ hk.nodup, fun k hmem =>
        .inl (List.append_nil (numbers h.mail) ▸ hmem)⟩
  refine ⟨BridgeNet.step_sound hk.sound hn, BridgeNet.step_linked hk.linked hk.sound hn,
    sorted_of_ne hk hne hn, hnew.1.sublist hsub, ?_, ?_⟩
  · intro k hmem
    rcases hnew.2 k (hsub.subset hmem) with hold | ⟨rfl, hone⟩
    · exact Nat.lt_of_lt_of_le (hk.below k hold) (Nat.le_add_right _ _)
    · change h.next < h.next + _
      rw [hone]
      exact Nat.lt_succ_self _
  · intro x hx
    rw [hmade] at hx
    obtain ⟨hlt, hnot⟩ := hk.spent x (hx.imp_right (fun hx => howed ▸ hx))
    refine ⟨Nat.lt_of_lt_of_le hlt (Nat.le_add_right _ _), ?_⟩
    intro hmem
    rcases hnew.2 x.1 (hsub.subset hmem) with hold | ⟨heq, -⟩
    · exact hnot hold
    · exact Nat.lt_irrefl _ (heq ▸ hlt)

def news (valid : String → δ → Bool) (st : BridgeState) (b : Bridge δ) :
    BridgeEvent δ × Option Arrival → List (ℕ × ℕ)
  | (.evtRecv m, some a) =>
    if st = .operational then ((b.indicated valid m).map (a.no, ·)).toList else []
  | _ => []

structure Takes (valid : String → δ → Bool) (h h' : IndicationLog δ) (st : BridgeState)
    (x : BridgeEvent δ × Option Arrival) (rest : List (BridgeEvent δ × Option Arrival)) : Prop where
  state : h.net.state = some st
  leaf : isLeaf st
  todo : h.net.ao.todo = []
  mail : h.mail = x :: rest
  mail' : h'.mail = refresh h'.net rest
  queue' : rest.map Prod.fst = h'.net.ao.queue
  next : h'.next = h.next
  made : h'.made = h.made ++ news valid st h.net.bridge x
  owed : h'.owed = h.owed ++ (owes valid h.net.bridge x).toList

theorem step_takes {w : World} (hk : h.Kept) (hstep : h.step valid (.take w) = some h') :
    ∃ st x rest, Takes valid h h' st x rest := by
  obtain ⟨n, hn, rfl⟩ := Option.map_eq_some_iff.mp hstep
  cases BridgeNet.step_moves hk.sound hn with
  | @take _ st e rest _ hst hleaf htodo hq hstate hext =>
    have hqueue := hk.sorted.queue
    rw [hq] at hqueue
    obtain ⟨x, mail, hmail, rfl, hrest⟩ := List.map_eq_cons_iff.mp hqueue
    refine ⟨st, x, mail, hst, hleaf, htodo, hmail, ?_, hrest, rfl, ?_, ?_⟩
    · exact congrArg (fun l => refresh _ l.tail) hmail
    · have hdel := react_deliveries valid st x.1 { h.net.bridge with world := w }
      rw [← hext] at hdel
      have hnone : h.net.bridge.deliveries = [] := congrArg (List.filterMap Effect.delivery) htodo
      have hnone' : ({ h.net.bridge with world := w } : Bridge δ).deliveries = [] := hnone
      rw [hnone', List.nil_append] at hdel
      change h.delivered ++ [] ++ List.map (((h.taken (.take w)).getD h.current), ·) _ = _
      rw [made, hnone, List.map_nil, List.append_nil]
      congr 1
      refine (congrArg (List.map _) hdel).trans ?_
      obtain ⟨e, a⟩ := x
      have hletter := hk.sorted.letters (e, a) (by rw [hmail]; exact List.mem_cons_self)
      cases e with
      | evtRecv m =>
        obtain ⟨a, rfl⟩ := Option.isSome_iff_exists.mp (hletter m rfl)
        have hcurrent : (h.taken (.take w)).getD h.current = a.no := by
          simp [taken, hmail]
        rw [hcurrent]
        cases st <;> first
          | rfl
          | exact Option.toList_map.symm
      | _ => cases st <;> rfl
    · change h.owed ++ (h.owedIn valid (.take w)).toList = _
      simp [owedIn, hmail]
  | control hl hhsm hent _ _ hq hkind heff => exact absurd rfl (hkind w)
  | post hl => cases hl

section Takes

variable {st : BridgeState} {x : BridgeEvent δ × Option Arrival}
  {rest : List (BridgeEvent δ × Option Arrival)}

theorem numbers_cons (x : BridgeEvent δ × Option Arrival)
    (rest : List (BridgeEvent δ × Option Arrival)) :
    numbers (x :: rest) = (x.2.map Arrival.no).toList ++ numbers rest := by
  cases hx : x.2 <;> simp [numbers, hx]

theorem no_of_owes {y : ℕ × ℕ} {b : Bridge δ} (hy : owes valid b x = some y) :
    x.2.map Arrival.no = some y.1 := by
  obtain ⟨e, a⟩ := x
  cases e <;> cases a <;> try cases hy
  dsimp only [owes] at hy
  split at hy
  · obtain ⟨cb, -, rfl⟩ := Option.map_eq_some_iff.mp hy
    rfl
  · cases hy

theorem no_of_news {y : ℕ × ℕ} {b : Bridge δ} (hy : y ∈ news valid st b x) :
    x.2.map Arrival.no = some y.1 := by
  obtain ⟨e, a⟩ := x
  cases e <;> cases a <;> try cases hy
  dsimp only [news] at hy
  split at hy
  · rw [Option.mem_toList, Option.map_eq_some_iff] at hy
    obtain ⟨cb, -, rfl⟩ := hy
    rfl
  · cases hy

theorem Takes.kept (ht : Takes valid h h' st x rest) (hk : h.Kept) (hsound : h'.net.Sound)
    (hlinked : h'.net.Linked) : h'.Kept := by
  have hmem : ∀ y ∈ rest, y ∈ h.mail := by
    intro y hy
    rw [ht.mail]
    exact List.mem_cons_of_mem _ hy
  have hquiet := hk.sorted.quiet
  rw [ht.mail] at hquiet
  have hnodup := hk.nodup
  rw [ht.mail, numbers_cons] at hnodup
  obtain ⟨-, hrest, hdisj⟩ := List.nodup_append'.mp hnodup
  have hnumbers : numbers h'.mail = numbers rest := by rw [ht.mail', numbers_refresh]
  have hsub : ∀ k ∈ numbers rest, k ∈ numbers h.mail := by
    intro k hk'
    rw [ht.mail, numbers_cons]
    exact List.mem_append_right _ hk'
  refine ⟨hsound, hlinked, ?_, ?_, ?_, ?_⟩
  · rw [ht.mail']
    exact sorted_refresh ht.queue' (fun y hy => hk.sorted.letters y (hmem y hy))
      (fun _ => (List.pairwise_cons.mp hquiet).2)
  · rw [hnumbers]
    exact hrest
  · intro k hk'
    rw [ht.next]
    rw [hnumbers] at hk'
    exact hk.below k (hsub k hk')
  · intro y hy
    rw [ht.next, hnumbers]
    have hcases : (y ∈ h.made ∨ y ∈ h.owed) ∨ x.2.map Arrival.no = some y.1 := by
      rw [ht.made, ht.owed, List.mem_append, List.mem_append, Option.mem_toList] at hy
      rcases hy with (hy | hy) | (hy | hy)
      · exact .inl (.inl hy)
      · exact .inr (no_of_news hy)
      · exact .inl (.inr hy)
      · exact .inr (no_of_owes hy)
    rcases hcases with hold | hno
    · obtain ⟨hlt, hnot⟩ := hk.spent y hold
      exact ⟨hlt, fun hk' => hnot (hsub _ hk')⟩
    · have hno : y.1 ∈ (x.2.map Arrival.no).toList := by
        rw [hno]
        exact List.mem_singleton_self _
      refine ⟨hk.below y.1 ?_, hdisj hno⟩
      rw [ht.mail, numbers_cons]
      exact List.mem_append_left _ hno

/-- An indication that is owed is taken in Subscribing or in Operational: the link is up, and no news
of it is queued. -/
theorem Takes.connected (ht : Takes valid h h' st x rest) (hk : h.Kept)
    (howes : (owes valid h.net.bridge x).isSome) : st.isConnected := by
  have hsteady : x.2.any Arrival.steady ∧ linkOf x.1 = none := by
    obtain ⟨e, a⟩ := x
    cases e <;> cases a <;> try cases howes
    dsimp only [owes] at howes
    split at howes
    · rename_i hsteady
      exact ⟨hsteady, rfl⟩
    · cases howes
  have hup : h.net.link := hk.sorted.up x (by rw [ht.mail]; exact List.mem_cons_self) hsteady.1
  have hquiet : ∀ e ∈ h.net.ao.queue, linkOf e = none := by
    have hpair := hk.sorted.quiet
    rw [ht.mail, List.pairwise_cons] at hpair
    rw [← hk.sorted.queue, ht.mail]
    intro e he
    obtain ⟨y, hy, rfl⟩ := List.mem_map.mp he
    rcases List.mem_cons.mp hy with rfl | hy
    · exact hsteady.2
    · exact hpair.1 y hy hsteady.1
  have hdisc : st ≠ .disconnected := by
    rintro rfl
    rw [(hk.linked.off ht.state).2.1] at hup
    cases hup
  have hdown : st ≠ .shuttingDown := by
    rintro rfl
    rcases hk.linked.down ht.state with hmem | ⟨-, hoff⟩
    · rw [ht.todo] at hmem
      cases hmem
    · rw [hoff] at hup
      cases hup
  rw [← level_of_quiet hquiet, ← hk.linked.level st ht.state hdisc hdown]
  exact hup

/-- Operational passes on what is owed, and only Operational passes anything on. -/
theorem news_of_owes {y : ℕ × ℕ} {b : Bridge δ} (hy : owes valid b x = some y) :
    news valid st b x = if st = .operational then [y] else [] := by
  obtain ⟨e, a⟩ := x
  cases e <;> cases a <;> try cases hy
  dsimp only [owes] at hy
  split at hy
  · dsimp only [news]
    rw [hy]
    rfl
  · cases hy

theorem filter_no {l : List (ℕ × ℕ)} {k : ℕ} (h : ∀ d ∈ l, d.1 ≠ k) :
    l.filter (fun d => d.1 = k) = [] := by
  rw [List.filter_eq_nil_iff]
  intro d hd
  simpa using h d hd

theorem Takes.complete_iff (ht : Takes valid h h' st x rest) (hk : h.Kept) (hc : h.Complete) :
    ((owes valid h.net.bridge x).isNone ∨ st ≠ .subscribing) ↔ h'.Complete := by
  have hin : ∀ {y : ℕ × ℕ}, x.2.map Arrival.no = some y.1 → y.1 ∈ numbers h.mail := by
    intro y hno
    rw [ht.mail, numbers_cons, hno]
    exact List.mem_append_left _ (List.mem_singleton_self _)
  have hold : ∀ y ∈ h.owed, h'.made.filter (fun d => d.1 = y.1) = [y] := by
    intro y hy
    have hnews : (news valid st h.net.bridge x).filter (fun d => d.1 = y.1) = [] := by
      refine filter_no ?_
      intro d hd heq
      have hmem := hin (no_of_news hd)
      exact (hk.spent y (.inr hy)).2 (heq ▸ hmem)
    rw [ht.made, List.filter_append, hc y hy, hnews, List.append_nil]
  cases howes : owes valid h.net.bridge x with
  | none =>
    refine iff_of_true (.inl rfl) ?_
    intro y hy
    rw [ht.owed, howes, Option.toList_none, List.append_nil] at hy
    exact hold y hy
  | some y =>
    have hmade : h.made.filter (fun d => d.1 = y.1) = [] := by
      refine filter_no ?_
      intro d hd heq
      exact (hk.spent d (.inl hd)).2 (heq ▸ hin (no_of_owes howes))
    have hnew : h'.made.filter (fun d => d.1 = y.1) = if st = .operational then [y] else [] := by
      rw [ht.made, List.filter_append, hmade, news_of_owes howes]
      split <;> simp
    have hconn := ht.connected hk (by rw [howes]; rfl)
    have hcases : st ≠ .subscribing ↔ st = .operational := by
      have htable : ∀ st : BridgeState, st.isConnected →
          (st ≠ .subscribing ↔ st = .operational) := by
        decide
      exact htable st hconn
    rw [hcases, Option.isNone_some, Bool.false_eq_true, false_or]
    constructor
    · intro hop z hz
      rw [ht.owed, howes, List.mem_append] at hz
      rcases hz with hz | hz
      · exact hold z hz
      · obtain rfl := List.mem_singleton.mp hz
        rw [hnew, if_pos hop]
    · intro hc'
      have hy := hc' y (by rw [ht.owed, howes]; exact List.mem_append_right _ (List.mem_singleton_self _))
      rw [hnew] at hy
      by_contra hop
      rw [if_neg hop] at hy
      cases hy

end Takes

theorem step_keeps (hk : h.Kept) (hstep : h.step valid l = some h') : h'.Kept := by
  by_cases hne : ∀ w, l ≠ .take w
  · exact kept_of_ne hk hne hstep
  · simp only [not_forall, not_not] at hne
    obtain ⟨w, rfl⟩ := hne
    obtain ⟨st, x, rest, ht⟩ := step_takes hk hstep
    obtain ⟨n, hn, rfl⟩ := Option.map_eq_some_iff.mp hstep
    exact ht.kept hk (BridgeNet.step_sound hk.sound hn)
      (BridgeNet.step_linked hk.linked hk.sound hn)

theorem step_complete (hk : h.Kept) (hc : h.Complete) (hstep : h.step valid l = some h') :
    h.heedful valid l ↔ h'.Complete := by
  by_cases hne : ∀ w, l ≠ .take w
  · have hmade := made_of_ne hk hne hstep
    have howed : h.owedIn valid l = none := by
      cases l with
      | take w => exact absurd rfl (hne w)
      | _ => rfl
    obtain ⟨n, hn, rfl⟩ := Option.map_eq_some_iff.mp hstep
    refine iff_of_true (by simp [heedful, howed]) ?_
    intro y hy
    have hy : y ∈ h.owed ++ (h.owedIn valid l).toList := hy
    rw [howed, Option.toList_none, List.append_nil] at hy
    rw [hmade]
    exact hc y hy
  · simp only [not_forall, not_not] at hne
    obtain ⟨w, rfl⟩ := hne
    obtain ⟨st, x, rest, ht⟩ := step_takes hk hstep
    rw [← ht.complete_iff hk hc]
    simp [heedful, owedIn, ht.mail, ht.state]

theorem started_kept (paId : String) : (started paId : IndicationLog δ).Kept where
  sound := BridgeNet.started_sound paId
  linked := BridgeNet.started_linked paId
  sorted := by
    refine ⟨rfl, ?_, List.pairwise_singleton _ _, ?_⟩
    · intro x hx m hm
      obtain rfl := List.mem_singleton.mp hx
      cases hm
    · intro x hx hsteady
      obtain rfl := List.mem_singleton.mp hx
      cases hsteady
  nodup := List.nodup_nil
  below _ h := by cases h
  spent _ h := by rcases h with h | h <;> cases h

end Steps

/-- Along a run every indication that is owed is passed on exactly once if and only if none is taken
in Subscribing. -/
theorem complete_iff_heedful {paId : String} {l : List (BridgeNet.Label δ)} {h : IndicationLog δ}
    (hrun : Trace.run (step valid) (started paId) l = some h) :
    Trace.Always (step valid) Complete (started paId) l ↔
      Trace.AllSteps (step valid) (fun h l => h.heedful valid l) (started paId) l := by
  refine Trace.always_iff_allSteps (J := Kept) ?_ ?_ hrun (started_kept paId) (fun _ h => by cases h)
  · intro h l h' hk hstep
    exact step_keeps hk hstep
  · intro h l h' hk hc hstep
    exact step_complete hk hc hstep

/-- A message on a topic without a schema. -/
def ready : Message Unit := ⟨"mp/ind/sim/ready", some ⟨"", none, none⟩⟩

def liveRun : List (BridgeNet.Label Unit) :=
  [.subscribeEvent "mp/ind/sim/ready" "", .take calm, .take calm, .onConnect true, .take calm,
    .effect, .effect, .effect, .effect, .onMessage ready, .take calm, .take calm, .effect]

def retainedRun : List (BridgeNet.Label Unit) :=
  [.subscribeEvent "mp/ind/sim/ready" "", .take calm, .take calm, .onConnect true, .take calm,
    .effect, .effect, .effect, .onMessage ready, .effect, .take calm, .take calm]

theorem complete_liveRun :
    ∃ h, Trace.run (step (fun _ _ => true)) (started "pa") liveRun = some h ∧
      h.owed = [(0, 0)] ∧ h.delivered = [(0, 0)] ∧
      Trace.Always (step (fun _ _ => true)) Complete (started "pa") liveRun := by
  have hrun : (Trace.run (step (fun _ _ => true)) (started "pa") liveRun).map
      (fun h => (h.owed, h.delivered)) = some ([(0, 0)], [(0, 0)]) := by
    decide +kernel
  obtain ⟨h, hh, heq⟩ := Option.map_eq_some_iff.mp hrun
  obtain ⟨howed, hdel⟩ := Prod.mk.inj heq
  exact ⟨h, hh, howed, hdel, (complete_iff_heedful _ hh).mpr (by decide +kernel)⟩

theorem retained_lost :
    ∃ h, Trace.run (step (fun _ _ => true)) (started "pa") retainedRun = some h ∧
      h.net.state = some .operational ∧ h.net.link ∧ h.net.ao.queue.length = 0 ∧
      h.net.ao.todo.length = 0 ∧ h.owed = [(0, 0)] ∧ h.delivered = [] ∧ ¬ h.Complete := by
  have hrun : (Trace.run (step (fun _ _ => true)) (started "pa") retainedRun).map
      (fun h => decide (h.net.state = some .operational ∧ h.net.link ∧ h.net.ao.queue.length = 0 ∧
        h.net.ao.todo.length = 0 ∧ h.owed = [(0, 0)] ∧ h.delivered = [])) = some true := by
    decide +kernel
  obtain ⟨h, hh, hfacts⟩ := Option.map_eq_some_iff.mp hrun
  obtain ⟨hst, hlk, hq, htodo, howed, hdel⟩ := of_decide_eq_true hfacts
  refine ⟨h, hh, hst, hlk, hq, htodo, howed, hdel, ?_⟩
  intro hc
  have hone := hc (0, 0) (by rw [howed]; exact List.mem_singleton_self _)
  have hnone : h.net.bridge.deliveries = [] :=
    congrArg (List.filterMap Effect.delivery) (List.length_eq_zero_iff.mp htodo)
  rw [made, hdel, hnone] at hone
  cases hone

end IndicationLog

end TelafSim.ModemBridge
