import TelafSim.BridgeLink

/-!
# The filters on the broker and the subscription table

Connected mirrors every change of the table on the broker, and entering Subscribing issues the whole
table on a session that is taken to be clean. A reconnect that overtakes the worker breaks this: the
calls for the old session land on the new one, the table then changes without a call, and the batch
finds a session that is not clean. So does an unsubscribe of the response wildcards themselves.
Without the two, the broker holds exactly what the table says.
-/

namespace TelafSim.ModemBridge

variable {δ : Type}

open Bridge
open BridgeAO (calm)

/-- What a call of the client does to the filters of the session. -/
def Effect.change : Effect δ → List String → List String
  | .mqttSubscribe topic, filters => topic :: filters
  | .mqttUnsubscribe topic, filters => filters.filter (· ≠ topic)
  | _, filters => filters

def changed (filters : List String) (fs : List (Effect δ)) : List String :=
  fs.foldl (fun filters f => f.change filters) filters

theorem changed_of_inert {fs : List (Effect δ)} (h : ∀ f ∈ fs, ∀ filters, f.change filters = filters)
    (filters : List String) : changed filters fs = filters := by
  induction fs with
  | nil => rfl
  | cons f fs ih =>
    rw [changed, List.foldl_cons, h f List.mem_cons_self]
    exact ih (fun g hg => h g (List.mem_cons_of_mem _ hg))

theorem mem_changed_subscribe (topics filters : List String) (fs : List (Effect δ)) (topic : String) :
    topic ∈ changed filters (topics.map Effect.mqttSubscribe ++ fs) ↔
      topic ∈ changed (topics.reverse ++ filters) fs := by
  induction topics generalizing filters with
  | nil => rfl
  | cons t topics ih =>
    rw [List.reverse_cons, List.append_assoc]
    exact ih (t :: filters)

namespace Bridge

variable (b : Bridge δ)

theorem mem_topics (topic : String) : topic ∈ b.topics ↔
    topic = kRspWildcard ∨ topic = kApRspWildcard ∨ ∃ s ∈ b.subscriptions, s.topic = topic := by
  simp [topics]

theorem mem_topics_subscribe (s : Subscription) (topic : String) :
    topic ∈ (b.subscribe s).topics ↔ topic = s.topic ∨ topic ∈ b.topics := by
  simp only [mem_topics, subscribe, List.mem_append, List.mem_filter, List.mem_singleton]
  constructor
  · rintro (h | h | ⟨s', ⟨hs', -⟩ | rfl, rfl⟩)
    · exact .inr (.inl h)
    · exact .inr (.inr (.inl h))
    · exact .inr (.inr (.inr ⟨s', hs', rfl⟩))
    · exact .inl rfl
  · rintro (rfl | h | h | ⟨s', hs', rfl⟩)
    · exact .inr (.inr ⟨s, .inr rfl, rfl⟩)
    · exact .inl h
    · exact .inr (.inl h)
    · by_cases hsame : s'.topic = s.topic
      · exact .inr (.inr ⟨s, .inr rfl, hsame.symm⟩)
      · exact .inr (.inr ⟨s', .inl ⟨hs', by simpa using hsame⟩, rfl⟩)

theorem mem_topics_unsubscribe {t : String} (hrsp : t ≠ kRspWildcard) (happ : t ≠ kApRspWildcard)
    (topic : String) : topic ∈ (b.unsubscribe t).topics ↔ topic ∈ b.topics ∧ topic ≠ t := by
  simp only [mem_topics, unsubscribe, List.mem_filter]
  constructor
  · rintro (rfl | rfl | ⟨s', ⟨hs', hne⟩, rfl⟩)
    · exact ⟨.inl rfl, hrsp.symm⟩
    · exact ⟨.inr (.inl rfl), happ.symm⟩
    · exact ⟨.inr (.inr ⟨s', hs', rfl⟩), by simpa using hne⟩
  · rintro ⟨h | h | ⟨s', hs', rfl⟩, hne⟩
    · exact .inl h
    · exact .inr (.inl h)
    · exact .inr (.inr ⟨s', ⟨hs', by simpa using hne⟩, rfl⟩)

end Bridge

namespace BridgeNet

/-- In Subscribing and Operational the filters of the session that is up are the topics of the
table and the response wildcards, as soon as the calls of the running handler are made. -/
def Agrees (n : BridgeNet δ) : Prop :=
  ∀ st, n.state = some st → st.isConnected → n.link →
    ∀ topic, topic ∈ changed n.filters n.ao.todo ↔ topic ∈ n.bridge.topics

/-- The session starts when the chart has left Connected and no link event is queued; and a response
wildcard is not unsubscribed on the broker. -/
def keepsPace (n : BridgeNet δ) : Label δ → Bool
  | .onConnect true =>
    !n.state.any BridgeState.isConnected && n.ao.queue.all (fun e => (linkOf e).isNone)
  | .take _ =>
    match n.state, n.ao.queue with
    | some st, .unsubscribeEvent topic :: _ =>
      !st.isConnected || (topic ≠ kRspWildcard && topic ≠ kApRspWildcard)
    | _, _ => true
  | _ => true

/-- Outside Connected the session is clean, and no LinkDown is queued while the link is up. -/
structure Paced (n : BridgeNet δ) : Prop where
  sound : n.Sound
  linked : n.Linked
  agrees : n.Agrees
  clean : ∀ st, n.state = some st → st ≠ .shuttingDown → st.isConnected = false →
    n.filters = [] ∧ ∀ f ∈ n.ao.todo, ∀ filters, f.change filters = filters
  gone : .linkDown ∈ n.ao.queue → n.link = false

section Steps

variable {valid : String → δ → Bool} {n n' : BridgeNet δ} {l : Label δ}

/-- The session starts anew, it ends, or nothing happens to it. -/
theorem network_session {e : BridgeEvent δ} (hok : n.keepsPace l) (he : n.posts l = some e) :
    (e = .linkUp true ∧ (n.network l).filters = [] ∧ n.keepsPace (.onConnect true)) ∨
      (e = .linkDown ∧ (n.network l).filters = [] ∧ (n.network l).link = false) ∨
      (e ≠ .linkDown ∧ (n.network l).filters = n.filters ∧ (n.network l).link = n.link) := by
  cases l with
  | onConnect ok =>
    obtain rfl := Option.some.inj he
    cases ok
    · exact .inr (.inr ⟨by simp, rfl, rfl⟩)
    · exact .inl ⟨rfl, rfl, hok⟩
  | onDisconnect =>
    obtain rfl := Option.some.inj he
    exact .inr (.inl ⟨rfl, rfl, rfl⟩)
  | _ => first
    | (obtain rfl := Option.some.inj he; exact .inr (.inr ⟨by simp, rfl, rfl⟩))
    | cases he

theorem paced_post {e : BridgeEvent δ} (hp : n.Paced) (hok : n.keepsPace l)
    (he : n.posts l = some e) (hsound : Sound { n.network l with ao := n.ao.post e })
    (hlinked : Linked { n.network l with ao := n.ao.post e }) :
    Paced { n.network l with ao := n.ao.post e } := by
  have hhsm := n.ao.post_hsm e
  have hstate : (n.ao.post e).hsm.state = n.state := congrArg (fun h => h.state) hhsm
  have htodo : (n.ao.post e).todo = n.ao.todo := congrArg (fun h => h.ext.effects) hhsm
  have htopics : (n.ao.post e).hsm.ext.topics = n.bridge.topics :=
    congrArg (fun h => h.ext.topics) hhsm
  have hqueue : ∀ e' ∈ (n.ao.post e).queue, e' ∈ n.ao.queue ∨ e' = e := by
    intro e' he'
    rw [n.ao.post_queue] at he'
    split at he'
    · exact (List.mem_append.mp he').imp_right List.mem_singleton.mp
    · exact .inl he'
  have hnet := network_session hok he
  have hclean : ∀ st, n.state = some st → st ≠ .shuttingDown → st.isConnected = false →
      (n.network l).filters = [] := by
    intro st hst hne hconn
    rcases hnet with ⟨-, h, -⟩ | ⟨-, h, -⟩ | ⟨-, h, -⟩
    · exact h
    · exact h
    · exact h.trans (hp.clean st hst hne hconn).1
  refine ⟨hsound, hlinked, ?_, ?_, ?_⟩
  · intro st hst hconn hlk topic
    have hst : n.state = some st := hstate.symm.trans hst
    change topic ∈ changed (n.network l).filters (n.ao.post e).todo ↔
      topic ∈ (n.ao.post e).hsm.ext.topics
    rw [htodo, htopics]
    rcases hnet with ⟨-, -, h⟩ | ⟨-, -, h⟩ | ⟨-, hf, h⟩
    · simp [keepsPace, hst, hconn] at h
    · rw [h] at hlk
      cases hlk
    · rw [hf]
      exact hp.agrees st hst hconn (h ▸ hlk) topic
  · intro st hst hne hconn
    have hst : n.state = some st := hstate.symm.trans hst
    refine ⟨hclean st hst hne hconn, ?_⟩
    intro f hf
    exact (hp.clean st hst hne hconn).2 f (htodo ▸ hf)
  · intro h
    change (n.network l).link = false
    rcases hnet with ⟨rfl, -, hpace⟩ | ⟨-, -, hlk⟩ | ⟨hne, -, hlk⟩
    · simp only [keepsPace, Bool.and_eq_true, List.all_eq_true] at hpace
      rcases hqueue _ h with h | h
      · cases hpace.2 _ h
      · cases h
    · exact hlk
    · rcases hqueue _ h with h | h
      · exact hlk.trans (hp.gone h)
      · exact absurd h.symm hne

theorem wire_session (n : BridgeNet δ) (f : Effect δ) :
    ((n.wire f).link = n.link ∧ (n.link → (n.wire f).filters = f.change n.filters)) ∨
      (n.wire f).link = false := by
  cases f with
  | mqttSubscribe topic =>
    dsimp only [wire]
    split
    · exact .inl ⟨rfl, fun _ => rfl⟩
    · rename_i hno
      exact .inl ⟨rfl, fun h => absurd h hno⟩
  | mqttUnsubscribe topic =>
    dsimp only [wire]
    split
    · exact .inl ⟨rfl, fun _ => rfl⟩
    · rename_i hno
      exact .inl ⟨rfl, fun h => absurd h hno⟩
  | mqttDisconnect => exact .inr rfl
  | _ => exact .inl ⟨rfl, fun _ => rfl⟩

theorem paced_effect {f : Effect δ} {fs : List (Effect δ)} (hp : n.Paced)
    (htodo : n.ao.todo = f :: fs)
    (hsound : Sound { n.wire f with ao := (n.ao.setTodo fs).perform f })
    (hlinked : Linked { n.wire f with ao := (n.ao.setTodo fs).perform f }) :
    Paced { n.wire f with ao := (n.ao.setTodo fs).perform f } := by
  have hhsm := (n.ao.setTodo fs).perform_hsm f
  have hstate : ((n.ao.setTodo fs).perform f).hsm.state = n.state := congrArg (fun h => h.state) hhsm
  have htodo' : ((n.ao.setTodo fs).perform f).todo = fs := congrArg (fun h => h.ext.effects) hhsm
  have htopics : ((n.ao.setTodo fs).perform f).hsm.ext.topics = n.bridge.topics :=
    congrArg (fun h => h.ext.topics) hhsm
  have hwire := n.wire_session f
  have hmem : ∀ g ∈ fs, g ∈ n.ao.todo := by
    intro g hg
    rw [htodo]
    exact List.mem_cons_of_mem _ hg
  have hhead : f ∈ n.ao.todo := by
    rw [htodo]
    exact List.mem_cons_self
  refine ⟨hsound, hlinked, ?_, ?_, ?_⟩
  · intro st hst hconn hlk topic
    have hst : n.state = some st := hstate.symm.trans hst
    change topic ∈ changed (n.wire f).filters ((n.ao.setTodo fs).perform f).todo ↔
      topic ∈ ((n.ao.setTodo fs).perform f).hsm.ext.topics
    rw [htodo', htopics]
    rcases hwire with ⟨hlink, hchange⟩ | hno
    · have hup : n.link := hlink ▸ hlk
      rw [hchange hup]
      have hagrees := hp.agrees st hst hconn hup topic
      rw [htodo] at hagrees
      exact hagrees
    · rw [hno] at hlk
      cases hlk
  · intro st hst hne hconn
    have hst : n.state = some st := hstate.symm.trans hst
    obtain ⟨hnil, hinert⟩ := hp.clean st hst hne hconn
    refine ⟨?_, ?_⟩
    · change (n.wire f).filters = []
      cases hlk : (n.wire f).link with
      | false => exact hlinked.bare hlk
      | true =>
        rcases hwire with ⟨hlink, hchange⟩ | hno
        · rw [hchange (hlink ▸ hlk), hinert f hhead, hnil]
        · rw [hno] at hlk
          cases hlk
    · intro g hg
      exact hinert g (hmem g (htodo' ▸ hg))
  · intro h
    change (n.wire f).link = false
    rcases hwire with ⟨hlink, -⟩ | hno
    · rw [hlink]
      rcases (n.ao.setTodo fs).perform_queue f with hq | ⟨e, rfl, hq⟩
      · exact hp.gone (hq ▸ h)
      · have h : .linkDown ∈ n.ao.queue ++ [e] := hq ▸ h
        rcases List.mem_append.mp h with h | h
        · exact hp.gone h
        · obtain rfl := List.mem_singleton.mp h
          exact (hp.linked.refused hhead).2.2
    · exact hno

section Take

variable {w : World} {st : BridgeState} {e : BridgeEvent δ} {rest : List (BridgeEvent δ)}

/-- Only entering Subscribing and the two handlers of Connected call the client. -/
theorem inert_of_emits {b : Bridge δ} {f : Effect δ} (hf : emits st e b f)
    (htarget : target st e.signal ≠ some .subscribing)
    (hevent : st.isConnected → e.signal ≠ .subscribeEvent ∧ e.signal ≠ .unsubscribeEvent)
    (filters : List String) : f.change filters = filters := by
  cases f with
  | mqttSubscribe topic =>
    rcases hf with ⟨h, -⟩ | ⟨hconn, schemaId, cb, rfl⟩
    · exact absurd h htarget
    · exact absurd rfl (hevent hconn).1
  | mqttUnsubscribe topic =>
    obtain ⟨hconn, rfl⟩ := hf
    exact absurd rfl (hevent hconn).2
  | _ => rfl

theorem agrees_subscribing (b : Bridge δ) (hnone : b.effects = [])
    (htarget : target st e.signal = some .subscribing) (topic : String) :
    topic ∈ changed [] (react valid st e b).2.effects ↔ topic ∈ (react valid st e b).2.topics := by
  have htable : ∀ st sg, target st sg = some .subscribing →
      st ≠ .operational ∧ sg = .linkUp true := by
    decide
  obtain ⟨hop, hsg⟩ := htable st e.signal htarget
  have hreact : (react valid st e b).2 = enter .subscribing (note e.signal b) := by
    rw [react, htarget]
    cases st <;> first | rfl | exact absurd rfl hop
  have heff : (enter .subscribing (note e.signal b)).effects =
      (note e.signal b).topics.map Effect.mqttSubscribe ++ [Effect.postFifo .allSubAcked] := by
    have heq : (note e.signal b).effects = [] := (note_frame e.signal b).1.trans hnone
    change ((note e.signal b).effects ++ _) ++ _ = _
    rw [heq, List.nil_append]
  rw [hreact, heff, mem_changed_subscribe, List.append_nil]
  exact List.mem_reverse

theorem inert_of_react (valid : String → δ → Bool) (b : Bridge δ) (hnone : b.effects = [])
    (htarget : target st e.signal ≠ some .subscribing)
    (hevent : st.isConnected → e.signal ≠ .subscribeEvent ∧ e.signal ≠ .unsubscribeEvent) :
    ∀ f ∈ (react valid st e b).2.effects, ∀ filters, f.change filters = filters := by
  intro f hf
  obtain ⟨es, heq, hes⟩ := react_leaves valid st e b
  rw [hnone, List.nil_append] at heq
  rw [heq] at hf
  exact inert_of_emits (hes f hf) htarget hevent

theorem agrees_subscribe {t schemaId : String} {cb : ℕ} {filters : List String}
    (valid : String → δ → Bool) (b : Bridge δ)
    (hnone : b.effects = []) (hconn : st.isConnected)
    (hagrees : ∀ topic, topic ∈ filters ↔ topic ∈ b.topics) (topic : String) :
    topic ∈ changed filters (handle valid st (.subscribeEvent t schemaId cb) b).effects ↔
      topic ∈ (handle valid st (.subscribeEvent t schemaId cb) b).topics := by
  have hdown : st ≠ .shuttingDown := by
    rintro rfl
    cases hconn
  have hhandle : handle valid st (.subscribeEvent t schemaId cb) b =
      (b.subscribe ⟨t, schemaId, cb⟩).emit [.mqttSubscribe t] := by
    rw [handle, if_neg hdown, if_pos hconn]
  have heff : ((b.subscribe ⟨t, schemaId, cb⟩).emit [.mqttSubscribe t]).effects =
      [.mqttSubscribe t] := by
    change b.effects ++ _ = _
    rw [hnone, List.nil_append]
  rw [hhandle, heff]
  refine Iff.trans ?_ (b.mem_topics_subscribe ⟨t, schemaId, cb⟩ topic).symm
  rw [← hagrees]
  exact List.mem_cons

theorem agrees_unsubscribe {t : String} {filters : List String}
    (valid : String → δ → Bool) (b : Bridge δ)
    (hnone : b.effects = []) (hconn : st.isConnected) (hrsp : t ≠ kRspWildcard)
    (happ : t ≠ kApRspWildcard) (hagrees : ∀ topic, topic ∈ filters ↔ topic ∈ b.topics)
    (topic : String) :
    topic ∈ changed filters (handle valid st (.unsubscribeEvent t) b).effects ↔
      topic ∈ (handle valid st (.unsubscribeEvent t) b).topics := by
  have hdown : st ≠ .shuttingDown := by
    rintro rfl
    cases hconn
  have hhandle : handle valid st (.unsubscribeEvent t) b =
      (b.unsubscribe t).emit [.mqttUnsubscribe t] := by
    rw [handle, if_neg hdown, if_pos hconn]
  have heff : ((b.unsubscribe t).emit [.mqttUnsubscribe t]).effects = [.mqttUnsubscribe t] := by
    change b.effects ++ _ = _
    rw [hnone, List.nil_append]
  rw [hhandle, heff]
  refine Iff.trans ?_ (b.mem_topics_unsubscribe hrsp happ topic).symm
  rw [← hagrees]
  change topic ∈ filters.filter (· ≠ t) ↔ _
  simp

theorem agrees_inert {filters : List String} (valid : String → δ → Bool) (b : Bridge δ)
    (hnone : b.effects = []) (htarget : target st e.signal ≠ some .subscribing)
    (hevent : e.signal ≠ .subscribeEvent ∧ e.signal ≠ .unsubscribeEvent)
    (hagrees : ∀ topic, topic ∈ filters ↔ topic ∈ b.topics) (topic : String) :
    topic ∈ changed filters (react valid st e b).2.effects ↔
      topic ∈ (react valid st e b).2.topics := by
  have hinert := inert_of_react valid b hnone htarget (fun _ => hevent)
  have hsubs : (react valid st e b).2.subscriptions = b.subscriptions := by
    rw [(react_tables valid st e b).2]
    cases e <;> first
      | rfl
      | exact absurd rfl hevent.1
      | exact absurd rfl hevent.2
  rw [changed_of_inert hinert, hagrees, topics, topics, hsubs]

/-- Wherever Connected is entered or kept, the table and the session agree. -/
theorem agrees_react {filters : List String} (valid : String → δ → Bool) (b : Bridge δ)
    (hnone : b.effects = []) (hleaf : isLeaf st) (hconn : ((target st e.signal).getD st).isConnected)
    (hclean : st ≠ .shuttingDown → st.isConnected = false → filters = [])
    (hpace : st.isConnected → ∀ t, e = .unsubscribeEvent t →
      t ≠ kRspWildcard ∧ t ≠ kApRspWildcard)
    (hagrees : st.isConnected → ∀ topic, topic ∈ filters ↔ topic ∈ b.topics) (topic : String) :
    topic ∈ changed filters (react valid st e b).2.effects ↔
      topic ∈ (react valid st e b).2.topics := by
  by_cases htarget : target st e.signal = some .subscribing
  · have htable : ∀ st sg, isLeaf st → target st sg = some .subscribing →
        st ≠ .shuttingDown ∧ st.isConnected = false := by
      decide
    obtain ⟨hne, hno⟩ := htable st e.signal hleaf htarget
    rw [hclean hne hno]
    exact agrees_subscribing b hnone htarget topic
  · have htable : ∀ st sg, isLeaf st → target st sg ≠ some .subscribing →
        ((target st sg).getD st).isConnected → st.isConnected := by
      decide
    have hconn' : st.isConnected := htable st e.signal hleaf htarget hconn
    cases e with
    | subscribeEvent t schemaId cb =>
      have hstay : target st (.subscribeEvent t schemaId cb : BridgeEvent δ).signal = none := by
        cases st <;> rfl
      rw [react, hstay]
      exact agrees_subscribe valid b hnone hconn' (hagrees hconn') topic
    | unsubscribeEvent t =>
      have hstay : target st (.unsubscribeEvent t : BridgeEvent δ).signal = none := by
        cases st <;> rfl
      obtain ⟨hrsp, happ⟩ := hpace hconn' t rfl
      rw [react, hstay]
      exact agrees_unsubscribe valid b hnone hconn' hrsp happ (hagrees hconn') topic
    | _ =>
      exact agrees_inert valid b hnone htarget
        ⟨by simp [BridgeEvent.signal], by simp [BridgeEvent.signal]⟩ (hagrees hconn') topic

theorem paced_take (hp : n.Paced) (hok : n.keepsPace (.take w)) (hst : n.state = some st)
    (hleaf : isLeaf st) (htodo : n.ao.todo = []) (hq : n.ao.queue = e :: rest)
    (hq' : n'.ao.queue = rest)
    (hstate : n'.state = some (react valid st e { n.bridge with world := w }).1)
    (hext : n'.bridge = (react valid st e { n.bridge with world := w }).2)
    (hlink : n'.link = n.link) (hfilters : n'.filters = n.filters) (hsound : n'.Sound)
    (hlinked : n'.Linked) : n'.Paced := by
  have hnone : ({ n.bridge with world := w } : Bridge δ).effects = [] := htodo
  have htodo' : n'.ao.todo = (react valid st e { n.bridge with world := w }).2.effects :=
    congrArg Bridge.effects hext
  have hnext := react_fst valid st e { n.bridge with world := w }
  refine ⟨hsound, hlinked, ?_, ?_, ?_⟩
  · intro st' hst' hconn hlk topic
    have hst' : (target st e.signal).getD st = st' :=
      hnext.symm.trans (Option.some.inj (hstate.symm.trans hst'))
    rw [htodo', hext, hfilters]
    refine agrees_react valid _ hnone hleaf (hst' ▸ hconn) (fun hne hno => (hp.clean st hst hne hno).1)
      ?_ ?_ topic
    · rintro hconn' t rfl
      simpa [keepsPace, hst, hq, hconn'] using hok
    · intro hconn'
      have hagrees := hp.agrees st hst hconn' (hlink ▸ hlk)
      rwa [htodo] at hagrees
  · intro st' hst' hne hconn
    have hst' : (target st e.signal).getD st = st' :=
      hnext.symm.trans (Option.some.inj (hstate.symm.trans hst'))
    have htable : ∀ st sg, isLeaf st → (target st sg).getD st ≠ .shuttingDown →
        ((target st sg).getD st).isConnected = false → target st sg ≠ some .subscribing ∧
          st ≠ .shuttingDown ∧ (st.isConnected → sg = .linkDown) := by
      decide
    obtain ⟨htarget, hne', hdown⟩ := htable st e.signal hleaf (hst' ▸ hne) (hst' ▸ hconn)
    refine ⟨hfilters.trans ?_, ?_⟩
    · cases hconn' : st.isConnected with
      | false => exact (hp.clean st hst hne' hconn').1
      | true =>
        have he : e = .linkDown := by
          have hsg := hdown hconn'
          cases e <;> first | rfl | cases hsg
        refine hp.linked.bare (hp.gone ?_)
        rw [hq, he]
        exact List.mem_cons_self
    · rw [htodo']
      exact inert_of_react valid _ hnone htarget (fun h => by rw [hdown h]; decide)
  · intro h
    rw [hlink]
    refine hp.gone ?_
    rw [hq]
    exact List.mem_cons_of_mem _ (hq' ▸ h)

end Take

theorem step_paced (hp : n.Paced) (hok : n.keepsPace l) (h : n.step valid l = some n') :
    n'.Paced := by
  have hsound := step_sound hp.sound h
  have hlinked := step_linked hp.linked hp.sound h
  cases step_moves hp.sound h with
  | post hl he hen hpost => exact paced_post hp hok he hsound hlinked
  | take hst hleaf htodo hq hstate hext =>
    exact paced_take hp hok hst hleaf htodo hq rfl hstate hext rfl rfl hsound hlinked
  | effect htodo => exact paced_effect hp htodo hsound hlinked
  | @control _ ao hl hhsm hent _ _ hq hkind heff =>
    have hstate : ao.hsm.state = n.state := congrArg (fun h => h.state) hhsm
    have htodo : ao.todo = n.ao.todo := congrArg (fun h => h.ext.effects) hhsm
    have htopics : ao.hsm.ext.topics = n.bridge.topics := congrArg (fun h => h.ext.topics) hhsm
    refine ⟨hsound, hlinked, ?_, ?_, ?_⟩
    · intro st hst hconn hlk topic
      change topic ∈ changed n.filters ao.todo ↔ topic ∈ ao.hsm.ext.topics
      rw [htodo, htopics]
      exact hp.agrees st (hstate.symm.trans hst) hconn hlk topic
    · intro st hst hne hconn
      obtain ⟨hnil, hinert⟩ := hp.clean st (hstate.symm.trans hst) hne hconn
      exact ⟨hnil, fun f hf => hinert f (htodo ▸ hf)⟩
    · intro h
      refine hp.gone ?_
      have h : .linkDown ∈ ao.queue := h
      rcases hq with hq | hq | hq <;> simpa [hq] using h
  | start hret =>
    have htodo : n.ao.restart.todo = [] := (hp.sound.stopped.returned hret).2
    have hoff := hlinked.off rfl
    refine ⟨hsound, hlinked, ?_, ?_, fun _ => hoff.2.1⟩
    · intro st hst hconn
      obtain rfl := Option.some.inj hst
      cases hconn
    · intro st _ _ _
      refine ⟨hlinked.bare hoff.2.1, ?_⟩
      intro f hf
      change f ∈ n.ao.restart.todo at hf
      rw [htodo] at hf
      cases hf

theorem started_paced (paId : String) : (started paId : BridgeNet δ).Paced where
  sound := started_sound paId
  linked := started_linked paId
  agrees st hst hconn := by
    obtain rfl := Option.some.inj hst
    cases hconn
  clean _ _ _ _ := ⟨rfl, fun _ h => by cases h⟩
  gone _ := rfl

end Steps

/-- In a run in which no session starts before the worker has caught up with the link, and no
response wildcard is unsubscribed, the broker and the table agree. -/
theorem agrees_of_keepsPace (valid : String → δ → Bool) {paId : String} {l : List (Label δ)}
    {n : BridgeNet δ}
    (hpace : Trace.AllSteps (step valid) (fun n l => n.keepsPace l) (started paId) l)
    (hrun : Trace.run (step valid) (started paId) l = some n) : n.Agrees :=
  (Trace.run_invariant_of (I := Paced) (fun _ _ _ hp hok h => step_paced hp hok h) hpace hrun
    (started_paced paId)).agrees

def tableRun : List (Label Unit) :=
  [.subscribeEvent "a" "", .take calm, .take calm, .onConnect true, .take calm, .effect, .effect,
    .effect, .effect, .take calm, .subscribeEvent "b" "", .take calm, .effect,
    .unsubscribeEvent "a", .take calm, .effect]

/-- A topic is subscribed, the link is lost, the topic is unsubscribed and the link is back, all
before the worker takes the first of them. -/
def overtakingRun : List (Label Unit) :=
  [.take calm, .onConnect true, .take calm, .effect, .effect, .effect, .take calm,
    .subscribeEvent "a" "", .onDisconnect, .unsubscribeEvent "a", .onConnect true,
    .take calm, .effect, .take calm, .take calm, .take calm, .effect, .effect, .effect, .take calm]

theorem agrees_tableRun :
    ∃ n, Trace.run (step (fun _ _ => true)) (started "pa") tableRun = some n ∧
      n.state = some .operational ∧ n.link ∧ n.filters = ["b", kApRspWildcard, kRspWildcard] ∧
      n.Agrees := by
  have hrun : (Trace.run (step (fun _ _ => true)) (started "pa") tableRun).map
      (fun n => decide (n.state = some .operational ∧ n.link ∧
        n.filters = ["b", kApRspWildcard, kRspWildcard])) = some true := by
    decide +kernel
  obtain ⟨n, hn, hfacts⟩ := Option.map_eq_some_iff.mp hrun
  obtain ⟨hst, hlk, hfilters⟩ := of_decide_eq_true hfacts
  exact ⟨n, hn, hst, hlk, hfilters, agrees_of_keepsPace _ (by decide +kernel) hn⟩

/-- At rest in Operational the broker still holds the topic, and the table does not. -/
theorem overtaking_leaves_filter :
    ∃ n, Trace.run (step (fun _ _ => true)) (started "pa") overtakingRun = some n ∧
      n.state = some .operational ∧ n.link ∧ n.ao.queue.length = 0 ∧ n.ao.todo.length = 0 ∧
      n.bridge.subscriptions = [] ∧ "a" ∈ n.filters ∧ ¬ n.Agrees := by
  have hrun : (Trace.run (step (fun _ _ => true)) (started "pa") overtakingRun).map
      (fun n => decide (n.state = some .operational ∧ n.link ∧ n.ao.queue.length = 0 ∧
        n.ao.todo.length = 0 ∧ n.bridge.subscriptions = [] ∧ "a" ∈ n.filters)) = some true := by
    decide +kernel
  obtain ⟨n, hn, hfacts⟩ := Option.map_eq_some_iff.mp hrun
  obtain ⟨hst, hlk, hq, htodo, hsubs, hmem⟩ := of_decide_eq_true hfacts
  refine ⟨n, hn, hst, hlk, hq, htodo, hsubs, hmem, ?_⟩
  intro hagrees
  have htopic := hagrees .operational hst rfl hlk "a"
  rw [List.length_eq_zero_iff.mp htodo, topics, hsubs] at htopic
  exact absurd (htopic.mp hmem) (by decide)

end BridgeNet

end TelafSim.ModemBridge
