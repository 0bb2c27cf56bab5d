import TelafSim.DataCallbacks
import TelafSim.Mpss

/-!
# One data call, as seen by both ends

For one profile: the state of its session in the PA with the events, requests and indications on
their way to it, and the status the modem has for the call. `Step` says what either end and the
network can do to it, and `Agreed` is kept by every such step: what the PA takes for granted about
the call is true, or the news that it is not are on their way.
-/

namespace TelafSim.Data

open Mpss

def SessionSignal.answers : SessionSignal → Option RpcKind
  | .startRsp _ => some .startDataCall
  | .stopRsp _ => some .stopDataCall
  | .listRsp _ => some .listDataCall
  | _ => none

def rspSignal : RpcKind → Bool → SessionSignal
  | .startDataCall => .startRsp
  | .stopDataCall => .stopRsp
  | .listDataCall => .listRsp

@[simp] theorem answers_rspSignal (k : RpcKind) (ok : Bool) : (rspSignal k ok).answers = some k := by
  cases k <;> rfl

/-- An answer that takes the session to a state in which it counts on the call. -/
def SessionSignal.good : SessionSignal → Bool
  | .startRsp ok => ok
  | .listRsp up => up
  | _ => false

/-- Events that say nothing about the modem. -/
def SessionSignal.neutral : SessionSignal → Bool
  | .connectedInd => false
  | .noNetInd => false
  | .startRsp ok => !ok
  | .stopRsp ok => !ok
  | .listRsp up => !up
  | _ => true

/-- What an indication of the status tells the session. -/
def statusSignal : CallStatus → SessionSignal
  | .connected => .connectedInd
  | .noNet => .noNetInd
  | _ => .otherInd

/-- The request a session sends as it takes an event. -/
def sends (st : SessionState) (sg : SessionSignal) : List RpcKind :=
  if (sessionPath st sg).1 = st then [] else (awaited (sessionPath st sg).1).toList

/-- The session ends without news from the modem that the call is down. -/
def givesUp : SessionState → SessionSignal → Bool
  | .sendingStartReq, .startRsp ok => !ok
  | .waitingForUp, .bringupTimeout => true
  | .reconciling, .listRsp up => !up
  | _, _ => false

/-- The states in which a session may have a call in the modem. -/
def mayHold : SessionState → Bool
  | .sendingStartReq => true
  | .waitingForUp => true
  | .connected => true
  | .sendingStopReq => true
  | .reconciling => true
  | _ => false

section Path

theorem connected_of_mayHold : ∀ st, mayHold st → awaited st = none → st ≠ .waitingForUp →
    st = .connected := by
  decide

theorem answers_of_moves : ∀ st sg, st ≠ .active → (sessionPath st sg).1 ≠ st →
    sg.answers = awaited st := by
  decide +kernel

theorem answers_of_stays : ∀ st sg k, st ≠ .active → (sessionPath st sg).1 = st →
    awaited st = some k → sg.answers ≠ some k := by
  intro st sg k
  revert st sg
  cases k <;> decide +kernel

theorem mayHold_path : ∀ st sg, st ≠ .active → mayHold st → mayHold (sessionPath st sg).1 ∨
    givesUp st sg ∨ sg = .noNetInd ∨ sg = .stopRsp true := by
  decide +kernel

theorem connected_of_path : ∀ st sg, st ≠ .active → (sessionPath st sg).1 = .connected →
    sg ≠ .noNetInd ∧ (st = .connected ∨ (st = .waitingForUp ∧ sg = .connectedInd) ∨
      (st = .reconciling ∧ sg = .listRsp true)) := by
  decide +kernel

theorem waitingForUp_of_path : ∀ st sg, st ≠ .active → (sessionPath st sg).1 = .waitingForUp →
    sg ≠ .noNetInd ∧ (st = .waitingForUp ∨ sg = .startRsp true) := by
  decide +kernel

end Path

structure CallView where
  st : Option SessionState
  queue : List SessionSignal
  unsent : List RpcKind
  asked : List RpcKind
  queued : List SessionSignal
  wire : List SessionSignal
  status : Option CallStatus
  doomed : Bool

namespace CallView

/-- What the session has yet to take: its queue, the indications in the manager's queue and what is
on its way from the modem. Answers pass the manager by. -/
def coming (v : CallView) : List SessionSignal := v.queue ++ v.queued ++ v.wire

/-- The modem has the call and nothing is scheduled that ends it. -/
def held (v : CallView) : Bool := v.status.isSome && !v.doomed

/-- The session counts on the call, or will when it has taken what is coming. -/
def believes (v : CallView) : Bool :=
  v.st = some .connected || v.coming.contains (.listRsp true) ||
    ((v.st = some .waitingForUp || v.coming.contains (.startRsp true)) &&
      v.coming.contains .connectedInd)

/-- No NO_NET before an answer that takes the session back to the call. -/
def Ordered (l : List SessionSignal) : Prop :=
  l.Pairwise (fun a b => a = .noNetInd → b.good = false)

inductive Step (v : CallView) : CallView → Prop
  -- the session
  | take {st : SessionState} {sg : SessionSignal} {rest : List SessionSignal}
    (hst : v.st = some st) (hleaf : st ≠ .active) (hq : v.queue = sg :: rest)
    (hunsent : v.unsent = []) (hok : givesUp st sg → v.held = false) :
    Step v { v with st := some (sessionPath st sg).1, queue := rest, unsent := sends st sg }
  | send {k : RpcKind} {ks : List RpcKind} (hks : v.unsent = k :: ks) :
    Step v { v with unsent := ks, asked := v.asked ++ [k] }
  | post {sg : SessionSignal} (hsg : sg.neutral) (hno : sg.answers = none) :
    Step v { v with queue := v.queue ++ [sg] }
  -- the manager
  | pass {sg : SessionSignal} {rest : List SessionSignal} (hq : v.queued = sg :: rest) :
    Step v { v with queue := v.queue ++ [sg], queued := rest }
  | ignore {sg : SessionSignal} {rest : List SessionSignal} (hq : v.queued = sg :: rest)
    (hok : sg = .noNetInd → v.believes = false) : Step v { v with queued := rest }
  | create (hst : v.st = none) :
    Step v { v with st := some .idle, queue := [.start], unsent := [], asked := [] }
  | erase (hok : v.st ≠ some .terminal → v.held = false) :
    Step v { v with st := none, queue := [], unsent := [], asked := [],
                    wire := v.wire.filter (fun sg => sg.answers = none) }
  -- the bridge
  | receive {sg : SessionSignal} {rest : List SessionSignal} (hw : v.wire = sg :: rest)
    (hno : sg.answers = none) : Step v { v with queued := v.queued ++ [sg], wire := rest }
  | answer {sg : SessionSignal} {rest : List SessionSignal} (hw : v.wire = sg :: rest)
    (hsome : sg.answers ≠ none) :
    Step v { v with queue := v.queue ++ [sg], asked := [],
                    wire := rest.filter (fun sg => sg.answers = none) }
  | timeout {k : RpcKind} (hk : k ∈ v.asked) :
    Step v { v with queue := v.queue ++ [rspSignal k false], asked := [],
                    wire := v.wire.filter (fun sg => sg.answers = none) }
  | lose {sg : SessionSignal} {l r : List SessionSignal} (hw : v.wire = l ++ sg :: r)
    (hok : sg = .noNetInd → v.believes = false) : Step v { v with wire := l ++ r }
  -- the modem
  | respond {k : RpcKind} {ok : Bool} (hk : k ∈ v.asked)
    (hok : ok → k ≠ .stopDataCall ∧ v.status = some .connected) :
    Step v { v with wire := v.wire ++ [rspSignal k ok] }
  | openCall (hstatus : v.status = none) (hasked : .startDataCall ∈ v.asked)
    (hnoNet : .noNetInd ∉ v.coming) (hconn : .connectedInd ∉ v.coming) :
    Step v { v with status := some .connecting, wire := v.wire ++ [.startRsp true, .otherInd] }
  | stop {s : CallStatus} {ans : List SessionSignal} (hstatus : v.status = some s)
    (hans : ans = [] ∨ (ans = [.stopRsp true] ∧ .stopDataCall ∈ v.asked)) :
    Step v { v with status := some (CallSession.chart s .disconnect), doomed := true,
                    wire := v.wire ++ ans ++ [statusSignal (CallSession.chart s .disconnect)] }
  | connect (hstatus : v.status = some .connecting) (hdoomed : v.doomed = false) :
    Step v { v with status := some .connected, wire := v.wire ++ [.connectedInd] }
  | disconnect {s : CallStatus} {b : Bool} (hstatus : v.status = some s) (hdoomed : v.doomed) :
    Step v { v with status := none, doomed := b,
                    wire := v.wire ++ [statusSignal (CallSession.chart s .terminate)] }
  | drop {s : CallStatus} {b : Bool} (hstatus : v.status = some s) :
    Step v { v with status := none, doomed := b,
                    wire := v.wire ++ [statusSignal (CallSession.chart s .forceDrop)] }
  | tick {b : Bool} (hstatus : v.status = none) : Step v { v with doomed := b }

structure Agreed (v : CallView) : Prop where
  awaits : v.unsent ++ v.asked ++ v.queue.filterMap SessionSignal.answers =
    (v.st.bind awaited).toList
  fresh : ∀ sg ∈ v.wire, ∀ k ∈ sg.answers, k ∈ v.asked
  queued : ∀ sg ∈ v.queued, sg.answers = none
  live : ∀ s ∈ v.status, s = .connecting ∨ s = .connected ∨ s = .disconnecting
  disconnecting : v.status = some .disconnecting → v.doomed
  connected : v.status = some .connected → v.doomed = false
  holds : v.held → v.st.any mayHold
  noNet : v.status ≠ none → .noNetInd ∉ v.coming
  connecting : v.status = some .connecting → .connectedInd ∉ v.coming
  stopped : .stopRsp true ∈ v.coming → v.held = false
  believed : v.believes → v.status = some .connected ∨ v.status = some .disconnecting ∨
    .noNetInd ∈ v.coming
  ordered : Ordered v.coming

section Lists

variable {l r : List SessionSignal} {sg : SessionSignal}

theorem Ordered.insert (h : Ordered (l ++ r)) (hne : sg ≠ .noNetInd) (hgood : sg.good = false) :
    Ordered (l ++ sg :: r) := by
  obtain ⟨hl, hr, hlr⟩ := List.pairwise_append.mp h
  refine List.pairwise_append.mpr ⟨hl, List.pairwise_cons.mpr ⟨?_, hr⟩, ?_⟩
  · intro _ _ h
    exact absurd h hne
  · intro a ha b hb h
    rcases List.mem_cons.mp hb with rfl | hb
    · exact hgood
    · exact hlr a ha b hb h

theorem Ordered.append (h : Ordered l) (hr : Ordered r) (hl : .noNetInd ∉ l) : Ordered (l ++ r) := by
  refine List.pairwise_append.mpr ⟨h, hr, ?_⟩
  rintro a ha b - rfl
  exact absurd ha hl

theorem Ordered.concat (h : Ordered l) (hgood : sg.good = false) : Ordered (l ++ [sg]) := by
  refine List.pairwise_append.mpr ⟨h, List.pairwise_singleton _ _, ?_⟩
  intro a _ b hb _
  rw [List.mem_singleton.mp hb, hgood]

theorem Ordered.advance {m : List SessionSignal} (h : Ordered (l ++ m ++ sg :: r))
    (hne : sg ≠ .noNetInd) : Ordered (l ++ sg :: (m ++ r)) := by
  obtain ⟨hlm, hsr, hcross⟩ := List.pairwise_append.mp h
  obtain ⟨hl, hm, hlm⟩ := List.pairwise_append.mp hlm
  obtain ⟨hsg, hr⟩ := List.pairwise_cons.mp hsr
  refine List.pairwise_append.mpr ⟨hl, List.pairwise_cons.mpr ⟨?_, ?_⟩, ?_⟩
  · intro _ _ h
    exact absurd h hne
  · refine List.pairwise_append.mpr ⟨hm, hr, ?_⟩
    intro a ha b hb
    exact hcross a (List.mem_append_right l ha) b (List.mem_cons_of_mem sg hb)
  · intro a ha b hb
    rcases List.mem_cons.mp hb with rfl | hb
    · exact hcross a (List.mem_append_left m ha) b List.mem_cons_self
    · rcases List.mem_append.mp hb with hb | hb
      · exact hlm a ha b hb
      · exact hcross a (List.mem_append_left m ha) b (List.mem_cons_of_mem sg hb)

theorem neutral_ne (h : sg.neutral) : sg ≠ .noNetInd ∧ sg ≠ .connectedInd ∧ sg ≠ .stopRsp true ∧
    sg ≠ .startRsp true ∧ sg ≠ .listRsp true ∧ sg.good = false := by
  revert sg
  decide

end Lists

theorem good_of_answers {sg : SessionSignal} (h : sg.answers = none) : sg.good = false := by
  revert sg
  decide

section Steps

variable {v v' : CallView}

theorem believes_iff : v.believes ↔ v.st = some .connected ∨ .listRsp true ∈ v.coming ∨
    ((v.st = some .waitingForUp ∨ .startRsp true ∈ v.coming) ∧ .connectedInd ∈ v.coming) := by
  simp [believes, or_assoc]

theorem held_iff : v.held ↔ v.status ≠ none ∧ v.doomed = false := by
  simp [held, Option.isSome_iff_ne_none]

theorem mem_coming {sg : SessionSignal} :
    sg ∈ v.coming ↔ sg ∈ v.queue ∨ sg ∈ v.queued ∨ sg ∈ v.wire := by
  simp [coming]

/-- Events of a session move on, are lost or are joined by neutral ones. -/
theorem Agreed.move (hv : v.Agreed) (hst : v'.st = v.st) (hstatus : v'.status = v.status)
    (hdoomed : v'.doomed = v.doomed)
    (hawaits : v'.unsent ++ v'.asked ++ v'.queue.filterMap SessionSignal.answers =
      v.unsent ++ v.asked ++ v.queue.filterMap SessionSignal.answers)
    (hfresh : ∀ sg ∈ v'.wire, ∀ k ∈ sg.answers, k ∈ v'.asked)
    (hqueued : ∀ sg ∈ v'.queued, sg.answers = none)
    (hcoming : ∀ sg ∈ v'.coming, sg ∈ v.coming ∨ sg.neutral)
    (hkeep : .noNetInd ∈ v.coming → .noNetInd ∈ v'.coming ∨ v.believes = false)
    (hordered : Ordered v'.coming) : v'.Agreed := by
  have hheld : v'.held = v.held := by rw [held, held, hstatus, hdoomed]
  have hof : ∀ sg ∈ v'.coming, sg.neutral = false → sg ∈ v.coming := by
    intro sg hsg hn
    rcases hcoming sg hsg with h | h
    · exact h
    · rw [hn] at h
      cases h
  have hbelieves : v'.believes → v.believes := by
    simp only [believes_iff, hst]
    rintro (h | h | ⟨h, hc⟩)
    · exact .inl h
    · exact .inr (.inl (hof _ h rfl))
    · exact .inr (.inr ⟨h.imp_right (fun h => hof _ h rfl), hof _ hc rfl⟩)
  refine ⟨by rw [hawaits, hst]; exact hv.awaits, hfresh, hqueued, by rw [hstatus]; exact hv.live,
    by rw [hstatus, hdoomed]; exact hv.disconnecting, by rw [hstatus, hdoomed]; exact hv.connected,
    by rw [hheld, hst]; exact hv.holds, ?_, ?_, ?_, ?_, hordered⟩
  · intro h hmem
    exact hv.noNet (hstatus ▸ h) (hof _ hmem rfl)
  · intro h hmem
    exact hv.connecting (hstatus ▸ h) (hof _ hmem rfl)
  · intro hmem
    rw [hheld]
    exact hv.stopped (hof _ hmem rfl)
  · intro h
    rw [hstatus]
    rcases hv.believed (hbelieves h) with h' | h' | h'
    · exact .inl h'
    · exact .inr (.inl h')
    · refine .inr (.inr ((hkeep h').resolve_right ?_))
      rw [hbelieves h]
      decide

theorem Agreed.of_asked (hv : v.Agreed) {k : RpcKind} (h : k ∈ v.asked) :
    v.unsent = [] ∧ v.asked = [k] ∧ v.queue.filterMap SessionSignal.answers = [] ∧
      v.st.bind awaited = some k := by
  have haw := hv.awaits
  cases hst : v.st.bind awaited with
  | none => simp [hst, List.ne_nil_of_mem h] at haw
  | some k' =>
    simp only [hst, Option.toList_some, List.append_eq_singleton_iff] at haw
    rcases haw with ⟨hnil, -⟩ | ⟨⟨h1, h2⟩ | ⟨-, h2⟩, h3⟩
    · simp [(List.append_eq_nil_iff.mp hnil).2] at h
    · obtain rfl : k = k' := by simpa [h2] using h
      exact ⟨h1, h2, h3, rfl⟩
    · simp [h2] at h

theorem Agreed.of_unsent (hv : v.Agreed) {k : RpcKind} {ks : List RpcKind}
    (h : v.unsent = k :: ks) : ks = [] ∧ v.asked = [] ∧
      v.queue.filterMap SessionSignal.answers = [] := by
  have haw := hv.awaits
  cases hst : v.st.bind awaited with
  | none => simp [hst, h] at haw
  | some k' =>
    simp only [hst, h, Option.toList_some, List.cons_append, List.cons.injEq,
      List.append_eq_nil_iff] at haw
    exact ⟨haw.2.1.1, haw.2.1.2, haw.2.2⟩

theorem Agreed.answers_coming (hv : v.Agreed) {k : RpcKind} (h : k ∈ v.asked) {sg : SessionSignal}
    (hsg : sg ∈ v.coming) {k' : RpcKind} (hk' : sg.answers = some k') : k' = k := by
  obtain ⟨-, hasked, hqueue, -⟩ := hv.of_asked h
  rcases mem_coming.mp hsg with hsg | hsg | hsg
  · rw [List.filterMap_eq_nil_iff.mp hqueue sg hsg] at hk'
    cases hk'
  · rw [hv.queued sg hsg] at hk'
    cases hk'
  · simpa [hasked] using hv.fresh sg hsg k' hk'

theorem Agreed.send (hv : v.Agreed) {k : RpcKind} {ks : List RpcKind} (h : v.unsent = k :: ks) :
    Agreed { v with unsent := ks, asked := v.asked ++ [k] } := by
  obtain ⟨rfl, hasked, -⟩ := hv.of_unsent h
  refine hv.move rfl rfl rfl ?_ ?_ hv.queued (fun _ h => .inl h) .inl hv.ordered
  · simp [h, hasked]
  · intro sg hsg k' hk'
    exact List.mem_append_left _ (hv.fresh sg hsg k' hk')

theorem Agreed.post (hv : v.Agreed) {sg : SessionSignal} (hsg : sg.neutral)
    (hno : sg.answers = none) : Agreed { v with queue := v.queue ++ [sg] } := by
  obtain ⟨hne, -, -, -, -, hgood⟩ := neutral_ne hsg
  have hcoming : coming { v with queue := v.queue ++ [sg] } =
      v.queue ++ sg :: (v.queued ++ v.wire) := by
    simp [coming]
  refine hv.move rfl rfl rfl ?_ hv.fresh hv.queued ?_ ?_ ?_
  · simp [hno]
  · intro sg' h
    rw [hcoming] at h
    simp only [List.mem_append, List.mem_cons] at h
    rw [mem_coming]
    rcases h with h | rfl | h
    · exact .inl (.inl h)
    · exact .inr hsg
    · exact .inl (.inr h)
  · intro h
    rw [mem_coming] at h
    rw [hcoming]
    simp only [List.mem_append, List.mem_cons]
    exact .inl (h.imp_right .inr)
  · rw [hcoming]
    apply Ordered.insert _ hne hgood
    simpa [coming] using hv.ordered

theorem Agreed.pass (hv : v.Agreed) {sg : SessionSignal} {rest : List SessionSignal}
    (hq : v.queued = sg :: rest) :
    Agreed { v with queue := v.queue ++ [sg], queued := rest } := by
  have hcoming : coming { v with queue := v.queue ++ [sg], queued := rest } = v.coming := by
    simp [coming, hq]
  refine hv.move rfl rfl rfl ?_ hv.fresh ?_ ?_ ?_ ?_
  · simp [hv.queued sg (by rw [hq]; exact List.mem_cons_self)]
  · intro sg' h
    exact hv.queued sg' (by rw [hq]; exact List.mem_cons_of_mem _ h)
  · rw [hcoming]
    exact fun _ h => .inl h
  · rw [hcoming]
    exact .inl
  · rw [hcoming]
    exact hv.ordered

/-- Something on its way is lost: a NO_NET only when nobody counts on the call. -/
theorem Agreed.lost (hv : v.Agreed) {l r : List SessionSignal} {sg : SessionSignal}
    (hst : v'.st = v.st) (hstatus : v'.status = v.status) (hdoomed : v'.doomed = v.doomed)
    (hawaits : v'.unsent ++ v'.asked ++ v'.queue.filterMap SessionSignal.answers =
      v.unsent ++ v.asked ++ v.queue.filterMap SessionSignal.answers)
    (hfresh : ∀ sg ∈ v'.wire, ∀ k ∈ sg.answers, k ∈ v'.asked)
    (hqueued : ∀ sg ∈ v'.queued, sg.answers = none) (hcoming : v.coming = l ++ sg :: r)
    (hcoming' : v'.coming = l ++ r) (hok : sg = .noNetInd → v.believes = false) : v'.Agreed := by
  have hsub : (l ++ r).Sublist (l ++ sg :: r) := (List.sublist_cons_self sg r).append_left l
  refine hv.move hst hstatus hdoomed hawaits hfresh hqueued ?_ ?_ ?_
  · intro sg' h
    rw [hcoming]
    rw [hcoming'] at h
    exact .inl (hsub.subset h)
  · intro h
    rw [hcoming, List.mem_append, List.mem_cons] at h
    rw [hcoming', List.mem_append]
    rcases h with h | h | h
    · exact .inl (.inl h)
    · exact .inr (hok h.symm)
    · exact .inl (.inr h)
  · have hord := hv.ordered
    rw [hcoming] at hord
    rw [hcoming']
    exact hord.sublist hsub

theorem Agreed.ignore (hv : v.Agreed) {sg : SessionSignal} {rest : List SessionSignal}
    (hq : v.queued = sg :: rest) (hok : sg = .noNetInd → v.believes = false) :
    Agreed { v with queued := rest } := by
  refine hv.lost (l := v.queue) (r := rest ++ v.wire) rfl rfl rfl rfl hv.fresh ?_ ?_ ?_ hok
  · intro sg' h
    exact hv.queued sg' (by rw [hq]; exact List.mem_cons_of_mem _ h)
  · simp [coming, hq]
  · simp [coming]

theorem Agreed.lose (hv : v.Agreed) {sg : SessionSignal} {l r : List SessionSignal}
    (hw : v.wire = l ++ sg :: r) (hok : sg = .noNetInd → v.believes = false) :
    Agreed { v with wire := l ++ r } := by
  refine hv.lost (l := v.queue ++ v.queued ++ l) (r := r) rfl rfl rfl rfl ?_ hv.queued ?_ ?_ hok
  · intro sg' h
    apply hv.fresh sg'
    rw [hw]
    exact ((List.sublist_cons_self sg r).append_left l).subset h
  · simp [coming, hw]
  · simp [coming]

theorem Agreed.receive (hv : v.Agreed) {sg : SessionSignal} {rest : List SessionSignal}
    (hw : v.wire = sg :: rest) (hno : sg.answers = none) :
    Agreed { v with queued := v.queued ++ [sg], wire := rest } := by
  have hcoming : coming { v with queued := v.queued ++ [sg], wire := rest } = v.coming := by
    simp [coming, hw]
  refine hv.move rfl rfl rfl rfl ?_ ?_ ?_ ?_ ?_
  · intro sg' h
    exact hv.fresh sg' (by rw [hw]; exact List.mem_cons_of_mem _ h)
  · intro sg' h
    rcases List.mem_append.mp h with h | h
    · exact hv.queued sg' h
    · rw [List.mem_singleton.mp h]
      exact hno
  · rw [hcoming]
    exact fun _ h => .inl h
  · rw [hcoming]
    exact .inl
  · rw [hcoming]
    exact hv.ordered

/-- The request is answered: `sg` goes to the session, and no other answer to it will. -/
theorem Agreed.answered (hv : v.Agreed) {sg : SessionSignal} {k : RpcKind}
    {w : List SessionSignal} (hk : k ∈ v.asked) (hsg : sg.answers = some k)
    (hw : ∀ x ∈ w, x ∈ v.wire) (hnoNet : .noNetInd ∈ v.wire → .noNetInd ∈ w)
    (hnew : sg ∈ v.coming ∨ sg.neutral) (hordered : Ordered (v.queue ++ sg :: (v.queued ++ w))) :
    Agreed { v with queue := v.queue ++ [sg], asked := [],
                    wire := w.filter (fun sg => sg.answers = none) } := by
  obtain ⟨hunsent, hasked, hqueue, -⟩ := hv.of_asked hk
  have hsub : (coming { v with queue := v.queue ++ [sg], asked := [],
                               wire := w.filter (fun sg => sg.answers = none) }).Sublist
      (v.queue ++ sg :: (v.queued ++ w)) := by
    simp only [coming, List.append_assoc, List.cons_append, List.nil_append]
    exact (((List.filter_sublist).append_left v.queued).cons_cons sg).append_left v.queue
  refine hv.move rfl rfl rfl ?_ ?_ hv.queued ?_ ?_ (hordered.sublist hsub)
  · simp [hunsent, hasked, hqueue, hsg]
  · intro sg' h k' hk'
    rw [of_decide_eq_true (List.mem_filter.mp h).2] at hk'
    cases hk'
  · intro sg' h
    have h := hsub.subset h
    simp only [List.mem_append, List.mem_cons] at h
    rw [mem_coming]
    rcases h with h | rfl | h | h
    · exact .inl (.inl h)
    · exact hnew.imp_left mem_coming.mp
    · exact .inl (.inr (.inl h))
    · exact .inl (.inr (.inr (hw sg' h)))
  · intro h
    left
    rw [mem_coming] at h ⊢
    rcases h with h | h | h
    · exact .inl (List.mem_append_left _ h)
    · exact .inr (.inl h)
    · exact .inr (.inr (List.mem_filter.mpr ⟨hnoNet h, rfl⟩))

theorem Agreed.answer (hv : v.Agreed) {sg : SessionSignal} {rest : List SessionSignal}
    (hw : v.wire = sg :: rest) (hsome : sg.answers ≠ none) :
    Agreed { v with queue := v.queue ++ [sg], asked := [],
                    wire := rest.filter (fun sg => sg.answers = none) } := by
  obtain ⟨k, hk⟩ := Option.ne_none_iff_exists'.mp hsome
  have hmem : sg ∈ v.wire := by rw [hw]; exact List.mem_cons_self
  have hne : sg ≠ .noNetInd := by
    rintro rfl
    cases hk
  refine hv.answered (hv.fresh sg hmem k hk) hk ?_ ?_ (.inl (mem_coming.mpr (.inr (.inr hmem)))) ?_
  · intro x hx
    rw [hw]
    exact List.mem_cons_of_mem _ hx
  · intro h
    rw [hw] at h
    exact (List.mem_cons.mp h).resolve_left hne.symm
  · have hord := hv.ordered
    rw [coming, hw] at hord
    exact hord.advance hne

theorem Agreed.timeout (hv : v.Agreed) {k : RpcKind} (hk : k ∈ v.asked) :
    Agreed { v with queue := v.queue ++ [rspSignal k false], asked := [],
                    wire := v.wire.filter (fun sg => sg.answers = none) } := by
  have hneutral : (rspSignal k false).neutral := by cases k <;> rfl
  obtain ⟨hne, -, -, -, -, hgood⟩ := neutral_ne hneutral
  refine hv.answered hk (answers_rspSignal k false) (fun _ h => h) id (.inr hneutral) ?_
  apply Ordered.insert _ hne hgood
  simpa [coming] using hv.ordered

/-- Without answers on their way and a session to take them, nobody counts on the call. -/
theorem not_believes (hst : v.st = none ∨ v.st = some .idle)
    (hno : ∀ sg ∈ v.coming, sg.answers = none) : ¬ v.believes := by
  rw [believes_iff]
  rintro (h | h | ⟨h | h, -⟩)
  · rcases hst with hst | hst <;> simp [hst] at h
  · cases hno _ h
  · rcases hst with hst | hst <;> simp [hst] at h
  · cases hno _ h

theorem Agreed.replace (hv : v.Agreed) (hst : v'.st = none ∨ v'.st = some .idle)
    (hunsent : v'.unsent = []) (hasked : v'.asked = []) (hstatus : v'.status = v.status)
    (hdoomed : v'.doomed = v.doomed) (hno : ∀ sg ∈ v'.coming, sg.answers = none)
    (hcoming : ∀ sg ∈ v'.coming, sg ∈ v.coming ∨ sg.neutral) (hheld : v.held = false) :
    v'.Agreed := by
  have hof : ∀ sg ∈ v'.coming, sg.neutral = false → sg ∈ v.coming := by
    intro sg hsg hn
    rcases hcoming sg hsg with h | h
    · exact h
    · rw [hn] at h
      cases h
  have hheld' : v'.held = false := by rw [held, hstatus, hdoomed]; exact hheld
  refine ⟨?_, ?_, ?_, by rw [hstatus]; exact hv.live,
    by rw [hstatus, hdoomed]; exact hv.disconnecting, by rw [hstatus, hdoomed]; exact hv.connected,
    ?_, ?_, ?_, fun _ => hheld', fun h => absurd h (not_believes hst hno), ?_⟩
  · have hqueue : v'.queue.filterMap SessionSignal.answers = [] := by
      rw [List.filterMap_eq_nil_iff]
      intro sg h
      exact hno sg (mem_coming.mpr (.inl h))
    rw [hunsent, hasked, hqueue]
    rcases hst with hst | hst <;> rw [hst] <;> rfl
  · intro sg h k hk
    rw [hno sg (mem_coming.mpr (.inr (.inr h)))] at hk
    cases hk
  · intro sg h
    exact hno sg (mem_coming.mpr (.inr (.inl h)))
  · rw [hheld']
    rintro ⟨⟩
  · intro h hmem
    exact hv.noNet (hstatus ▸ h) (hof _ hmem rfl)
  · intro h hmem
    exact hv.connecting (hstatus ▸ h) (hof _ hmem rfl)
  · apply List.pairwise_of_forall_mem_list
    intro a _ b hb _
    exact good_of_answers (hno b hb)

theorem Agreed.no_answers (hv : v.Agreed) (hst : v.st.bind awaited = none) :
    ∀ sg ∈ v.coming, sg.answers = none := by
  have haw := hv.awaits
  simp only [hst, Option.toList_none, List.append_eq_nil_iff] at haw
  intro sg h
  rcases mem_coming.mp h with h | h | h
  · exact List.filterMap_eq_nil_iff.mp haw.2 sg h
  · exact hv.queued sg h
  · cases hk : sg.answers with
    | none => rfl
    | some k =>
      have hmem := hv.fresh sg h k hk
      rw [haw.1.2] at hmem
      cases hmem

theorem Agreed.create (hv : v.Agreed) (hst : v.st = none) :
    Agreed { v with st := some .idle, queue := [.start], unsent := [], asked := [] } := by
  have hno := hv.no_answers (by rw [hst]; rfl)
  have hheld : v.held = false := by
    by_contra h
    have hst' := hv.holds (by simpa using h)
    rw [hst] at hst'
    cases hst'
  refine hv.replace (.inr rfl) rfl rfl rfl rfl ?_ ?_ hheld
  · intro sg h
    rcases mem_coming.mp h with h | h
    · rw [List.mem_singleton.mp h]
      rfl
    · exact hno sg (mem_coming.mpr (.inr h))
  · intro sg h
    rw [mem_coming]
    rcases mem_coming.mp h with h | h
    · rw [List.mem_singleton.mp h]
      exact .inr rfl
    · exact .inl (.inr h)

theorem Agreed.erase (hv : v.Agreed) (hok : v.st ≠ some .terminal → v.held = false) :
    Agreed { v with st := none, queue := [], unsent := [], asked := [],
                    wire := v.wire.filter (fun sg => sg.answers = none) } := by
  have hheld : v.held = false := by
    by_cases hst : v.st = some .terminal
    · by_contra h
      have hst' := hv.holds (by simpa using h)
      rw [hst] at hst'
      cases hst'
    · exact hok hst
  refine hv.replace (.inl rfl) rfl rfl rfl rfl ?_ ?_ hheld
  · intro sg h
    rcases mem_coming.mp h with h | h | h
    · cases h
    · exact hv.queued sg h
    · exact of_decide_eq_true (List.mem_filter.mp h).2
  · intro sg h
    rw [mem_coming]
    rcases mem_coming.mp h with h | h | h
    · cases h
    · exact .inl (.inr (.inl h))
    · exact .inl (.inr (.inr (List.mem_filter.mp h).1))

/-- The modem changes its call and publishes `out`. -/
theorem Agreed.publish (hv : v.Agreed) {s : Option CallStatus} {b : Bool}
    {out : List SessionSignal} (hfresh : ∀ sg ∈ out, ∀ k ∈ sg.answers, k ∈ v.asked)
    (hlive : ∀ s' ∈ s, s' = .connecting ∨ s' = .connected ∨ s' = .disconnecting)
    (hdisconnecting : s = some .disconnecting → b)
    (hconnected : s = some .connected → b = false)
    (hholds : s ≠ none → b = false → v.st.any mayHold ∧ .stopRsp true ∉ v.coming ++ out)
    (hnoNet : s ≠ none → .noNetInd ∉ v.coming ++ out)
    (hconnecting : s = some .connecting → .connectedInd ∉ v.coming ++ out)
    (hbelieved : believes { v with status := s, doomed := b, wire := v.wire ++ out } →
      s = some .connected ∨ s = some .disconnecting ∨ .noNetInd ∈ v.coming ++ out)
    (hordered : Ordered (v.coming ++ out)) :
    Agreed { v with status := s, doomed := b, wire := v.wire ++ out } := by
  have hcoming : coming { v with status := s, doomed := b, wire := v.wire ++ out } =
      v.coming ++ out := by
    simp [coming]
  refine ⟨hv.awaits, ?_, hv.queued, hlive, hdisconnecting, hconnected, ?_, by rwa [hcoming],
    by rwa [hcoming], ?_, by rwa [hcoming], by rwa [hcoming]⟩
  · intro sg h k hk
    rcases List.mem_append.mp h with h | h
    · exact hv.fresh sg h k hk
    · exact hfresh sg h k hk
  · intro h
    obtain ⟨hs, hb⟩ := held_iff.mp h
    exact (hholds hs hb).1
  · intro h
    rw [hcoming] at h
    by_contra hheld
    obtain ⟨hs, hb⟩ := held_iff.mp (by simpa using hheld)
    exact (hholds hs hb).2 h

/-- An indication alone makes nobody count on the call, unless it says CONNECTED. -/
theorem believes_of_publish {s : Option CallStatus} {b : Bool} {out : List SessionSignal}
    (hout : ∀ sg ∈ out, sg ≠ .connectedInd ∧ sg.good = false)
    (h : believes { v with status := s, doomed := b, wire := v.wire ++ out }) : v.believes := by
  have hof : ∀ sg, sg = .connectedInd ∨ sg.good → sg ∈ coming { v with
      status := s, doomed := b, wire := v.wire ++ out } → sg ∈ v.coming := by
    intro sg hsg hmem
    simp only [coming, ← List.append_assoc] at hmem
    rcases List.mem_append.mp hmem with hmem | hmem
    · exact hmem
    · obtain ⟨hne, hgood⟩ := hout sg hmem
      rcases hsg with hsg | hsg
      · exact absurd hsg hne
      · rw [hgood] at hsg
        cases hsg
  rw [believes_iff] at h ⊢
  rcases h with h | h | ⟨h, hc⟩
  · exact .inl h
  · exact .inr (.inl (hof _ (.inr rfl) h))
  · exact .inr (.inr ⟨h.imp_right (hof _ (.inr rfl)), hof _ (.inl rfl) hc⟩)

theorem Agreed.respond (hv : v.Agreed) {k : RpcKind} {ok : Bool} (hk : k ∈ v.asked)
    (hok : ok → k ≠ .stopDataCall ∧ v.status = some .connected) :
    Agreed { v with wire := v.wire ++ [rspSignal k ok] } := by
  have hind : rspSignal k ok ≠ .noNetInd ∧ rspSignal k ok ≠ .connectedInd := by
    cases k <;> simp [rspSignal]
  have hstop : rspSignal k ok ≠ .stopRsp true := by
    intro h
    cases k with
    | startDataCall => cases h
    | listDataCall => cases h
    | stopDataCall =>
      obtain rfl : ok = true := by simpa [rspSignal] using h
      exact (hok rfl).1 rfl
  refine hv.publish ?_ hv.live hv.disconnecting hv.connected ?_ ?_ ?_ ?_ ?_
  · intro sg h k' hk'
    rw [List.mem_singleton.mp h, answers_rspSignal] at hk'
    rwa [← Option.some.inj hk']
  · intro hs hb
    have hheld := held_iff.mpr ⟨hs, hb⟩
    refine ⟨hv.holds hheld, ?_⟩
    rw [List.mem_append, List.mem_singleton]
    rintro (h | h)
    · rw [hv.stopped h] at hheld
      cases hheld
    · exact hstop h.symm
  · intro hs
    simpa [hind.1.symm] using hv.noNet hs
  · intro hs
    simpa [hind.2.symm] using hv.connecting hs
  · intro h
    cases ok with
    | true => exact .inl (hok rfl).2
    | false =>
      have hgood : (rspSignal k false).good = false := by cases k <;> rfl
      have hbel := hv.believed (believes_of_publish (by simpa using ⟨hind.2, hgood⟩) h)
      exact hbel.imp_right (Or.imp_right (List.mem_append_left _))
  · cases ok with
    | true =>
      refine hv.ordered.append (List.pairwise_singleton _ _) (hv.noNet ?_)
      rw [(hok rfl).2]
      simp
    | false => exact hv.ordered.concat (by cases k <;> rfl)

theorem Agreed.openCall (hv : v.Agreed) (hasked : .startDataCall ∈ v.asked)
    (hnoNet : .noNetInd ∉ v.coming) (hconn : .connectedInd ∉ v.coming) :
    Agreed { v with status := some .connecting,
                    wire := v.wire ++ [.startRsp true, .otherInd] } := by
  obtain ⟨-, -, -, hst⟩ := hv.of_asked hasked
  obtain ⟨st, hst, hwait⟩ := Option.bind_eq_some_iff.mp hst
  obtain rfl : st = .sendingStartReq := by cases st <;> first | rfl | cases hwait
  refine hv.publish ?_ ?_ (fun h => by cases h) (fun h => by cases h) ?_ ?_ ?_ ?_ ?_
  · intro sg h k hk
    rcases List.mem_pair.mp h with rfl | rfl
    · rwa [← Option.some.inj hk]
    · cases hk
  · rintro s ⟨⟩
    exact .inl rfl
  · intro _ _
    refine ⟨by rw [hst]; rfl, ?_⟩
    rw [List.mem_append, List.mem_pair]
    rintro (h | h | h)
    · cases hv.answers_coming hasked h rfl
    · cases h
    · cases h
  · simpa using hnoNet
  · simpa using hconn
  · intro h
    exfalso
    have hcoming : coming { v with status := some .connecting,
                                   wire := v.wire ++ [.startRsp true, .otherInd] } =
        v.coming ++ [.startRsp true, .otherInd] := by
      simp [coming]
    rw [believes_iff, hcoming] at h
    rcases h with h | h | ⟨-, h⟩
    · rw [hst] at h
      cases h
    · have hlist : .listRsp true ∈ v.coming := by simpa using h
      cases hv.answers_coming hasked hlist rfl
    · exact hconn (by simpa using h)
  · exact hv.ordered.append (by simp [Ordered, SessionSignal.good]) hnoNet

theorem Agreed.stop (hv : v.Agreed) {s : CallStatus} {ans : List SessionSignal}
    (hstatus : v.status = some s)
    (hans : ans = [] ∨ (ans = [.stopRsp true] ∧ .stopDataCall ∈ v.asked)) :
    Agreed { v with status := some (CallSession.chart s .disconnect), doomed := true,
                    wire := v.wire ++ ans ++ [statusSignal (CallSession.chart s .disconnect)] } := by
  have hsome : v.status ≠ none := by simp [hstatus]
  -- neither end of the call is reached: the indication says nothing
  have hchart : statusSignal (CallSession.chart s .disconnect) = .otherInd ∧
      ((s = .connecting ∧ CallSession.chart s .disconnect = .connecting) ∨
        CallSession.chart s .disconnect = .disconnecting) := by
    rcases hv.live s hstatus with rfl | rfl | rfl <;> decide
  obtain ⟨hsignal, hchart⟩ := hchart
  have hout : ∀ sg ∈ ans ++ [statusSignal (CallSession.chart s .disconnect)],
      sg = .otherInd ∨ (sg = .stopRsp true ∧ .stopDataCall ∈ v.asked) := by
    intro sg h
    rw [hsignal, List.mem_append, List.mem_singleton] at h
    rcases h with h | h
    · rcases hans with rfl | ⟨rfl, hk⟩
      · cases h
      · exact .inr ⟨List.mem_singleton.mp h, hk⟩
    · exact .inl h
  have hnot : ∀ sg ∈ ans ++ [statusSignal (CallSession.chart s .disconnect)],
      sg ≠ .connectedInd ∧ sg.good = false ∧ sg ≠ .noNetInd := by
    intro sg h
    rcases hout sg h with rfl | ⟨rfl, -⟩ <;> decide
  rw [List.append_assoc]
  refine hv.publish ?_ ?_ (fun _ => rfl) ?_ ?_ ?_ ?_ ?_ ?_
  · intro sg h k hk
    rcases hout sg h with rfl | ⟨rfl, hasked⟩
    · cases hk
    · rwa [← Option.some.inj hk]
  · rintro s' ⟨⟩
    rcases hchart with ⟨-, h⟩ | h
    · exact .inl h
    · exact .inr (.inr h)
  · intro h
    rcases hchart with ⟨-, h'⟩ | h' <;> rw [h'] at h <;> cases h
  · rintro - ⟨⟩
  · intro _ h
    rcases List.mem_append.mp h with h | h
    · exact hv.noNet hsome h
    · exact (hnot _ h).2.2 rfl
  · intro h hmem
    rcases hchart with ⟨rfl, -⟩ | h'
    · rcases List.mem_append.mp hmem with hmem | hmem
      · exact hv.connecting hstatus hmem
      · exact (hnot _ hmem).1 rfl
    · rw [h'] at h
      cases h
  · intro h
    have hbel := believes_of_publish (fun sg hsg => ⟨(hnot sg hsg).1, (hnot sg hsg).2.1⟩) h
    rcases hv.believed hbel with h' | h' | h'
    · rw [hstatus] at h'
      obtain rfl := Option.some.inj h'
      exact .inr (.inl rfl)
    · rw [hstatus] at h'
      obtain rfl := Option.some.inj h'
      exact .inr (.inl rfl)
    · exact absurd h' (hv.noNet hsome)
  · refine hv.ordered.append ?_ (hv.noNet hsome)
    apply List.pairwise_of_forall_mem_list
    intro a _ b hb _
    exact (hnot b hb).2.1

theorem Agreed.connect (hv : v.Agreed) (hstatus : v.status = some .connecting)
    (hdoomed : v.doomed = false) :
    Agreed { v with status := some .connected, wire := v.wire ++ [.connectedInd] } := by
  have hsome : v.status ≠ none := by simp [hstatus]
  have hheld := held_iff.mpr ⟨hsome, hdoomed⟩
  refine hv.publish ?_ ?_ (fun h => by cases h) (fun _ => hdoomed) ?_ ?_ (fun h => by cases h)
    (fun _ => .inl rfl) ?_
  · intro sg h k hk
    rw [List.mem_singleton.mp h] at hk
    cases hk
  · rintro s ⟨⟩
    exact .inr (.inl rfl)
  · intro _ _
    refine ⟨hv.holds hheld, ?_⟩
    intro h
    rw [hv.stopped (by simpa using h)] at hheld
    cases hheld
  · intro _
    simpa using hv.noNet hsome
  · exact hv.ordered.concat rfl

/-- The modem lets go of its call with the signal `sg`. -/
theorem Agreed.letGo (hv : v.Agreed) {s : CallStatus} {b : Bool} {sg : SessionSignal}
    (hstatus : v.status = some s)
    (hsg : sg = .noNetInd ∨ (sg = .otherInd ∧ s = .connecting)) :
    Agreed { v with status := none, doomed := b, wire := v.wire ++ [sg] } := by
  have hnot : sg ≠ .connectedInd ∧ sg.good = false ∧ sg.answers = none := by
    rcases hsg with rfl | ⟨rfl, -⟩ <;> decide
  refine hv.publish ?_ (fun s h => by cases h) (fun h => by cases h) (fun h => by cases h)
    (fun h => absurd rfl h) (fun h => absurd rfl h) (fun h => by cases h) ?_
    (hv.ordered.concat hnot.2.1)
  · intro sg' h k hk
    rw [List.mem_singleton.mp h, hnot.2.2] at hk
    cases hk
  · intro h
    have hbel := believes_of_publish (by simpa using ⟨hnot.1, hnot.2.1⟩) h
    rcases hsg with rfl | ⟨rfl, rfl⟩
    · exact .inr (.inr (by simp))
    · rcases hv.believed hbel with h' | h' | h'
      · rw [hstatus] at h'
        cases h'
      · rw [hstatus] at h'
        cases h'
      · exact absurd h' (hv.noNet (by simp [hstatus]))

theorem Agreed.disconnect (hv : v.Agreed) {s : CallStatus} {b : Bool} (hstatus : v.status = some s)
    (hdoomed : v.doomed) :
    Agreed { v with status := none, doomed := b,
                    wire := v.wire ++ [statusSignal (CallSession.chart s .terminate)] } := by
  apply hv.letGo hstatus
  rcases hv.live s hstatus with rfl | rfl | rfl
  · exact .inr ⟨rfl, rfl⟩
  · rw [hv.connected hstatus] at hdoomed
    cases hdoomed
  · exact .inl rfl

theorem Agreed.drop (hv : v.Agreed) {s : CallStatus} {b : Bool} (hstatus : v.status = some s) :
    Agreed { v with status := none, doomed := b,
                    wire := v.wire ++ [statusSignal (CallSession.chart s .forceDrop)] } := by
  apply hv.letGo hstatus
  rcases hv.live s hstatus with rfl | rfl | rfl <;> exact .inl rfl

theorem Agreed.tick (hv : v.Agreed) {b : Bool} (hstatus : v.status = none) :
    Agreed { v with doomed := b } := by
  have hheld : held { v with doomed := b } = false := by simp [held, hstatus]
  refine ⟨hv.awaits, hv.fresh, hv.queued, hv.live, ?_, ?_, ?_, hv.noNet, hv.connecting,
    fun _ => hheld, hv.believed, hv.ordered⟩
  · intro h
    rw [hstatus] at h
    cases h
  · intro h
    rw [hstatus] at h
    cases h
  · rw [hheld]
    rintro ⟨⟩

section Take

variable {st : SessionState} {sg : SessionSignal} {rest : List SessionSignal}

/-- The view once `sg` is taken. -/
def taken (st : SessionState) (sg : SessionSignal) (rest : List SessionSignal) (v : CallView) :
    CallView :=
  { v with st := some (sessionPath st sg).1, queue := rest, unsent := sends st sg }

theorem coming_taken (st : SessionState) (hq : v.queue = sg :: rest) :
    v.coming = sg :: (v.taken st sg rest).coming := by
  simp [coming, taken, hq]

theorem Agreed.awaits_taken (hv : v.Agreed) (hst : v.st = some st) (hleaf : st ≠ .active)
    (hq : v.queue = sg :: rest) (hunsent : v.unsent = []) :
    sends st sg ++ v.asked ++ rest.filterMap SessionSignal.answers =
      (awaited (sessionPath st sg).1).toList := by
  have haw := hv.awaits
  rw [hunsent, hq, hst, List.nil_append, Option.bind_some, List.filterMap_cons] at haw
  unfold sends
  split
  · rename_i hstay
    rw [hstay, List.nil_append]
    cases hk : sg.answers with
    | none => simpa only [hk] using haw
    | some k =>
      -- an answer that leaves the session where it is answers nothing it waits for
      rw [hk] at haw
      cases hwait : awaited st with
      | none => simp [hwait] at haw
      | some k' =>
        simp only [hwait, Option.toList_some, List.append_eq_singleton_iff, reduceCtorEq,
          and_false, or_false, List.cons.injEq] at haw
        obtain ⟨-, rfl, -⟩ := haw
        exact absurd hk (answers_of_stays st sg k hleaf hstay hwait)
  · rename_i hmove
    have hanswers := answers_of_moves st sg hleaf hmove
    rw [hanswers] at haw
    cases hwait : awaited st with
    | none =>
      rw [hwait] at haw
      simp only [Option.toList_none, List.append_eq_nil_iff] at haw
      simp [haw.1, haw.2]
    | some k =>
      rw [hwait] at haw
      simp only [Option.toList_some, List.append_eq_singleton_iff, reduceCtorEq, and_false,
        or_false, List.cons.injEq, true_and] at haw
      simp [haw.1, haw.2]

theorem believes_of_taken (hst : v.st = some st) (hleaf : st ≠ .active) (hq : v.queue = sg :: rest)
    (h : (v.taken st sg rest).believes) : v.believes := by
  have hmem : ∀ x ∈ (v.taken st sg rest).coming, x ∈ v.coming := by
    intro x hx
    rw [coming_taken _ hq]
    exact List.mem_cons_of_mem _ hx
  have hsg : sg ∈ v.coming := by
    rw [coming_taken st hq]
    exact List.mem_cons_self
  rw [believes_iff] at h ⊢
  rw [hst]
  rcases h with h | h | ⟨h, hc⟩
  · obtain ⟨-, rfl | ⟨rfl, rfl⟩ | ⟨rfl, rfl⟩⟩ :=
      connected_of_path st sg hleaf (Option.some.inj h)
    · exact .inl rfl
    · exact .inr (.inr ⟨.inl rfl, hsg⟩)
    · exact .inr (.inl hsg)
  · exact .inr (.inl (hmem _ h))
  · refine .inr (.inr ⟨?_, hmem _ hc⟩)
    rcases h with h | h
    · obtain ⟨-, rfl | rfl⟩ := waitingForUp_of_path st sg hleaf (Option.some.inj h)
      · exact .inl rfl
      · exact .inr hsg
    · exact .inr (hmem _ h)

/-- A session that takes NO_NET counts on no answer behind it. -/
theorem Agreed.not_believes_taken (hv : v.Agreed) (hleaf : st ≠ .active)
    (hq : v.queue = .noNetInd :: rest) : ¬ (v.taken st .noNetInd rest).believes := by
  have hord := hv.ordered
  rw [coming_taken st hq] at hord
  have hgood := (List.pairwise_cons.mp hord).1
  rw [believes_iff]
  rintro (h | h | ⟨h | h, -⟩)
  · exact (connected_of_path st _ hleaf (Option.some.inj h)).1 rfl
  · cases hgood _ h rfl
  · exact (waitingForUp_of_path st _ hleaf (Option.some.inj h)).1 rfl
  · cases hgood _ h rfl

theorem Agreed.take (hv : v.Agreed) (hst : v.st = some st) (hleaf : st ≠ .active)
    (hq : v.queue = sg :: rest) (hunsent : v.unsent = [])
    (hok : givesUp st sg → v.held = false) : (v.taken st sg rest).Agreed := by
  have hcoming := coming_taken st hq
  have hmem : ∀ x ∈ (v.taken st sg rest).coming, x ∈ v.coming := by
    intro x hx
    rw [hcoming]
    exact List.mem_cons_of_mem _ hx
  have hsg : sg ∈ v.coming := by
    rw [hcoming]
    exact List.mem_cons_self
  refine ⟨hv.awaits_taken hst hleaf hq hunsent, hv.fresh, hv.queued, hv.live, hv.disconnecting,
    hv.connected, ?_, fun h hm => hv.noNet h (hmem _ hm), fun h hm => hv.connecting h (hmem _ hm),
    fun h => hv.stopped (hmem _ h), ?_, ?_⟩
  · intro hheld'
    have hheld : v.held := hheld'
    have hhold := hv.holds hheld
    rw [hst] at hhold
    rcases mayHold_path st sg hleaf hhold with h | h | rfl | rfl
    · exact h
    · rw [hok h] at hheld
      cases hheld
    · exact absurd hsg (hv.noNet (held_iff.mp hheld).1)
    · rw [hv.stopped hsg] at hheld
      cases hheld
  · intro h
    rcases hv.believed (believes_of_taken hst hleaf hq h) with h' | h' | h'
    · exact .inl h'
    · exact .inr (.inl h')
    · rw [hcoming] at h'
      rcases List.mem_cons.mp h' with rfl | h'
      · exact absurd h (hv.not_believes_taken hleaf hq)
      · exact .inr (.inr h')
  · have hord := hv.ordered
    rw [hcoming] at hord
    exact (List.pairwise_cons.mp hord).2

end Take

theorem Step.agreed (hv : v.Agreed) (h : v.Step v') : v'.Agreed := by
  cases h with
  | take hst hleaf hq hunsent hok => exact hv.take hst hleaf hq hunsent hok
  | send hks => exact hv.send hks
  | post hsg hno => exact hv.post hsg hno
  | pass hq => exact hv.pass hq
  | ignore hq hok => exact hv.ignore hq hok
  | create hst => exact hv.create hst
  | erase hok => exact hv.erase hok
  | receive hw hno => exact hv.receive hw hno
  | answer hw hsome => exact hv.answer hw hsome
  | timeout hk => exact hv.timeout hk
  | lose hw hok => exact hv.lose hw hok
  | respond hk hok => exact hv.respond hk hok
  | openCall hstatus hasked hnoNet hconn => exact hv.openCall hasked hnoNet hconn
  | stop hstatus hans => exact hv.stop hstatus hans
  | connect hstatus hdoomed => exact hv.connect hstatus hdoomed
  | disconnect hstatus hdoomed => exact hv.disconnect hstatus hdoomed
  | drop hstatus => exact hv.drop hstatus
  | tick hstatus => exact hv.tick hstatus

end Steps

end CallView

end TelafSim.Data
