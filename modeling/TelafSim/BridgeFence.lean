import TelafSim.BridgeNet
import TelafSim.Fence

/-!
# Unsubscribe, then drain

An unsubscribe is an event in the queue, and `drain()` posts a fence behind it. While the bridge runs
the fence is reached only when the registration is gone for good. ShuttingDown swallows the
unsubscribe but answers the fence, and a stopped bridge drops the one and does not wait for the
other; the tables outlive both, so the registration is back when the bridge is started again. A
callback behind its fence is never called as long as every start finds the tables free of what was
unsubscribed.
-/

namespace TelafSim.ModemBridge

variable {δ : Type}

open Bridge
open BridgeAO (calm)

inductive Handle
  | event (topic : String) (cb : ℕ)
  | observer (token : ℕ)
  deriving DecidableEq

namespace Handle

def brings (x : Handle) : BridgeEvent δ → Bool
  | .subscribeEvent topic _ cb => x = .event topic cb
  | .subscribeConnectivity token => x = .observer token
  | _ => false

def clears (x : Handle) : BridgeEvent δ → Bool
  | .unsubscribeEvent topic =>
    match x with
    | .event topic' _ => topic' = topic
    | .observer _ => false
  | .unsubscribeConnectivity token => x = .observer token
  | _ => false

/-- The registration is in the tables. -/
def held (x : Handle) (b : Bridge δ) : Bool :=
  match x with
  | .event topic cb => b.subscriptions.any (fun s => s.topic = topic && s.cb = cb)
  | .observer token => b.observers.contains token

/-- The registration was made before the calls to come. -/
def issued (n : BridgeNet δ) : Handle → Bool
  | .event _ cb => cb < n.nextCb
  | .observer token => token < n.nextToken

end Handle

section Held

variable (valid : String → δ → Bool) {st : BridgeState} {e : BridgeEvent δ} {b : Bridge δ}

/-- A registration is in the tables only if the event brought it, or it was there and the event does
not clear it. -/
theorem Handle.held_react (x : Handle) (hst : st ≠ .shuttingDown)
    (hheld : x.held (react valid st e b).2) : Fence.after x.brings x.clears (x.held b) e := by
  obtain ⟨hobs, hsubs⟩ := react_tables valid st e b
  simp only [Fence.after, Bool.or_eq_true, Bool.and_eq_true, Bool.not_eq_true']
  cases x with
  | event topic cb =>
    simp only [Handle.held, hsubs, List.any_eq_true] at hheld ⊢
    obtain ⟨s, hs, hsame⟩ := hheld
    cases e with
    | subscribeEvent t schemaId c =>
      simp only [subscriptionsAfter, if_neg hst] at hs
      rcases List.mem_append.mp hs with hs | hs
      · exact .inr ⟨⟨s, (List.mem_filter.mp hs).1, hsame⟩, rfl⟩
      · left
        obtain rfl := List.mem_singleton.mp hs
        simp only [Bool.and_eq_true, decide_eq_true_eq] at hsame
        simp [Handle.brings, hsame.1, hsame.2]
    | unsubscribeEvent t =>
      simp only [subscriptionsAfter, if_neg hst] at hs
      obtain ⟨hs, hne⟩ := List.mem_filter.mp hs
      refine .inr ⟨⟨s, hs, hsame⟩, ?_⟩
      simp only [Bool.and_eq_true, decide_eq_true_eq] at hsame
      simpa [Handle.clears, ← hsame.1] using hne
    | _ => exact .inr ⟨⟨s, hs, hsame⟩, rfl⟩
  | observer token =>
    simp only [Handle.held, hobs] at hheld ⊢
    cases e with
    | subscribeConnectivity t =>
      simp only [observersAfter, if_neg hst] at hheld
      by_cases ht : token = t
      · left
        simp [Handle.brings, ht]
      · right
        refine ⟨?_, rfl⟩
        simpa [ht] using hheld
    | unsubscribeConnectivity t =>
      simp only [observersAfter, if_neg hst] at hheld
      right
      simpa [Handle.clears] using hheld
    | _ => exact .inr ⟨hheld, rfl⟩

end Held

def Effect.handle : Effect δ → Option Handle
  | .deliver cb topic _ => some (.event topic cb)
  | .connectivity token _ => some (.observer token)
  | _ => none

def isDrain (w : ℕ) : BridgeEvent δ → Bool
  | .drain w' => w' = w
  | _ => false

namespace BridgeNet

/-- A fence is answered alone, and a bridge that was drained or is stopped calls no callback. -/
structure Attended (n : BridgeNet δ) : Prop where
  sound : n.Sound
  drains : ∀ w, .drain w ∈ n.ao.queue ∨ .fulfil w ∈ n.ao.todo → w < n.nextWaiter
  alone : ∀ w, .fulfil w ∈ n.ao.todo → n.ao.todo = [.fulfil w]
  halted : n.ao.running = false → n.ao.drained
  drained : n.ao.drained → ∀ f ∈ n.ao.todo, f.handle = none
  numbered : 0 < n.nextWaiter

section Steps

variable {valid : String → δ → Bool} {n n' : BridgeNet δ} {l : Label δ}

theorem fulfil_of_react {st : BridgeState} {e : BridgeEvent δ} {b : Bridge δ} {w : ℕ}
    (hnone : b.effects = []) (hf : .fulfil w ∈ (react valid st e b).2.effects) :
    e = .drain w ∧ (react valid st e b).2.effects = [.fulfil w] := by
  obtain ⟨es, heq, hes⟩ := react_leaves valid st e b
  rw [hnone, List.nil_append] at heq
  have he : emits st e b (.fulfil w) := hes _ (heq ▸ hf)
  change e = .drain w at he
  subst he
  refine ⟨rfl, ?_⟩
  have htarget : target st (.drain w : BridgeEvent δ).signal = none := by
    cases st <;> rfl
  rw [react, htarget]
  change b.effects ++ _ = _
  rw [hnone, List.nil_append]

theorem post_frame (n : BridgeNet δ) (e : BridgeEvent δ) :
    (n.ao.post e).running = n.ao.running ∧ (n.ao.post e).drained = n.ao.drained := by
  unfold BridgeAO.post BridgeAO.postFifo
  split <;> exact ⟨rfl, rfl⟩

theorem network_le (n : BridgeNet δ) (l : Label δ) : n.nextCb ≤ (n.network l).nextCb ∧
    n.nextToken ≤ (n.network l).nextToken ∧ n.nextWaiter ≤ (n.network l).nextWaiter := by
  cases l with
  | onConnect ok => cases ok <;> exact ⟨le_rfl, le_rfl, le_rfl⟩
  | subscribeEvent topic schemaId => exact ⟨Nat.le_succ _, le_rfl, le_rfl⟩
  | subscribeConnectivity => exact ⟨le_rfl, Nat.le_succ _, le_rfl⟩
  | drain => exact ⟨le_rfl, le_rfl, Nat.le_succ _⟩
  | _ => exact ⟨le_rfl, le_rfl, le_rfl⟩

theorem attended_post {e : BridgeEvent δ} (ha : n.Attended) (he : n.posts l = some e)
    (hsound : Sound { n.network l with ao := n.ao.post e }) :
    Attended { n.network l with ao := n.ao.post e } := by
  obtain ⟨hrun, hdrained⟩ := n.post_frame e
  have htodo : (n.ao.post e).todo = n.ao.todo := congrArg (fun h => h.ext.effects) (n.ao.post_hsm e)
  refine ⟨hsound, ?_, ?_, ?_, ?_, Nat.lt_of_lt_of_le ha.numbered (n.network_le l).2.2⟩
  · intro w hw
    change w < (n.network l).nextWaiter
    have hcases : (.drain w ∈ n.ao.queue ∨ .fulfil w ∈ n.ao.todo) ∨ e = .drain w := by
      rcases hw with hw | hw
      · change .drain w ∈ (n.ao.post e).queue at hw
        rw [n.ao.post_queue] at hw
        split at hw
        · rcases List.mem_append.mp hw with hw | hw
          · exact .inl (.inl hw)
          · exact .inr (List.mem_singleton.mp hw).symm
        · exact .inl (.inl hw)
      · exact .inl (.inr (htodo ▸ hw))
    rcases hcases with hw | rfl
    · exact Nat.lt_of_lt_of_le (ha.drains w hw) (n.network_le l).2.2
    · cases l <;> cases he
      exact Nat.lt_succ_self _
  · intro w hw
    exact htodo.trans (ha.alone w (htodo ▸ hw))
  · intro h
    exact hdrained.trans (ha.halted (hrun.symm.trans h))
  · intro h f hf
    exact ha.drained (hdrained.symm.trans h) f (htodo ▸ hf)

theorem perform_running (f : Effect δ) (a : BridgeAO δ) : (a.perform f).running = a.running :=
  (a.perform_frame f).2.2.1

theorem perform_drained (f : Effect δ) (a : BridgeAO δ) : (a.perform f).drained = a.drained ∨
    ∃ w, f = .fulfil w ∧ (a.perform f).drained := by
  cases f with
  | postFifo e =>
    dsimp only [BridgeAO.perform, BridgeAO.postFifo]
    split <;> exact .inl rfl
  | fulfil w =>
    dsimp only [BridgeAO.perform]
    split
    · exact .inr ⟨w, rfl, rfl⟩
    · exact .inl rfl
  | _ => exact .inl rfl

theorem attended_effect {f : Effect δ} {fs : List (Effect δ)} (ha : n.Attended)
    (htodo : n.ao.todo = f :: fs)
    (hsound : Sound { n.wire f with ao := (n.ao.setTodo fs).perform f }) :
    Attended { n.wire f with ao := (n.ao.setTodo fs).perform f } := by
  have htodo' : ((n.ao.setTodo fs).perform f).todo = fs :=
    congrArg (fun h => h.ext.effects) ((n.ao.setTodo fs).perform_hsm f)
  have hmem : ∀ g ∈ fs, g ∈ n.ao.todo := fun g hg => htodo ▸ List.mem_cons_of_mem _ hg
  have hwaiter : (n.wire f).nextWaiter = n.nextWaiter := by
    cases f <;> dsimp only [wire] <;> try split
    all_goals rfl
  have hnil : ∀ w, f = .fulfil w → fs = [] := by
    rintro w rfl
    have halone := ha.alone w (htodo ▸ List.mem_cons_self)
    rw [htodo] at halone
    exact (List.cons.inj halone).2
  have hrun : ((n.ao.setTodo fs).perform f).running = n.ao.running := perform_running f _
  have hdrained : ((n.ao.setTodo fs).perform f).drained = n.ao.drained ∨
      ((n.ao.setTodo fs).perform f).drained ∧ fs = [] := by
    rcases perform_drained f (n.ao.setTodo fs) with h | ⟨w, hw, h⟩
    · exact .inl h
    · exact .inr ⟨h, hnil w hw⟩
  refine ⟨hsound, ?_, ?_, ?_, ?_, hwaiter ▸ ha.numbered⟩
  · intro w hw
    change w < (n.wire f).nextWaiter
    rw [hwaiter]
    refine ha.drains w ?_
    rcases hw with hw | hw
    · left
      rcases (n.ao.setTodo fs).perform_queue f with hq | ⟨e, rfl, hq⟩
      · exact hq ▸ hw
      · have hw : .drain w ∈ n.ao.queue ++ [e] := hq ▸ hw
        rcases List.mem_append.mp hw with hw | hw
        · exact hw
        · have hpost : .postFifo e ∈ n.ao.todo := htodo ▸ List.mem_cons_self
          have hdefer : deferrable e := ha.sound.accounted.orderly.posts e hpost
          rw [← List.mem_singleton.mp hw] at hdefer
          cases hdefer
    · exact .inr (hmem _ (htodo' ▸ hw))
  · intro w hw
    have hw : .fulfil w ∈ fs := htodo' ▸ hw
    have halone := ha.alone w (hmem _ hw)
    rw [htodo] at halone
    rw [(List.cons.inj halone).2] at hw
    cases hw
  · intro h
    have hd := ha.halted (hrun.symm.trans h)
    rcases hdrained with hsame | ⟨hset, -⟩
    · exact hsame.trans hd
    · exact hset
  · intro h g hg
    have hg : g ∈ fs := htodo' ▸ hg
    rcases hdrained with hsame | ⟨-, rfl⟩
    · exact ha.drained (hsame.symm.trans h) g (hmem g hg)
    · cases hg

theorem attended_take {w : World} {st : BridgeState} {e : BridgeEvent δ}
    {rest : List (BridgeEvent δ)} (ha : n.Attended) (hst : n.state = some st)
    (htodo : n.ao.todo = []) (hq : n.ao.queue = e :: rest) (hq' : n'.ao.queue = rest)
    (hext : n'.bridge = (react valid st e { n.bridge with world := w }).2)
    (hrun : n'.ao.running = n.ao.running) (hdrained : n'.ao.drained = n.ao.drained)
    (hwaiter : n'.nextWaiter = n.nextWaiter) (hsound : n'.Sound) : n'.Attended := by
  have hnone : ({ n.bridge with world := w } : Bridge δ).effects = [] := htodo
  have htodo' : n'.ao.todo = (react valid st e { n.bridge with world := w }).2.effects :=
    congrArg Bridge.effects hext
  refine ⟨hsound, ?_, ?_, ?_, ?_, hwaiter ▸ ha.numbered⟩
  · intro v hv
    rw [hwaiter]
    refine ha.drains v (.inl ?_)
    rw [hq]
    rcases hv with hv | hv
    · exact List.mem_cons_of_mem _ (hq' ▸ hv)
    · rw [htodo'] at hv
      rw [(fulfil_of_react hnone hv).1]
      exact List.mem_cons_self
  · intro v hv
    rw [htodo'] at hv ⊢
    exact (fulfil_of_react hnone hv).2
  · rw [hrun, hdrained]
    exact ha.halted
  · intro h f hf
    have hdown : n.state = some .shuttingDown := ha.sound.stopped.drained (hdrained.symm.trans h)
    obtain rfl := Option.some.inj (hst.symm.trans hdown)
    obtain ⟨es, heq, hes⟩ := react_leaves valid .shuttingDown e { n.bridge with world := w }
    rw [hnone, List.nil_append] at heq
    rw [htodo', heq] at hf
    have hemits := hes f hf
    cases f with
    | deliver cb topic env => cases hemits.1
    | connectivity token up =>
      rcases hemits with ⟨-, hsome⟩ | ⟨hop, -⟩
      · cases hsome
      · cases hop
    | _ => rfl

theorem step_attended (ha : n.Attended) (h : n.step valid l = some n') : n'.Attended := by
  have hsound := step_sound ha.sound h
  cases step_moves ha.sound h with
  | post hl he hen hpost => exact attended_post ha he hsound
  | take hst hleaf htodo hq hstate hext =>
    exact attended_take ha hst htodo hq rfl hext rfl rfl rfl hsound
  | effect htodo => exact attended_effect ha htodo hsound
  | @control _ ao hl hhsm hent hdrained hhalt hq hkind heff =>
    have htodo : ao.todo = n.ao.todo := congrArg (fun h => h.ext.effects) hhsm
    refine ⟨hsound, ?_, ?_, ?_, ?_, ha.numbered⟩
    · intro w hw
      have hcases : (.drain w ∈ n.ao.queue ∨ .fulfil w ∈ n.ao.todo) ∨ w = 0 := by
        rcases hw with hw | hw
        · have hw : .drain w ∈ ao.queue := hw
          rcases hq with hq | hq | hq <;> rw [hq] at hw
          · exact .inl (.inl hw)
          · simp at hw
            exact .inl (.inl hw)
          · simp at hw
            exact hw.imp_left .inl
        · exact .inl (.inr (htodo ▸ hw))
      rcases hcases with hw | rfl
      · exact ha.drains w hw
      · exact ha.numbered
    · intro w hw
      exact htodo.trans (ha.alone w (htodo ▸ hw))
    · intro h
      refine hdrained.trans ?_
      rcases hhalt with hsame | hd
      · exact ha.halted (hsame.symm.trans h)
      · exact hd
    · intro h f hf
      exact ha.drained (hdrained.symm.trans h) f (htodo ▸ hf)
  | start hret =>
    have htodo : n.ao.restart.todo = [] := (ha.sound.stopped.returned hret).2
    refine ⟨hsound, ?_, ?_, (fun h => by cases h), (fun h => by cases h), ha.numbered⟩
    · rintro w (hw | hw)
      · cases List.mem_singleton.mp hw
      · change .fulfil w ∈ n.ao.restart.todo at hw
        rw [htodo] at hw
        cases hw
    · intro w hw
      change .fulfil w ∈ n.ao.restart.todo at hw
      rw [htodo] at hw
      cases hw

end Steps

end BridgeNet

structure FenceLog (δ : Type) where
  net : BridgeNet δ
  withdrawn : List Handle
  /-- The calls of `drain()` that have not returned, with what had been unsubscribed before. -/
  waits : List (ℕ × List Handle)
  /-- What had been unsubscribed before a `drain()` that has returned. -/
  fenced : List Handle
  /-- Callbacks called behind their fence. -/
  late : List Handle

namespace FenceLog

def withdraws (n : BridgeNet δ) : BridgeNet.Label δ → List Handle
  | .unsubscribeEvent topic => (List.range n.nextCb).map (.event topic)
  | .unsubscribeConnectivity token => if token < n.nextToken then [.observer token] else []
  | _ => []

def waitsFor (h : FenceLog δ) : BridgeNet.Label δ → List (ℕ × List Handle)
  | .drain => if h.net.ao.running then [(h.net.nextWaiter, h.withdrawn)] else []
  | _ => []

/-- The fences that are done: the worker answers one, or the bridge is stopped and `drain()` does not
wait. -/
def returns (h : FenceLog δ) : BridgeNet.Label δ → List Handle
  | .drain => if h.net.ao.running then [] else h.withdrawn
  | .effect =>
    match h.net.ao.todo with
    | .fulfil w :: _ => (h.waits.filter (fun x => x.1 = w)).flatMap Prod.snd
    | _ => []
  | _ => []

def lateIn (h : FenceLog δ) : BridgeNet.Label δ → List Handle
  | .effect => (h.net.ao.todo.head?.bind Effect.handle).toList.filter (· ∈ h.fenced)
  | _ => []

variable (valid : String → δ → Bool)

def step (h : FenceLog δ) (l : BridgeNet.Label δ) : Option (FenceLog δ) :=
  (h.net.step valid l).map (fun n => {
    net := n
    withdrawn := h.withdrawn ++ withdraws h.net l
    waits := h.waits ++ h.waitsFor l
    fenced := h.fenced ++ h.returns l
    late := h.late ++ h.lateIn l })

def started (paId : String) : FenceLog δ := ⟨.started paId, [], [], [], []⟩

/-- `start()` finds the tables free of what was unsubscribed. -/
def startsClear (h : FenceLog δ) : BridgeNet.Label δ → Bool
  | .start => h.withdrawn.all (fun x => !x.held h.net.bridge)
  | _ => true

/-- Neither in the tables nor on the way there. -/
def Clear (x : Handle) (n : BridgeNet δ) : Prop :=
  x.held n.bridge = false ∧ ∀ e ∈ n.ao.queue, x.brings e = false

/-- What was withdrawn is gone when the queue is empty, a fence is behind what was withdrawn before
it, and past the fence it is gone already. -/
structure Fences (n : BridgeNet δ) (withdrawn : List Handle) (waits : List (ℕ × List Handle))
    (fenced : List Handle) : Prop where
  gone : ∀ x ∈ withdrawn, Fence.alive x.brings x.clears (x.held n.bridge) n.ao.queue = false
  behind : ∀ y ∈ waits, ∀ x ∈ y.2,
    Fence.past x.brings x.clears (isDrain y.1) (x.held n.bridge) n.ao.queue
  reached : ∀ y ∈ waits, .fulfil y.1 ∈ n.ao.todo → ∀ x ∈ y.2, Clear x n
  clear : ∀ x ∈ fenced, Clear x n

structure Kept (h : FenceLog δ) : Prop where
  net : h.net.Attended
  issued : ∀ x ∈ h.withdrawn, x.issued h.net
  waiters : ∀ y ∈ h.waits, 0 < y.1 ∧ y.1 < h.net.nextWaiter
  known : (∀ y ∈ h.waits, ∀ x ∈ y.2, x ∈ h.withdrawn) ∧ ∀ x ∈ h.fenced, x ∈ h.withdrawn
  fences : h.net.state ≠ some .shuttingDown → Fences h.net h.withdrawn h.waits h.fenced
  silent : ∀ x ∈ h.fenced, ∀ f ∈ h.net.ao.todo, f.handle ≠ some x
  late : h.late = []

section Fences

variable {n n' : BridgeNet δ} {withdrawn : List Handle} {waits : List (ℕ × List Handle)}
  {fenced : List Handle} {e : BridgeEvent δ}

theorem Clear.push {x : Handle} (hx : Clear x n) (hheld : x.held n'.bridge = x.held n.bridge)
    (hq : n'.ao.queue = n.ao.queue ++ [e]) (hb : x.brings e = false) : Clear x n' := by
  refine ⟨hheld.trans hx.1, ?_⟩
  intro e' he'
  rw [hq] at he'
  rcases List.mem_append.mp he' with he' | he'
  · exact hx.2 e' he'
  · rw [List.mem_singleton.mp he']
    exact hb

/-- An event enters the queue that brings nothing back and is no fence that is waited for. -/
theorem Fences.push (hf : Fences n withdrawn waits fenced)
    (hknown : (∀ y ∈ waits, ∀ x ∈ y.2, x ∈ withdrawn) ∧ ∀ x ∈ fenced, x ∈ withdrawn)
    (hheld : ∀ x : Handle, x.held n'.bridge = x.held n.bridge)
    (htodo : ∀ f ∈ n'.ao.todo, f ∈ n.ao.todo) (hq : n'.ao.queue = n.ao.queue ++ [e])
    (hb : ∀ x ∈ withdrawn, x.brings e = false) (hd : ∀ y ∈ waits, isDrain y.1 e = false) :
    Fences n' withdrawn waits fenced := by
  refine ⟨?_, ?_, ?_, ?_⟩
  · intro x hx
    rw [hheld, hq, Fence.alive_push, hf.gone x hx, Fence.after, hb x hx]
    rfl
  · intro y hy x hx
    rw [hheld, hq]
    exact Fence.past_push (hf.behind y hy x hx) (hb x (hknown.1 y hy x hx)) (hd y hy)
  · intro y hy hmem x hx
    exact (hf.reached y hy (htodo _ hmem) x hx).push (hheld x) hq (hb x (hknown.1 y hy x hx))
  · intro x hx
    exact (hf.clear x hx).push (hheld x) hq (hb x (hknown.2 x hx))

theorem Fences.same (hf : Fences n withdrawn waits fenced)
    (hheld : ∀ x : Handle, x.held n'.bridge = x.held n.bridge)
    (htodo : ∀ f ∈ n'.ao.todo, f ∈ n.ao.todo) (hq : n'.ao.queue = n.ao.queue) :
    Fences n' withdrawn waits fenced := by
  have hclear : ∀ x, Clear x n → Clear x n' := by
    intro x hx
    exact ⟨(hheld x).trans hx.1, hq ▸ hx.2⟩
  refine ⟨?_, ?_, ?_, ?_⟩
  · intro x hx
    rw [hheld, hq]
    exact hf.gone x hx
  · intro y hy x hx
    rw [hheld, hq]
    exact hf.behind y hy x hx
  · intro y hy hmem x hx
    exact hclear x (hf.reached y hy (htodo _ hmem) x hx)
  · intro x hx
    exact hclear x (hf.clear x hx)

theorem Fences.withdraw {more : List Handle} (hf : Fences n withdrawn waits fenced)
    (hmore : ∀ x ∈ more,
      Fence.alive x.brings x.clears (x.held n.bridge) n.ao.queue = false) :
    Fences n (withdrawn ++ more) waits fenced := by
  refine ⟨?_, hf.behind, hf.reached, hf.clear⟩
  intro x hx
  rcases List.mem_append.mp hx with hx | hx
  · exact hf.gone x hx
  · exact hmore x hx

theorem Fences.wait {y : ℕ × List Handle} (hf : Fences n withdrawn waits fenced)
    (hbehind : ∀ x ∈ y.2,
      Fence.past x.brings x.clears (isDrain y.1) (x.held n.bridge) n.ao.queue)
    (hnot : .fulfil y.1 ∉ n.ao.todo) : Fences n withdrawn (waits ++ [y]) fenced := by
  refine ⟨hf.gone, ?_, ?_, hf.clear⟩
  · intro z hz
    rcases List.mem_append.mp hz with hz | hz
    · exact hf.behind z hz
    · obtain rfl := List.mem_singleton.mp hz
      exact hbehind
  · intro z hz hmem
    rcases List.mem_append.mp hz with hz | hz
    · exact hf.reached z hz hmem
    · obtain rfl := List.mem_singleton.mp hz
      exact absurd hmem hnot

end Fences

section Steps

variable {valid} {h h' : FenceLog δ} {l : BridgeNet.Label δ}

theorem brings_fresh {e : BridgeEvent δ} {x : Handle} (he : h.net.posts l = some e)
    (hx : x.issued h.net) : x.brings e = false := by
  cases l <;> cases he <;> try rfl
  · cases x with
    | event topic cb =>
      have hlt : cb < h.net.nextCb := by simpa [Handle.issued] using hx
      have hne : cb ≠ h.net.nextCb := Nat.ne_of_lt hlt
      simp [Handle.brings, hne]
    | observer token => rfl
  · cases x with
    | event topic cb => rfl
    | observer token =>
      have hlt : token < h.net.nextToken := by simpa [Handle.issued] using hx
      have hne : token ≠ h.net.nextToken := Nat.ne_of_lt hlt
      simp [Handle.brings, hne]

theorem issued_mono {n n' : BridgeNet δ} {x : Handle} (hx : x.issued n) (hcb : n.nextCb ≤ n'.nextCb)
    (htoken : n.nextToken ≤ n'.nextToken) : x.issued n' := by
  cases x <;> simp only [Handle.issued, decide_eq_true_eq] at hx ⊢ <;> omega

theorem clears_withdraws {e : BridgeEvent δ} {x : Handle} (he : h.net.posts l = some e)
    (hx : x ∈ withdraws h.net l) : x.issued h.net ∧ x.clears e := by
  cases l <;> cases he <;> try cases hx
  · obtain ⟨cb, hcb, rfl⟩ := List.mem_map.mp hx
    exact ⟨by simpa [Handle.issued] using hcb, by simp [Handle.clears]⟩
  · simp only [withdraws] at hx
    split at hx
    · rename_i hlt
      obtain rfl := List.mem_singleton.mp hx
      exact ⟨by simpa [Handle.issued] using hlt, by simp [Handle.clears]⟩
    · cases hx

theorem fences_post {e : BridgeEvent δ} (hk : h.Kept) (hrun : h.net.ao.running)
    (he : h.net.posts l = some e) (hst : h.net.state ≠ some .shuttingDown) :
    Fences { h.net.network l with ao := h.net.ao.post e } (h.withdrawn ++ withdraws h.net l)
      (h.waits ++ h.waitsFor l) h.fenced := by
  have hq : (h.net.ao.post e).queue = h.net.ao.queue ++ [e] := by
    rw [h.net.ao.post_queue, if_pos hrun]
  have hheld : ∀ x : Handle, x.held (h.net.ao.post e).hsm.ext = x.held h.net.bridge := by
    intro x
    exact congrArg (fun h => x.held h.ext) (h.net.ao.post_hsm e)
  have htodo : (h.net.ao.post e).todo = h.net.ao.todo :=
    congrArg (fun h => h.ext.effects) (h.net.ao.post_hsm e)
  have hf := hk.fences hst
  have hold : Fences { h.net.network l with ao := h.net.ao.post e } h.withdrawn h.waits h.fenced := by
    refine hf.push hk.known hheld (fun f hf => htodo ▸ hf) hq
      (fun x hx => brings_fresh he (hk.issued x hx)) ?_
    intro y hy
    have hlt := (hk.waiters y hy).2
    cases l <;> cases he <;> try rfl
    simp only [isDrain, decide_eq_false_iff_not]
    omega
  have hnew : Fences { h.net.network l with ao := h.net.ao.post e } (h.withdrawn ++ withdraws h.net l)
      h.waits h.fenced := by
    refine hold.withdraw ?_
    intro x hx
    obtain ⟨hissued, hclears⟩ := clears_withdraws he hx
    change Fence.alive _ _ _ (h.net.ao.post e).queue = false
    rw [hq, Fence.alive_push, Fence.after, brings_fresh he hissued, hclears]
    simp
  by_cases hdrain : l = .drain
  · subst hdrain
    obtain rfl := Option.some.inj he
    have hwaits : h.waitsFor .drain = [(h.net.nextWaiter, h.withdrawn)] := if_pos hrun
    rw [hwaits]
    refine hnew.wait ?_ ?_
    · intro x hx
      change Fence.past _ _ _ (x.held (h.net.ao.post _).hsm.ext) (h.net.ao.post _).queue
      rw [hq, hheld]
      refine Fence.past_fence (hf.gone x hx) ?_ (by simp [isDrain])
      intro e' he'
      cases e' <;> try rfl
      rename_i w
      have hlt := hk.net.drains w (.inl he')
      simp only [isDrain, decide_eq_false_iff_not]
      omega
    · intro hmem
      exact Nat.lt_irrefl _ (hk.net.drains _ (.inr (htodo ▸ hmem)))
  · have hwaits : h.waitsFor l = [] := by
      cases l <;> first | rfl | exact absurd rfl hdrain
    rw [hwaits, List.append_nil]
    exact hnew

theorem mem_waitsFor {y : ℕ × List Handle} (hy : y ∈ h.waitsFor l) :
    l = .drain ∧ y = (h.net.nextWaiter, h.withdrawn) := by
  cases l <;> try cases hy
  simp only [waitsFor] at hy
  split at hy
  · exact ⟨rfl, List.mem_singleton.mp hy⟩
  · cases hy

theorem returns_post (hl : l.isPost) :
    h.returns l = [] ∨ (h.net.ao.running = false ∧ h.returns l = h.withdrawn) := by
  cases l with
  | drain =>
    simp only [returns]
    split
    · exact .inl rfl
    · rename_i hrun
      exact .inr ⟨by simpa using hrun, rfl⟩
  | _ => first | exact .inl rfl | cases hl

theorem kept_post {e : BridgeEvent δ} (hk : h.Kept) (hl : l.isPost) (he : h.net.posts l = some e)
    (hnet : BridgeNet.Attended { h.net.network l with ao := h.net.ao.post e })
    (hnet' : h'.net = { h.net.network l with ao := h.net.ao.post e })
    (hwithdrawn : h'.withdrawn = h.withdrawn ++ withdraws h.net l)
    (hwaits : h'.waits = h.waits ++ h.waitsFor l) (hfenced : h'.fenced = h.fenced ++ h.returns l)
    (hlate : h'.late = h.late ++ h.lateIn l) : h'.Kept := by
  obtain ⟨hcb, htoken, hwaiter⟩ := h.net.network_le l
  have hstate : (h.net.ao.post e).hsm.state = h.net.state :=
    congrArg (fun h => h.state) (h.net.ao.post_hsm e)
  have htodo : (h.net.ao.post e).todo = h.net.ao.todo :=
    congrArg (fun h => h.ext.effects) (h.net.ao.post_hsm e)
  have hnone : h.lateIn l = [] := by
    cases l <;> first | rfl | cases hl
  have hreturns := returns_post (h := h) hl
  refine ⟨hnet' ▸ hnet, ?_, ?_, ?_, ?_, ?_, ?_⟩
  · intro x hx
    rw [hnet']
    rw [hwithdrawn] at hx
    rcases List.mem_append.mp hx with hx | hx
    · exact issued_mono (hk.issued x hx) hcb htoken
    · exact issued_mono (clears_withdraws he hx).1 hcb htoken
  · intro y hy
    rw [hnet']
    change 0 < y.1 ∧ y.1 < (h.net.network l).nextWaiter
    rw [hwaits] at hy
    rcases List.mem_append.mp hy with hy | hy
    · obtain ⟨hpos, hlt⟩ := hk.waiters y hy
      exact ⟨hpos, Nat.lt_of_lt_of_le hlt hwaiter⟩
    · obtain ⟨rfl, rfl⟩ := mem_waitsFor hy
      exact ⟨hk.net.numbered, Nat.lt_succ_self _⟩
  · rw [hwithdrawn, hwaits, hfenced]
    refine ⟨?_, ?_⟩
    · intro y hy x hx
      refine List.mem_append_left _ ?_
      rcases List.mem_append.mp hy with hy | hy
      · exact hk.known.1 y hy x hx
      · obtain ⟨-, rfl⟩ := mem_waitsFor hy
        exact hx
    · intro x hx
      refine List.mem_append_left _ ?_
      rcases List.mem_append.mp hx with hx | hx
      · exact hk.known.2 x hx
      · rcases hreturns with hnil | ⟨-, hall⟩
        · rw [hnil] at hx
          cases hx
        · exact hall ▸ hx
  · intro hst
    have hst : h.net.state ≠ some .shuttingDown := by
      rw [hnet'] at hst
      exact fun hdown => hst (hstate.trans hdown)
    have hrun : h.net.ao.running := by
      by_contra hno
      exact hst (hk.net.sound.stopped.running (by simpa using hno))
    rcases hreturns with hnil | ⟨hstopped, -⟩
    · rw [hnet', hwithdrawn, hwaits, hfenced, hnil, List.append_nil]
      exact fences_post hk hrun he hst
    · rw [hstopped] at hrun
      cases hrun
  · intro x hx f hf
    rw [hnet'] at hf
    have hf : f ∈ h.net.ao.todo := htodo ▸ hf
    rw [hfenced] at hx
    rcases List.mem_append.mp hx with hx | hx
    · exact hk.silent x hx f hf
    · rcases hreturns with hnil | ⟨hstopped, -⟩
      · rw [hnil] at hx
        cases hx
      · rw [hk.net.drained (hk.net.halted hstopped) f hf]
        simp
  · rw [hlate, hnone, List.append_nil]
    exact hk.late

section Effect

variable {f : Effect δ} {fs : List (Effect δ)}

theorem returns_effect (hk : h.Kept) (htodo : h.net.ao.todo = f :: fs) {x : Handle}
    (hx : x ∈ h.returns .effect) :
    fs = [] ∧ ∃ y ∈ h.waits, x ∈ y.2 ∧ f = .fulfil y.1 := by
  simp only [returns, htodo] at hx
  split at hx
  · rename_i w _ heq
    obtain ⟨rfl, rfl⟩ := List.cons.inj heq
    obtain ⟨y, hy, hxy⟩ := List.mem_flatMap.mp hx
    obtain ⟨hy, hw⟩ := List.mem_filter.mp hy
    have halone := hk.net.alone w (htodo ▸ List.mem_cons_self)
    rw [htodo] at halone
    refine ⟨(List.cons.inj halone).2, y, hy, hxy, ?_⟩
    rw [of_decide_eq_true hw]
  · cases hx

theorem lateIn_effect (hk : h.Kept) (htodo : h.net.ao.todo = f :: fs) : h.lateIn .effect = [] := by
  simp only [lateIn, htodo, List.head?_cons, Option.bind_some]
  rw [List.filter_eq_nil_iff]
  intro x hx
  have hcall : f.handle = some x := by simpa using hx
  have hhead : f ∈ h.net.ao.todo := htodo ▸ List.mem_cons_self
  simpa using fun hmem => hk.silent x hmem f hhead hcall

theorem fences_effect (hk : h.Kept) (htodo : h.net.ao.todo = f :: fs)
    (hst : h.net.state ≠ some .shuttingDown) :
    Fences { h.net.wire f with ao := (h.net.ao.setTodo fs).perform f } h.withdrawn h.waits
      h.fenced := by
  have hhsm := (h.net.ao.setTodo fs).perform_hsm f
  have htodo' : ((h.net.ao.setTodo fs).perform f).todo = fs :=
    congrArg (fun h => h.ext.effects) hhsm
  have hheld : ∀ x : Handle,
      x.held ((h.net.ao.setTodo fs).perform f).hsm.ext = x.held h.net.bridge := by
    intro x
    have heq := congrArg (fun h => x.held h.ext) hhsm
    cases x <;> exact heq
  have hmem : ∀ g ∈ ((h.net.ao.setTodo fs).perform f).todo, g ∈ h.net.ao.todo := by
    intro g hg
    rw [htodo'] at hg
    exact htodo ▸ List.mem_cons_of_mem _ hg
  have hf := hk.fences hst
  rcases (h.net.ao.setTodo fs).perform_queue f with hq | ⟨e, rfl, hq⟩
  · exact hf.same hheld hmem hq
  · have hhead : .postFifo e ∈ h.net.ao.todo := htodo ▸ List.mem_cons_self
    have hdefer : deferrable e := hk.net.sound.accounted.orderly.posts e hhead
    refine hf.push hk.known hheld hmem hq ?_ ?_
    · intro x _
      cases e <;> first | rfl | cases hdefer
    · intro y _
      cases e <;> first | rfl | cases hdefer

theorem clear_returns (hk : h.Kept) (htodo : h.net.ao.todo = f :: fs)
    (hst : h.net.state ≠ some .shuttingDown) {x : Handle} (hx : x ∈ h.returns .effect) :
    Clear x { h.net.wire f with ao := (h.net.ao.setTodo fs).perform f } := by
  obtain ⟨-, y, hy, hxy, rfl⟩ := returns_effect hk htodo hx
  obtain ⟨hno, hqueue⟩ := (hk.fences hst).reached y hy (htodo ▸ List.mem_cons_self) x hxy
  have hq : ((h.net.ao.setTodo fs).perform (.fulfil y.1)).queue = h.net.ao.queue := by
    dsimp only [BridgeAO.perform]
    split <;> rfl
  have hheld := congrArg (fun h => x.held h.ext) ((h.net.ao.setTodo fs).perform_hsm (.fulfil y.1))
  refine ⟨Eq.trans ?_ hno, ?_⟩
  · cases x <;> exact hheld
  · intro e he
    exact hqueue e (hq ▸ he)

theorem kept_effect (hk : h.Kept) (htodo : h.net.ao.todo = f :: fs) (hnet : h'.net.Attended)
    (hnet' : h'.net = { h.net.wire f with ao := (h.net.ao.setTodo fs).perform f })
    (hwithdrawn : h'.withdrawn = h.withdrawn) (hwaits : h'.waits = h.waits)
    (hfenced : h'.fenced = h.fenced ++ h.returns .effect)
    (hlate : h'.late = h.late ++ h.lateIn .effect) : h'.Kept := by
  have hhsm : h'.net.ao.hsm = (h.net.ao.setTodo fs).hsm := by
    rw [hnet']
    exact BridgeAO.perform_hsm _ f
  have htodo' : h'.net.ao.todo = fs := congrArg (fun h => h.ext.effects) hhsm
  have hstate : h'.net.state = h.net.state := congrArg (fun h => h.state) hhsm
  have hcount : h'.net.nextCb = h.net.nextCb ∧ h'.net.nextToken = h.net.nextToken ∧
      h'.net.nextWaiter = h.net.nextWaiter := by
    rw [hnet']
    cases f <;> dsimp only [BridgeNet.wire] <;> try split
    all_goals exact ⟨rfl, rfl, rfl⟩
  refine ⟨hnet, ?_, ?_, ?_, ?_, ?_, ?_⟩
  · intro x hx
    exact issued_mono (hk.issued x (hwithdrawn ▸ hx)) hcount.1.ge hcount.2.1.ge
  · rw [hwaits, hcount.2.2]
    exact hk.waiters
  · rw [hwithdrawn, hwaits, hfenced]
    refine ⟨hk.known.1, ?_⟩
    intro x hx
    rcases List.mem_append.mp hx with hx | hx
    · exact hk.known.2 x hx
    · obtain ⟨-, y, hy, hxy, -⟩ := returns_effect hk htodo hx
      exact hk.known.1 y hy x hxy
  · intro hst
    rw [hstate] at hst
    have hf := fences_effect hk htodo hst
    rw [hwithdrawn, hwaits, hfenced, hnet']
    refine ⟨hf.gone, hf.behind, hf.reached, ?_⟩
    intro x hx
    rcases List.mem_append.mp hx with hx | hx
    · exact hf.clear x hx
    · exact clear_returns hk htodo hst hx
  · intro x hx g hg
    rw [htodo'] at hg
    rw [hfenced] at hx
    rcases List.mem_append.mp hx with hx | hx
    · exact hk.silent x hx g (htodo ▸ List.mem_cons_of_mem _ hg)
    · rw [(returns_effect hk htodo hx).1] at hg
      cases hg
  · rw [hlate, lateIn_effect hk htodo, List.append_nil]
    exact hk.late

end Effect

section Take

variable {w : World} {st : BridgeState} {e : BridgeEvent δ} {rest : List (BridgeEvent δ)}

theorem fences_take (hk : h.Kept) (hst : h.net.state = some st) (hup : st ≠ .shuttingDown)
    (htodo : h.net.ao.todo = []) (hq : h.net.ao.queue = e :: rest) (hq' : h'.net.ao.queue = rest)
    (hext : h'.net.bridge = (react valid st e { h.net.bridge with world := w }).2) :
    Fences h'.net h.withdrawn h.waits h.fenced := by
  have hf := hk.fences (by rw [hst]; exact fun heq => hup (Option.some.inj heq))
  have hheld : ∀ x : Handle, x.held h'.net.bridge →
      Fence.after x.brings x.clears (x.held h.net.bridge) e := by
    intro x hx
    rw [hext] at hx
    have hafter := x.held_react valid hup hx
    cases x <;> exact hafter
  have hlast : ∀ x : Handle, x.held h.net.bridge = false → (x.brings e = false) →
      (∀ e' ∈ rest, x.brings e' = false) → Clear x h'.net := by
    intro x hno hb hrest
    refine ⟨?_, hq' ▸ hrest⟩
    by_contra hyes
    have hafter := hheld x (by simpa using hyes)
    rw [Fence.after, hno, hb] at hafter
    cases hafter
  refine ⟨?_, ?_, ?_, ?_⟩
  · intro x hx
    have hgone := hf.gone x hx
    rw [hq] at hgone
    rw [hq']
    by_contra halive
    have hcontra := Fence.alive_mono (hheld x) (by simpa using halive)
    rw [show Fence.alive x.brings x.clears (Fence.after x.brings x.clears (x.held h.net.bridge) e)
      rest = false from hgone] at hcontra
    cases hcontra
  · intro y hy x hx
    have hbehind := hf.behind y hy x hx
    rw [hq] at hbehind
    rw [hq']
    by_cases hd : isDrain y.1 e
    · obtain ⟨hno, hrest⟩ := hbehind.1 hd
      have hb : x.brings e = false := by cases e <;> first | rfl | cases hd
      have hclear := hlast x hno hb hrest
      rw [hclear.1]
      exact Fence.past_of_clear hrest
    · exact Fence.past_mono (hheld x) (hbehind.2 (by simpa using hd))
  · intro y hy hmem x hx
    have hnone : ({ h.net.bridge with world := w } : Bridge δ).effects = [] := htodo
    have htodo' : h'.net.ao.todo = (react valid st e { h.net.bridge with world := w }).2.effects :=
      congrArg Bridge.effects hext
    rw [htodo'] at hmem
    obtain ⟨rfl, -⟩ := BridgeNet.fulfil_of_react hnone hmem
    have hbehind := hf.behind y hy x hx
    rw [hq] at hbehind
    obtain ⟨hno, hrest⟩ := hbehind.1 (by simp [isDrain])
    exact hlast x hno rfl hrest
  · intro x hx
    obtain ⟨hno, hqueue⟩ := hf.clear x hx
    rw [hq] at hqueue
    exact hlast x hno (hqueue e List.mem_cons_self)
      (fun e' he' => hqueue e' (List.mem_cons_of_mem _ he'))

theorem silent_take (hk : h.Kept) (hst : h.net.state = some st) (htodo : h.net.ao.todo = [])
    (hq : h.net.ao.queue = e :: rest)
    (hext : h'.net.bridge = (react valid st e { h.net.bridge with world := w }).2) :
    ∀ x ∈ h.fenced, ∀ f ∈ h'.net.ao.todo, f.handle ≠ some x := by
  intro x hx f hf hcall
  have hnone : ({ h.net.bridge with world := w } : Bridge δ).effects = [] := htodo
  have htodo' : h'.net.ao.todo = (react valid st e { h.net.bridge with world := w }).2.effects :=
    congrArg Bridge.effects hext
  obtain ⟨es, heq, hes⟩ := react_leaves valid st e { h.net.bridge with world := w }
  rw [hnone, List.nil_append] at heq
  rw [htodo', heq] at hf
  have hemits := hes f hf
  have hclear : st ≠ .shuttingDown → Clear x h.net := by
    intro hup
    exact (hk.fences (by rw [hst]; exact fun heq => hup (Option.some.inj heq))).clear x hx
  cases f with
  | deliver cb topic env =>
    obtain rfl := Option.some.inj hcall
    obtain ⟨rfl, -, s, hs, htopic, hcb⟩ := hemits
    have hno := (hclear (by simp)).1
    have hyes : Handle.held (.event topic cb) h.net.bridge := by
      simp only [Handle.held, List.any_eq_true]
      exact ⟨s, hs, by simp [htopic, hcb]⟩
    rw [hno] at hyes
    cases hyes
  | connectivity token up =>
    obtain rfl := Option.some.inj hcall
    rcases hemits with ⟨hmem, hsome⟩ | ⟨rfl, rfl⟩
    · have hup : st ≠ .shuttingDown := by
        rintro rfl
        cases hsome
      have hno := (hclear hup).1
      have hyes : Handle.held (.observer token) h.net.bridge := by
        simpa [Handle.held] using hmem
      rw [hno] at hyes
      cases hyes
    · have hbrings := (hclear (by simp)).2 _ (by rw [hq]; exact List.mem_cons_self)
      simp [Handle.brings] at hbrings
  | _ => cases hcall

end Take

theorem kept_take {w : World} {st : BridgeState} {e : BridgeEvent δ}
    {rest : List (BridgeEvent δ)} (hk : h.Kept) (hst : h.net.state = some st)
    (htodo : h.net.ao.todo = []) (hq : h.net.ao.queue = e :: rest) (hq' : h'.net.ao.queue = rest)
    (hstate : h'.net.state = some (react valid st e { h.net.bridge with world := w }).1)
    (hext : h'.net.bridge = (react valid st e { h.net.bridge with world := w }).2)
    (hnet : h'.net.Attended) (hcb : h'.net.nextCb = h.net.nextCb)
    (htoken : h'.net.nextToken = h.net.nextToken) (hwaiter : h'.net.nextWaiter = h.net.nextWaiter)
    (hwithdrawn : h'.withdrawn = h.withdrawn) (hwaits : h'.waits = h.waits)
    (hfenced : h'.fenced = h.fenced) (hlate : h'.late = h.late) : h'.Kept := by
  refine ⟨hnet, ?_, ?_, ?_, ?_, ?_, hlate.trans hk.late⟩
  · intro x hx
    exact issued_mono (hk.issued x (hwithdrawn ▸ hx)) hcb.ge htoken.ge
  · rw [hwaits, hwaiter]
    exact hk.waiters
  · rw [hwithdrawn, hwaits, hfenced]
    exact hk.known
  · intro hst'
    have hup : st ≠ .shuttingDown := by
      rintro rfl
      rw [hstate, react_fst] at hst'
      exact hst' rfl
    rw [hwithdrawn, hwaits, hfenced]
    exact fences_take hk hst hup htodo hq hq' hext
  · rw [hfenced]
    exact silent_take hk hst htodo hq hext

theorem kept_control {ao : BridgeAO δ} (hk : h.Kept) (hhsm : ao.hsm = h.net.ao.hsm)
    (hq : ao.queue = h.net.ao.queue ∨ ao.queue = h.net.ao.queue ++ [BridgeEvent.stop] ∨
      ao.queue = h.net.ao.queue ++ [BridgeEvent.drain 0]) (hnet : h'.net.Attended)
    (hnet' : h'.net = { h.net with ao := ao }) (hwithdrawn : h'.withdrawn = h.withdrawn)
    (hwaits : h'.waits = h.waits) (hfenced : h'.fenced = h.fenced) (hlate : h'.late = h.late) :
    h'.Kept := by
  have hstate : h'.net.state = h.net.state := by
    rw [hnet']
    exact congrArg (fun h => h.state) hhsm
  have htodo : h'.net.ao.todo = h.net.ao.todo := by
    rw [hnet']
    exact congrArg (fun h => h.ext.effects) hhsm
  have hheld : ∀ x : Handle, x.held h'.net.bridge = x.held h.net.bridge := by
    intro x
    rw [hnet']
    exact congrArg (fun h => x.held h.ext) hhsm
  have hqueue : h'.net.ao.queue = h.net.ao.queue ∨ h'.net.ao.queue = h.net.ao.queue ++
      [BridgeEvent.stop] ∨ h'.net.ao.queue = h.net.ao.queue ++ [BridgeEvent.drain 0] := by
    rw [hnet']
    exact hq
  refine ⟨hnet, ?_, ?_, ?_, ?_, ?_, hlate.trans hk.late⟩
  · rw [hwithdrawn, hnet']
    exact hk.issued
  · rw [hwaits, hnet']
    exact hk.waiters
  · rw [hwithdrawn, hwaits, hfenced]
    exact hk.known
  · intro hst
    rw [hstate] at hst
    have hf := hk.fences hst
    rw [hwithdrawn, hwaits, hfenced]
    rcases hqueue with hq | hq | hq
    · exact hf.same hheld (fun f hf => htodo ▸ hf) hq
    · exact hf.push hk.known hheld (fun f hf => htodo ▸ hf) hq (fun _ _ => rfl) (fun _ _ => rfl)
    · refine hf.push hk.known hheld (fun f hf => htodo ▸ hf) hq (fun _ _ => rfl) ?_
      intro y hy
      have hpos := (hk.waiters y hy).1
      simp only [isDrain, decide_eq_false_iff_not]
      omega
  · rw [hfenced, htodo]
    exact hk.silent

theorem kept_start (hk : h.Kept) (hclear : h.startsClear .start)
    (hret : h.net.ao.stopPhase = .returned) (hnet : h'.net.Attended)
    (hnet' : h'.net = { h.net with ao := h.net.ao.restart }) (hwithdrawn : h'.withdrawn = h.withdrawn)
    (hwaits : h'.waits = h.waits) (hfenced : h'.fenced = h.fenced) (hlate : h'.late = h.late) :
    h'.Kept := by
  have htodo : h'.net.ao.todo = [] := by
    rw [hnet']
    exact (hk.net.sound.stopped.returned hret).2
  have hq : h'.net.ao.queue = [.start] := by
    rw [hnet']
    rfl
  have hno : ∀ x ∈ h.withdrawn, x.held h'.net.bridge = false := by
    intro x hx
    have hx := List.all_eq_true.mp hclear x hx
    rw [Bool.not_eq_true'] at hx
    rw [hnet']
    exact hx
  have hgone : ∀ x ∈ h.withdrawn, Clear x h'.net := by
    intro x hx
    refine ⟨hno x hx, ?_⟩
    intro e he
    rw [hq] at he
    rw [List.mem_singleton.mp he]
    rfl
  refine ⟨hnet, ?_, ?_, ?_, ?_, ?_, hlate.trans hk.late⟩
  · rw [hwithdrawn, hnet']
    exact hk.issued
  · rw [hwaits, hnet']
    exact hk.waiters
  · rw [hwithdrawn, hwaits, hfenced]
    exact hk.known
  · intro _
    rw [hwithdrawn, hwaits, hfenced]
    refine ⟨?_, ?_, ?_, fun x hx => hgone x (hk.known.2 x hx)⟩
    · intro x hx
      rw [hno x hx, hq]
      rfl
    · intro y hy x hx
      rw [hno x (hk.known.1 y hy x hx)]
      exact Fence.past_of_clear (hgone x (hk.known.1 y hy x hx)).2
    · intro y _ hmem
      rw [htodo] at hmem
      cases hmem
  · intro x _ f hf
    rw [htodo] at hf
    cases hf

theorem step_kept (hk : h.Kept) (hclear : h.startsClear l) (hstep : h.step valid l = some h') :
    h'.Kept := by
  obtain ⟨n, hn, rfl⟩ := Option.map_eq_some_iff.mp hstep
  have hnet := BridgeNet.step_attended hk.net hn
  cases BridgeNet.step_moves hk.net.sound hn with
  | post hl he hen hpost => exact kept_post hk hl he hnet rfl rfl rfl rfl rfl
  | take hst hleaf htodo hq hstate hext =>
    exact kept_take hk hst htodo hq rfl hstate hext hnet rfl rfl rfl (List.append_nil _)
      (List.append_nil _) (List.append_nil _) (List.append_nil _)
  | effect htodo =>
    exact kept_effect hk htodo hnet rfl (List.append_nil _) (List.append_nil _) rfl rfl
  | control hl hhsm hent hdrained hhalt hq hkind heff =>
    have hsame : withdraws h.net l = [] ∧ h.waitsFor l = [] ∧ h.returns l = [] ∧ h.lateIn l = [] := by
      cases l <;> first | exact ⟨rfl, rfl, rfl, rfl⟩ | exact absurd rfl heff | cases hl
    obtain ⟨hwithdraws, hwaitsFor, hreturns, hlateIn⟩ := hsame
    exact kept_control hk hhsm hq hnet rfl (by rw [hwithdraws, List.append_nil])
      (by rw [hwaitsFor, List.append_nil]) (by rw [hreturns, List.append_nil])
      (by rw [hlateIn, List.append_nil])
  | start hret =>
    exact kept_start hk hclear hret hnet rfl (List.append_nil _) (List.append_nil _)
      (List.append_nil _) (List.append_nil _)

theorem started_fences (paId : String) : (started paId : FenceLog δ).Kept where
  net := by
    refine ⟨BridgeNet.started_sound paId, ?_, (fun _ h => by cases h), (fun h => by cases h),
      (fun h => by cases h), Nat.one_pos⟩
    rintro w (hw | hw)
    · cases List.mem_singleton.mp hw
    · cases hw
  issued _ h := by cases h
  waiters _ h := by cases h
  known := ⟨(fun _ h => by cases h), (fun _ h => by cases h)⟩
  fences _ := ⟨(fun _ h => by cases h), (fun _ h => by cases h), (fun _ h => by cases h),
    (fun _ h => by cases h)⟩
  silent _ h := by cases h
  late := rfl

end Steps

/-- In a run in which every start finds the tables free of what was unsubscribed, no callback is
called once it was unsubscribed and a `drain()` called after that has returned. -/
theorem never_late_of_startsClear {paId : String} {l : List (BridgeNet.Label δ)} {h : FenceLog δ}
    (hclear : Trace.AllSteps (step valid) (fun h l => h.startsClear l) (started paId) l)
    (hrun : Trace.run (step valid) (started paId) l = some h) : h.late = [] :=
  (Trace.run_invariant_of (I := Kept) (fun _ _ _ hk hok hstep => step_kept hk hok hstep) hclear hrun
    (started_fences paId)).late

/-- A message on a topic without a schema. -/
def note (topic : String) : Message Unit := ⟨topic, some ⟨"", none, none⟩⟩

def restartRun : List (BridgeNet.Label Unit) :=
  [.subscribeEvent "a" "", .take calm, .take calm, .onConnect true, .take calm, .effect, .effect,
    .effect, .effect, .take calm, .onMessage (note "a"), .unsubscribeEvent "a", .drain, .take calm,
    .effect, .take calm, .effect, .take calm, .effect, .stopCall, .stopDrain, .take calm, .effect,
    .take calm, .effect, .halt, .join, .start]

def swallowedRun : List (BridgeNet.Label Unit) :=
  [.subscribeEvent "a" "", .take calm, .take calm, .stopCall, .take calm, .effect,
    .unsubscribeEvent "a", .drain, .stopDrain, .take calm, .take calm, .effect, .take calm, .effect,
    .halt, .join, .start, .take calm, .onConnect true, .take calm, .effect, .effect, .effect, .effect,
    .take calm, .onMessage (note "a"), .take calm, .effect]

theorem never_late_restartRun :
    ∃ h, Trace.run (step (fun _ _ => true)) (started "pa") restartRun = some h ∧
      h.fenced = [.event "a" 0] ∧ h.late = [] := by
  have hrun : (Trace.run (step (fun _ _ => true)) (started "pa") restartRun).map
      (fun h => h.fenced) = some [.event "a" 0] := by
    decide +kernel
  obtain ⟨h, hh, hfenced⟩ := Option.map_eq_some_iff.mp hrun
  exact ⟨h, hh, hfenced, never_late_of_startsClear _ (by decide +kernel) hh⟩

/-- The callback is called though it was unsubscribed and drained before the bridge was started
again. -/
theorem swallowed_called_late :
    ∃ h, Trace.run (step (fun _ _ => true)) (started "pa") swallowedRun = some h ∧
      h.fenced = [.event "a" 0] ∧ h.late = [.event "a" 0] := by
  have hrun : (Trace.run (step (fun _ _ => true)) (started "pa") swallowedRun).map
      (fun h => (h.fenced, h.late)) = some ([.event "a" 0], [.event "a" 0]) := by
    decide +kernel
  obtain ⟨h, hh, heq⟩ := Option.map_eq_some_iff.mp hrun
  obtain ⟨hfenced, hlate⟩ := Prod.mk.inj heq
  exact ⟨h, hh, hfenced, hlate⟩

end FenceLog

end TelafSim.ModemBridge
