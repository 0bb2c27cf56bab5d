import TelafSim.Trace

/-!
# The active object

`chart/active_object.hpp` after `start_at`: one worker takes the events from the queue, any number of
threads post and stop, handlers included. A post takes the lock and notifies the worker when it has
released it; `stop()` clears the flag under the lock, notifies, joins the worker and takes the lock
once more. The steps of these calls and of the worker interleave; a wait may end without a
notification. `stop()` is called from other threads, as its comment asks, and handlers return.

`accepted`, `dispatched` and `stopper` are recorded for the statements: the events that were queued,
those that were handed to `dispatch`, and the call that has cleared the flag.
-/

namespace TelafSim.Chart

/-- Where the worker stands in `run()`: before the lock, in `cv_.wait`, in `dispatch`, or past it. -/
inductive Worker (ε : Type)
  | looking
  | waiting
  | handling (e : ε)
  | exited
  deriving DecidableEq

/-- A notification ends the wait. -/
def Worker.notified {ε : Type} : Worker ε → Worker ε
  | .waiting => .looking
  | w => w

/-- Where a call stands: not made, past the lock of a post or of `stop()` and before the
notification, waiting for the worker to end, before the second lock, or over. -/
inductive Call
  | unused
  | posted
  | stopping
  | joining
  | clearing
  | returned
  deriving DecidableEq, Repr

def Call.notifies : Call → Bool
  | .posted => true
  | .stopping => true
  | _ => false

/-- What `stop()` does after it has cleared the flag. -/
def Call.stops : Call → Bool
  | .stopping => true
  | .joining => true
  | .clearing => true
  | _ => false

structure ActiveObject (κ ε : Type) where
  queue : List ε
  running : Bool
  worker : Worker ε
  calls : κ → Call
  accepted : List ε
  dispatched : List ε
  stopper : Option κ

inductive Label (κ ε : Type)
  | postFifo (c : κ) (e : ε)
  | postLifo (c : κ) (e : ε)
  | stop (c : κ)
  | notify (c : κ)
  | join (c : κ)
  | clear (c : κ)
  | look
  | handled
  /-- The wait ends by itself. -/
  | spurious

/-- Calls that have begun and the worker go on; nobody calls, and no wait ends by itself. -/
def Label.internal {κ ε : Type} : Label κ ε → Bool
  | .notify _ => true
  | .join _ => true
  | .clear _ => true
  | .look => true
  | .handled => true
  | _ => false

def Label.isLifo {κ ε : Type} : Label κ ε → Bool
  | .postLifo _ _ => true
  | _ => false

namespace ActiveObject

variable {κ ε : Type}

def started : ActiveObject κ ε where
  queue := []
  running := true
  worker := .looking
  calls := fun _ => .unused
  accepted := []
  dispatched := []
  stopper := none

def notifyOne (a : ActiveObject κ ε) : ActiveObject κ ε :=
  { a with worker := a.worker.notified }

/-- The worker holds the lock: the test of the wait, and what follows it. -/
def look (a : ActiveObject κ ε) : ActiveObject κ ε :=
  match a.queue with
  | e :: rest =>
    { a with worker := .handling e, queue := rest, dispatched := a.dispatched ++ [e] }
  | [] => if a.running then { a with worker := .waiting } else { a with worker := .exited }

section Steps

variable [DecidableEq κ]

def setCall (c : κ) (s : Call) (a : ActiveObject κ ε) : ActiveObject κ ε :=
  { a with calls := Function.update a.calls c s }

def postFifo (c : κ) (e : ε) (a : ActiveObject κ ε) : ActiveObject κ ε :=
  if a.running then
    { a with queue := a.queue ++ [e], accepted := a.accepted ++ [e] }.setCall c .posted
  else a.setCall c .returned

def postLifo (c : κ) (e : ε) (a : ActiveObject κ ε) : ActiveObject κ ε :=
  if a.running then
    { a with queue := e :: a.queue, accepted := a.accepted ++ [e] }.setCall c .posted
  else a.setCall c .returned

/-- The first critical section of `stop()`. -/
def stop (c : κ) (a : ActiveObject κ ε) : ActiveObject κ ε :=
  if a.running then { a with running := false, stopper := some c }.setCall c .stopping
  else a.setCall c .returned

def step (a : ActiveObject κ ε) : Label κ ε → Option (ActiveObject κ ε)
  | .postFifo c e => if a.calls c = .unused then some (a.postFifo c e) else none
  | .postLifo c e => if a.calls c = .unused then some (a.postLifo c e) else none
  | .stop c => if a.calls c = .unused then some (a.stop c) else none
  | .notify c =>
    match a.calls c with
    | .posted => some (a.notifyOne.setCall c .returned)
    | .stopping => some (a.notifyOne.setCall c .joining)
    | _ => none
  | .join c =>
    match a.calls c, a.worker with
    | .joining, .exited => some (a.setCall c .clearing)
    | _, _ => none
  | .clear c =>
    match a.calls c with
    | .clearing => some ({ a with queue := [] }.setCall c .returned)
    | _ => none
  | .look =>
    match a.worker with
    | .looking => some a.look
    | _ => none
  | .handled =>
    match a.worker with
    | .handling _ => some { a with worker := .looking }
    | _ => none
  | .spurious =>
    match a.worker with
    | .waiting => some { a with worker := .looking }
    | _ => none

end Steps

/-- The worker sleeps only while there is nothing for it to do, or a notification is on its way. -/
def Awake (a : ActiveObject κ ε) : Prop :=
  a.worker = .waiting → (a.queue = [] ∧ a.running = true) ∨ ∃ c, (a.calls c).notifies = true

/-- The one call that has cleared the flag is in `stop()` or past it, and past the join only when
the worker has ended. -/
structure Stopping (a : ActiveObject κ ε) : Prop where
  stopping : ∀ c, (a.calls c).stops = true → a.stopper = some c
  stopper : ∀ c, a.stopper = some c → (a.calls c).stops = true ∨ a.calls c = .returned
  joined : ∀ c, a.stopper = some c → a.calls c = .clearing ∨ a.calls c = .returned →
    a.worker = .exited

structure Sound (a : ActiveObject κ ε) : Prop where
  conserved : a.accepted.Perm (a.dispatched ++ a.queue)
  awake : a.Awake
  exited : a.worker = .exited → a.running = false ∧ a.queue = []
  flag : a.running = a.stopper.isNone
  stopping : a.Stopping

variable {a a' : ActiveObject κ ε} {c : κ} {e : ε}

theorem sound_started : (started : ActiveObject κ ε).Sound := by
  refine ⟨?_, ?_, ?_, ?_, ?_, ?_, ?_⟩ <;> simp [started, Awake, Call.stops]

theorem notified_ne (w : Worker ε) : w.notified ≠ .waiting := by
  cases w <;> simp [Worker.notified]

@[simp] theorem notified_exited {w : Worker ε} : w.notified = .exited ↔ w = .exited := by
  cases w <;> simp [Worker.notified]

theorem Stopping.stopper_ne (h : a.Stopping) (hstops : (a.calls c).stops = false)
    (hreturned : a.calls c ≠ .returned) : a.stopper ≠ some c := by
  intro hc
  rcases h.stopper c hc with hs | hs
  · rw [hstops] at hs
    cases hs
  · exact hreturned hs

section Calls

variable [DecidableEq κ]

@[simp] theorem calls_setCall_self (c : κ) (s : Call) (a : ActiveObject κ ε) :
    (a.setCall c s).calls c = s := Function.update_self ..

theorem calls_setCall_of_ne {c' : κ} (h : c' ≠ c) (s : Call) (a : ActiveObject κ ε) :
    (a.setCall c s).calls c' = a.calls c' := Function.update_of_ne h ..

theorem Stopping.setCall (h : a.Stopping) {s : Call} (hc : a.stopper ≠ some c)
    (hs : s.stops = false) : (a.setCall c s).Stopping := by
  have hne : ∀ c', a.stopper = some c' → c' ≠ c := fun c' hc' heq => hc (heq ▸ hc')
  constructor
  · intro c' hc'
    by_cases heq : c' = c
    · rw [heq, calls_setCall_self, hs] at hc'
      cases hc'
    · rw [calls_setCall_of_ne heq] at hc'
      exact h.stopping c' hc'
  · intro c' hc'
    rw [calls_setCall_of_ne (hne c' hc')]
    exact h.stopper c' hc'
  · intro c' hc'
    rw [calls_setCall_of_ne (hne c' hc')]
    exact h.joined c' hc'

theorem Stopping.setStopper {s : Call} (h : ∀ c', (a.calls c').stops = true → c' = c)
    (hc : a.stopper = some c) (hs : s.stops = true ∨ s = .returned)
    (hexited : s = .clearing ∨ s = .returned → a.worker = .exited) :
    (a.setCall c s).Stopping := by
  constructor
  · intro c' hc'
    by_cases heq : c' = c
    · exact heq ▸ hc
    · rw [calls_setCall_of_ne heq] at hc'
      exact absurd (h c' hc') heq
  · intro c' hc'
    obtain rfl : c = c' := Option.some.inj (hc.symm.trans hc')
    rwa [calls_setCall_self]
  · intro c' hc'
    obtain rfl : c = c' := Option.some.inj (hc.symm.trans hc')
    rwa [calls_setCall_self]

theorem Awake.setCall (h : a.Awake) {s : Call}
    (hs : (a.calls c).notifies = true → s.notifies = true) : (a.setCall c s).Awake := by
  intro hw
  refine (h hw).imp_right ?_
  rintro ⟨c', hc'⟩
  by_cases heq : c' = c
  · exact ⟨c, by rw [calls_setCall_self]; exact hs (heq ▸ hc')⟩
  · exact ⟨c', by rwa [calls_setCall_of_ne heq]⟩

namespace Sound

variable (h : a.Sound)
include h

theorem refuse (hc : a.calls c = .unused) : (a.setCall c .returned).Sound where
  conserved := h.conserved
  awake := h.awake.setCall (by simp [hc, Call.notifies])
  exited := h.exited
  flag := h.flag
  stopping := h.stopping.setCall
    (h.stopping.stopper_ne (by simp [hc, Call.stops]) (by simp [hc])) rfl

theorem queued {q : List ε} (hrunning : a.running = true) (hc : a.calls c = .unused)
    (hq : q.Perm (a.queue ++ [e])) :
    ({ a with queue := q, accepted := a.accepted ++ [e] }.setCall c .posted).Sound := by
  have hne : a.stopper ≠ some c :=
    h.stopping.stopper_ne (by simp [hc, Call.stops]) (by simp [hc])
  have hstopping : Stopping { a with queue := q, accepted := a.accepted ++ [e] } :=
    ⟨h.stopping.stopping, h.stopping.stopper, h.stopping.joined⟩
  refine ⟨?_, ?_, ?_, h.flag, hstopping.setCall hne rfl⟩
  · have hperm := h.conserved.append_right [e]
    rw [List.append_assoc] at hperm
    exact hperm.trans (hq.symm.append_left a.dispatched)
  · exact fun _ => .inr ⟨c, by rw [calls_setCall_self]; rfl⟩
  · intro hw
    have hoff := (h.exited hw).1
    rw [hrunning] at hoff
    cases hoff

theorem postFifo (hc : a.calls c = .unused) : (a.postFifo c e).Sound := by
  unfold ActiveObject.postFifo
  split
  · rename_i hrunning
    exact h.queued hrunning hc (List.Perm.refl _)
  · exact h.refuse hc

theorem postLifo (hc : a.calls c = .unused) : (a.postLifo c e).Sound := by
  unfold ActiveObject.postLifo
  split
  · rename_i hrunning
    exact h.queued hrunning hc (List.perm_append_singleton e a.queue).symm
  · exact h.refuse hc

theorem stop (hc : a.calls c = .unused) : (a.stop c).Sound := by
  unfold ActiveObject.stop
  split
  · rename_i hrunning
    have hnone : a.stopper = none := by
      rw [← Option.isNone_iff_eq_none, ← h.flag]
      exact hrunning
    have hfree : ∀ c', (a.calls c').stops = true → c' = c := by
      intro c' hc'
      have hsome := h.stopping.stopping c' hc'
      rw [hnone] at hsome
      cases hsome
    refine ⟨h.conserved, ?_, ?_, rfl, Stopping.setStopper hfree rfl (.inl rfl) (by simp)⟩
    · exact fun _ => .inr ⟨c, by rw [calls_setCall_self]; rfl⟩
    · exact fun hw => ⟨rfl, (h.exited hw).2⟩
  · exact h.refuse hc

theorem notifyPosted (hc : a.calls c = .posted) : (a.notifyOne.setCall c .returned).Sound where
  conserved := h.conserved
  awake := fun hw => absurd hw (notified_ne a.worker)
  exited := fun hw => h.exited (notified_exited.mp hw)
  flag := h.flag
  stopping := by
    have hstopping : a.notifyOne.Stopping :=
      ⟨h.stopping.stopping, h.stopping.stopper,
        fun c' hc' hs => notified_exited.mpr (h.stopping.joined c' hc' hs)⟩
    exact hstopping.setCall (h.stopping.stopper_ne (by simp [hc, Call.stops]) (by simp [hc])) rfl

omit [DecidableEq κ] in
theorem only (hc : (a.calls c).stops = true) : ∀ c', (a.calls c').stops = true → c' = c := by
  intro c' hc'
  exact Option.some.inj ((h.stopping.stopping c' hc').symm.trans (h.stopping.stopping c hc))

/-- The notification of `stop()`. -/
theorem notifyStopping (hc : a.calls c = .stopping) : (a.notifyOne.setCall c .joining).Sound where
  conserved := h.conserved
  awake := fun hw => absurd hw (notified_ne a.worker)
  exited := fun hw => h.exited (notified_exited.mp hw)
  flag := h.flag
  stopping := by
    have hstops : (a.calls c).stops = true := by rw [hc]; rfl
    exact Stopping.setStopper (h.only hstops) (h.stopping.stopping c hstops) (.inl rfl) (by simp)

theorem join (hc : a.calls c = .joining) (hw : a.worker = .exited) :
    (a.setCall c .clearing).Sound where
  conserved := h.conserved
  awake := h.awake.setCall (by simp [hc, Call.notifies])
  exited := h.exited
  flag := h.flag
  stopping := by
    have hstops : (a.calls c).stops = true := by rw [hc]; rfl
    exact Stopping.setStopper (h.only hstops) (h.stopping.stopping c hstops) (.inl rfl)
      (fun _ => hw)

omit [DecidableEq κ] in
/-- There is nothing left for the second critical section of `stop()` to drop. -/
theorem queue_of_clearing (hc : a.calls c = .clearing) :
    a.stopper = some c ∧ a.worker = .exited ∧ a.queue = [] := by
  have hstopper := h.stopping.stopping c (by rw [hc]; rfl)
  have hw := h.stopping.joined c hstopper (.inl hc)
  exact ⟨hstopper, hw, (h.exited hw).2⟩

theorem clear (hc : a.calls c = .clearing) : ({ a with queue := [] }.setCall c .returned).Sound := by
  obtain ⟨hstopper, hw, hqueue⟩ := h.queue_of_clearing hc
  have hstops : (a.calls c).stops = true := by rw [hc]; rfl
  refine ⟨?_, ?_, fun hw' => ⟨(h.exited hw').1, rfl⟩, h.flag, ?_⟩
  · have hperm := h.conserved
    rwa [hqueue] at hperm
  · intro hw'
    rw [show a.worker = .waiting from hw'] at hw
    cases hw
  · exact Stopping.setStopper (h.only hstops) hstopper (.inr rfl) (fun _ => hw)

omit [DecidableEq κ] in
theorem look (hw : a.worker = .looking) : a.look.Sound := by
  have hnot : ∀ c, a.stopper = some c → ¬ (a.calls c = .clearing ∨ a.calls c = .returned) := by
    intro c hc hs
    rw [h.stopping.joined c hc hs] at hw
    cases hw
  unfold ActiveObject.look
  split
  · rename_i e rest hqueue
    refine ⟨?_, by simp [Awake], by simp, h.flag, h.stopping.stopping, h.stopping.stopper,
      fun c hc hs => absurd hs (hnot c hc)⟩
    have hperm := h.conserved
    rw [hqueue] at hperm
    simpa using hperm
  · rename_i hqueue
    split
    · rename_i hrunning
      exact ⟨h.conserved, fun _ => .inl ⟨hqueue, hrunning⟩, by simp, h.flag, h.stopping.stopping,
        h.stopping.stopper, fun c hc hs => absurd hs (hnot c hc)⟩
    · rename_i hrunning
      exact ⟨h.conserved, by simp [Awake], fun _ => ⟨by simpa using hrunning, hqueue⟩, h.flag,
        h.stopping.stopping, h.stopping.stopper, fun _ _ _ => rfl⟩

omit [DecidableEq κ] in
theorem relook (hw : a.worker ≠ .exited) : Sound { a with worker := .looking } where
  conserved := h.conserved
  awake := by simp [Awake]
  exited := by simp
  flag := h.flag
  stopping := ⟨h.stopping.stopping, h.stopping.stopper,
    fun c hc hs => absurd (h.stopping.joined c hc hs) hw⟩

end Sound

theorem sound_step (h : a.Sound) {l : Label κ ε} (hstep : a.step l = some a') : a'.Sound := by
  cases l with
  | postFifo c e =>
    obtain ⟨hc, heq⟩ := Option.ite_none_right_eq_some.mp hstep
    cases heq
    exact h.postFifo hc
  | postLifo c e =>
    obtain ⟨hc, heq⟩ := Option.ite_none_right_eq_some.mp hstep
    cases heq
    exact h.postLifo hc
  | stop c =>
    obtain ⟨hc, heq⟩ := Option.ite_none_right_eq_some.mp hstep
    cases heq
    exact h.stop hc
  | notify c =>
    simp only [step] at hstep
    split at hstep <;> cases hstep
    · exact h.notifyPosted ‹_›
    · exact h.notifyStopping ‹_›
  | join c =>
    simp only [step] at hstep
    split at hstep <;> cases hstep
    exact h.join ‹_› ‹_›
  | clear c =>
    simp only [step] at hstep
    split at hstep <;> cases hstep
    exact h.clear ‹_›
  | look =>
    simp only [step] at hstep
    split at hstep <;> cases hstep
    exact h.look ‹_›
  | handled =>
    simp only [step] at hstep
    split at hstep <;> cases hstep
    exact h.relook (by simp [*])
  | spurious =>
    simp only [step] at hstep
    split at hstep <;> cases hstep
    exact h.relook (by simp [*])

theorem sound_run {ls : List (Label κ ε)} (hrun : Trace.run step started ls = some a) : a.Sound :=
  Trace.run_invariant (fun _ _ _ h hstep => sound_step h hstep) hrun sound_started

/-- Posts at the back only: the queue is what has been accepted and not yet handed out. -/
def InOrder (a : ActiveObject κ ε) : Prop := a.accepted = a.dispatched ++ a.queue

theorem inOrder_step (h : a.InOrder) (hs : a.Sound) {l : Label κ ε} (hl : l.isLifo = false)
    (hstep : a.step l = some a') : a'.InOrder := by
  cases l with
  | postFifo c e =>
    obtain ⟨hc, heq⟩ := Option.ite_none_right_eq_some.mp hstep
    cases heq
    unfold postFifo
    split
    · change a.accepted ++ [e] = a.dispatched ++ (a.queue ++ [e])
      rw [h, List.append_assoc]
    · exact h
  | postLifo c e => cases hl
  | stop c =>
    obtain ⟨hc, heq⟩ := Option.ite_none_right_eq_some.mp hstep
    cases heq
    unfold stop
    split <;> exact h
  | notify c =>
    simp only [step] at hstep
    split at hstep <;> cases hstep <;> exact h
  | join c =>
    simp only [step] at hstep
    split at hstep <;> cases hstep
    exact h
  | clear c =>
    simp only [step] at hstep
    split at hstep <;> cases hstep
    obtain ⟨-, -, hqueue⟩ := hs.queue_of_clearing ‹_›
    unfold InOrder at h
    rw [hqueue] at h
    exact h
  | look =>
    simp only [step] at hstep
    split at hstep <;> cases hstep
    unfold look
    split
    · rename_i e rest hqueue
      change a.accepted = a.dispatched ++ [e] ++ rest
      rw [h, hqueue, List.append_assoc, List.singleton_append]
    · split <;> exact h
  | handled =>
    simp only [step] at hstep
    split at hstep <;> cases hstep
    exact h
  | spurious =>
    simp only [step] at hstep
    split at hstep <;> cases hstep
    exact h

/-- In every run, whatever threads post and stop: an event that was accepted is in the queue or has
been handed to `dispatch` once; with posts at the back only, in the order of acceptance; and when the
`stop()` that cleared the flag has returned, the worker has ended and every accepted event, those
behind the flag included, has been handed out. -/
theorem served_run {ls : List (Label κ ε)} (hrun : Trace.run step started ls = some a) :
    a.accepted.Perm (a.dispatched ++ a.queue) ∧
    ((∀ l ∈ ls, l.isLifo = false) → a.accepted = a.dispatched ++ a.queue) ∧
    ∀ c, a.stopper = some c → a.calls c = .returned →
      a.worker = .exited ∧ a.queue = [] ∧ a.accepted.Perm a.dispatched := by
  have h := sound_run hrun
  refine ⟨h.conserved, ?_, ?_⟩
  · intro hfifo
    exact (Trace.run_invariant_of (I := fun a => a.InOrder ∧ a.Sound)
      (fun _ _ _ ha hl hstep => ⟨inOrder_step ha.1 ha.2 hl hstep, sound_step ha.2 hstep⟩)
      (Trace.allSteps_of_forall started hfifo) hrun ⟨rfl, sound_started⟩).1
  · intro c hc hret
    have hw := h.stopping.joined c hc (.inr hret)
    have hqueue := (h.exited hw).2
    have hperm := h.conserved
    rw [hqueue, List.append_nil] at hperm
    exact ⟨hw, hqueue, hperm⟩

/-- An event is posted while the worker is about to sleep, then the object is stopped. -/
def stopRun : List (Label ℕ ℕ) :=
  [.look, .postFifo 0 7, .notify 0, .stop 1, .look, .handled, .look, .notify 1, .join 1, .clear 1]

theorem served_stopRun : ∃ a, Trace.run step started stopRun = some a ∧ a.worker = .exited ∧
    a.accepted = a.dispatched ++ a.queue := by
  have hrun : Trace.run step started stopRun = some _ := rfl
  exact ⟨_, hrun, ((served_run hrun).2.2 1 rfl rfl).1, (served_run hrun).2.1 (by decide)⟩

/-- Nothing that has begun can go on. -/
def Resting (a : ActiveObject κ ε) : Prop := ∀ l : Label κ ε, l.internal = true → a.step l = none

theorem Resting.not_notifies (h : a.Resting) (c : κ) : (a.calls c).notifies = false := by
  have hc := h (.notify c) rfl
  cases hcall : a.calls c <;> simp_all [step, Call.notifies]

theorem Resting.worker (h : a.Resting) : a.worker = .waiting ∨ a.worker = .exited := by
  cases hw : a.worker with
  | looking =>
    have hl := h .look rfl
    simp [step, hw] at hl
  | waiting => exact .inl rfl
  | handling e =>
    have hl := h .handled rfl
    simp [step, hw] at hl
  | exited => exact .inr rfl

/-- How much is left until `stop()` returns. -/
def remaining (c : κ) (a : ActiveObject κ ε) : ℕ :=
  2 * a.queue.length +
    (match a.worker with
      | .exited => 0
      | .looking => 1
      | _ => 2) +
    match a.calls c with
      | .stopping => 3
      | .joining => 2
      | .clearing => 1
      | _ => 0

/-- Until the `stop()` that has cleared the flag returns, something goes on towards it. -/
theorem Sound.progress (h : a.Sound) (hc : a.stopper = some c) (hnot : a.calls c ≠ .returned) :
    ∃ l a', l.internal = true ∧ a.step l = some a' ∧ a'.stopper = some c ∧
      a'.remaining c < a.remaining c := by
  have hoff : a.running = false := by rw [h.flag, hc]; rfl
  have hstops : (a.calls c).stops = true := (h.stopping.stopper c hc).resolve_right hnot
  cases hw : a.worker with
  | looking =>
    refine ⟨.look, a.look, rfl, by simp [step, hw], ?_, ?_⟩
    · unfold ActiveObject.look
      split
      · exact hc
      · split <;> exact hc
    · unfold ActiveObject.look
      split
      · rename_i e rest hqueue
        simp [remaining, hw, hqueue]
        omega
      · rename_i hqueue
        rw [if_neg (by simp [hoff])]
        simp [remaining, hw]
  | handling e =>
    exact ⟨.handled, { a with worker := .looking }, rfl, by simp [step, hw], hc,
      by simp [remaining, hw]⟩
  | waiting =>
    obtain ⟨-, hon⟩ | ⟨c', hc'⟩ := h.awake hw
    · rw [hoff] at hon
      cases hon
    · cases hcall : a.calls c' with
      | posted =>
        have hne : c ≠ c' := by
          intro heq
          rw [heq, hcall] at hstops
          cases hstops
        refine ⟨.notify c', a.notifyOne.setCall c' .returned, rfl, by simp [step, hcall], hc, ?_⟩
        have hsame : (a.notifyOne.setCall c' .returned).calls c = a.calls c :=
          calls_setCall_of_ne hne _ _
        unfold remaining
        rw [hsame]
        simp [notifyOne, setCall, hw, Worker.notified]
      | stopping =>
        obtain rfl : c' = c := h.only hstops c' (by rw [hcall]; rfl)
        refine ⟨.notify c', a.notifyOne.setCall c' .joining, rfl, by simp [step, hcall], hc, ?_⟩
        unfold remaining
        rw [calls_setCall_self, hcall]
        simp [notifyOne, setCall, hw, Worker.notified]
      | _ =>
        rw [hcall] at hc'
        cases hc'
  | exited =>
    cases hcall : a.calls c with
    | stopping =>
      refine ⟨.notify c, a.notifyOne.setCall c .joining, rfl, by simp [step, hcall], hc, ?_⟩
      unfold remaining
      rw [calls_setCall_self, hcall]
      simp [notifyOne, setCall, hw, Worker.notified]
    | joining =>
      refine ⟨.join c, a.setCall c .clearing, rfl, by simp [step, hcall, hw], hc, ?_⟩
      unfold remaining
      rw [calls_setCall_self, hcall]
      simp [setCall, hw]
    | clearing =>
      refine ⟨.clear c, { a with queue := [] }.setCall c .returned, rfl, by simp [step, hcall], hc, ?_⟩
      unfold remaining
      rw [calls_setCall_self, hcall, (h.exited hw).2]
      simp [setCall, hw]
    | _ =>
      rw [hcall] at hstops
      cases hstops

theorem Sound.returns (h : a.Sound) (hc : a.stopper = some c) :
    ∃ ls a', ls.length ≤ a.remaining c ∧ (∀ l ∈ ls, l.internal = true) ∧
      Trace.run step a ls = some a' ∧ a'.calls c = .returned := by
  induction hn : a.remaining c using Nat.strong_induction_on generalizing a with
  | _ n ih =>
    by_cases hret : a.calls c = .returned
    · exact ⟨[], a, Nat.zero_le _, by simp, rfl, hret⟩
    · obtain ⟨l, a₁, hl, hstep, hc₁, hlt⟩ := h.progress hc hret
      obtain ⟨ls, a', hlen, hls, hrun, hdone⟩ :=
        ih (a₁.remaining c) (hn ▸ hlt) (sound_step h hstep) hc₁ rfl
      refine ⟨l :: ls, a', ?_, ?_, (Trace.run_cons_eq_some step).mpr ⟨a₁, hstep, hrun⟩, hdone⟩
      · rw [List.length_cons]
        omega
      · intro l' hl'
        rcases List.mem_cons.mp hl' with rfl | hl'
        · exact hl
        · exact hls l' hl'

/-- No notification is lost: in every state of a run in which no call and not the worker can go on,
all calls are over and the worker sleeps with nothing to do or has ended; and whenever a `stop()` has
cleared the flag, the worker and the calls that have begun lead it to its return, in a number of
steps bounded by the queue. -/
theorem awake_run {ls : List (Label κ ε)} (hrun : Trace.run step started ls = some a) :
    (a.Resting → (∀ c, a.calls c = .unused ∨ a.calls c = .returned) ∧
      (a.worker = .waiting ∧ a.queue = [] ∧ a.running = true ∨
        a.worker = .exited ∧ a.queue = [] ∧ a.running = false)) ∧
    ∀ c, a.stopper = some c → ∃ ls' a', ls'.length ≤ 2 * a.queue.length + 5 ∧
      (∀ l ∈ ls', l.internal = true) ∧ Trace.run step a ls' = some a' ∧ a'.calls c = .returned := by
  have h := sound_run hrun
  constructor
  · intro hrest
    have hworker : a.worker = .waiting ∧ a.queue = [] ∧ a.running = true ∨
        a.worker = .exited ∧ a.queue = [] ∧ a.running = false := by
      rcases hrest.worker with hw | hw
      · obtain hidle | ⟨c, hc⟩ := h.awake hw
        · exact .inl ⟨hw, hidle⟩
        · rw [hrest.not_notifies c] at hc
          cases hc
      · exact .inr ⟨hw, (h.exited hw).2, (h.exited hw).1⟩
    refine ⟨?_, hworker⟩
    intro c
    cases hcall : a.calls c with
    | unused => exact .inl rfl
    | returned => exact .inr rfl
    | posted =>
      have hn := hrest.not_notifies c
      rw [hcall] at hn
      cases hn
    | stopping =>
      have hn := hrest.not_notifies c
      rw [hcall] at hn
      cases hn
    | joining =>
      have hoff : a.running = false := by
        rw [h.flag, h.stopping.stopping c (by rw [hcall]; rfl)]
        rfl
      rcases hworker with ⟨-, -, hon⟩ | ⟨hw, -⟩
      · rw [hoff] at hon
        cases hon
      · have hj := hrest (.join c) rfl
        simp [step, hcall, hw] at hj
    | clearing =>
      have hcl := hrest (.clear c) rfl
      simp [step, hcall] at hcl
  · intro c hc
    obtain ⟨ls', a', hlen, hls, hrun', hdone⟩ := h.returns hc
    refine ⟨ls', a', hlen.trans ?_, hls, hrun', hdone⟩
    unfold remaining
    cases a.worker <;> cases a.calls c <;> dsimp only <;> omega

theorem awake_stopRun : ∃ a, Trace.run step started (stopRun.take 4) = some a ∧
    ∃ ls' a', ls'.length ≤ 7 ∧ Trace.run step a ls' = some a' ∧ a'.calls 1 = .returned := by
  have hhalf : Trace.run step started (stopRun.take 4) = some _ := rfl
  obtain ⟨ls', a', hlen, -, hrun, hdone⟩ := (awake_run hhalf).2 1 rfl
  exact ⟨_, hhalf, ls', a', hlen, hrun, hdone⟩

end Calls

end ActiveObject

end TelafSim.Chart
