import TelafSim.DeferredPosts
import TelafSim.Power

/-!
# The records of the power subsystem's timers

The timers of `PowerSubsystem` with the record that miros keeps of each deferred post. A round that
is answered cancels its timer, and so do the start of a timer and the stop of the subsystem; a
timeout that finishes a round, and the one that retries the local machine, forget the uuid.
-/

namespace TelafSim

open DeferredPosts

namespace Power

namespace PowerSubsystem

variable {s : PowerSubsystem}

def posts (s : PowerSubsystem) : DeferredPosts Timer where
  uuids
    | .ackTimeout => s.pendingTimerUuid
    | .fTimeout => s.ftimeoutTimerUuid
  records := s.armed
  next := s.nextUuid

theorem posts_cancelPendingTimer : s.cancelPendingTimer.posts = s.posts.cancel .ackTimeout := by
  simp only [posts, DeferredPosts.cancel, cancelPendingTimer, DeferredPosts.mk.injEq, and_true]
  refine ⟨?_, rfl⟩
  funext timer
  cases timer <;> rfl

theorem orderly_cancelPendingTimer : Orderly s.posts s.cancelPendingTimer.posts := by
  rw [posts_cancelPendingTimer]
  exact .cancel _ (.refl s.posts)

theorem orderly_scheduleAckTimeout : Orderly s.posts s.scheduleAckTimeout.posts := by
  have hposts : s.scheduleAckTimeout.posts = (s.posts.cancel .ackTimeout).post .ackTimeout := by
    rw [← posts_cancelPendingTimer]
    simp only [posts, DeferredPosts.post, scheduleAckTimeout, cancelPendingTimer,
      DeferredPosts.mk.injEq, and_true]
    funext timer
    cases timer <;> rfl
  rw [hposts]
  exact orderly_replace _ _

/-- `_cancel_ftimeout_timer` -/
def cancelFtimeoutTimer (s : PowerSubsystem) : PowerSubsystem :=
  { s with armed := cancelEvent s.ftimeoutTimerUuid s.armed, ftimeoutTimerUuid := none }

theorem posts_cancelFtimeoutTimer : s.cancelFtimeoutTimer.posts = s.posts.cancel .fTimeout := by
  simp only [posts, DeferredPosts.cancel, cancelFtimeoutTimer, DeferredPosts.mk.injEq, and_true]
  refine ⟨?_, rfl⟩
  funext timer
  cases timer <;> rfl

theorem orderly_cancelFtimeoutTimer : Orderly s.posts s.cancelFtimeoutTimer.posts := by
  rw [posts_cancelFtimeoutTimer]
  exact .cancel _ (.refl s.posts)

theorem orderly_scheduleFtimeoutRetry : Orderly s.posts s.scheduleFtimeoutRetry.posts := by
  have hposts : s.scheduleFtimeoutRetry.posts = (s.posts.cancel .fTimeout).post .fTimeout := by
    rw [← posts_cancelFtimeoutTimer]
    simp only [posts, DeferredPosts.post, scheduleFtimeoutRetry, cancelFtimeoutTimer,
      DeferredPosts.mk.injEq, and_true]
    funext timer
    cases timer <;> rfl
  rw [hposts]
  exact orderly_replace _ _

theorem orderly_closeRound (status : RoundStatus) (p : Pending) :
    Orderly s.posts (s.closeRound status p).posts := by
  unfold closeRound
  dsimp only
  split
  · exact (Orderly.of_eq rfl).trans orderly_scheduleFtimeoutRetry
  · exact .refl s.posts

theorem orderly_processNextQueued (queue : List QueuedRequest) :
    Orderly s.posts (processNextQueued queue s).posts := by
  induction queue generalizing s with
  | nil => exact .refl s.posts
  | cons r rest ih =>
    have hbegin : (s.beginRound r).2.posts = s.posts := rfl
    unfold processNextQueued
    dsimp only
    rw [← hbegin]
    split
    · exact (orderly_closeRound .complete _).trans ih
    · exact orderly_scheduleAckTimeout

theorem orderly_finishSetStateRound (status : RoundStatus) (p : Pending) :
    Orderly s.posts (s.finishSetStateRound status p).posts :=
  (orderly_closeRound status p).trans (orderly_processNextQueued _)

theorem orderly_recordAck (machineName : String) (response : Response) :
    Orderly s.posts (s.recordAck machineName response).posts := by
  unfold recordAck
  split
  · exact .refl s.posts
  · split
    · exact .refl s.posts
    · dsimp only
      split
      · exact (orderly_cancelPendingTimer (s := { s with pending := some _ })).trans
          (orderly_finishSetStateRound _ _)
      · exact .refl s.posts

theorem orderly_handleSetState (state : PowerState) (machineName corrId src : String) :
    Orderly s.posts (s.handleSetState state machineName corrId src).posts := by
  unfold handleSetState
  dsimp only
  split
  · exact .refl s.posts
  · split
    · exact .refl s.posts
    · split
      · exact orderly_processNextQueued (s := s.enqueue _) _
      · exact .refl s.posts

theorem orderly_handle (e : PowerEvent) (hack : ∀ uuid, e ≠ .powerAckTimeout uuid)
    (hf : e ≠ .powerFTimeout) : Orderly s.posts (handle e s).posts := by
  cases e with
  | setState state machineName corrId src => exact orderly_handleSetState _ _ _ _
  | slaveAck machineName response => exact orderly_recordAck _ _
  | powerForceSlaveAck machineName response => exact orderly_recordAck _ _
  | powerAddMachine machineName =>
    simp only [handle, applyAddMachine]
    split <;> exact .refl s.posts
  | powerRemoveMachine machineName =>
    simp only [handle, applyRemoveMachine]
    split <;> exact .refl s.posts
  | getMachineNames corrId src => exact .refl s.posts
  | powerAckTimeout uuid => exact absurd rfl (hack uuid)
  | powerFTimeout => exact absurd rfl hf

theorem orderly_onAckTimeout (uuid : ℕ) {p : Pending} (hp : s.pending = some p) :
    Orderly (s.posts.forget .ackTimeout) (s.onAckTimeout uuid).posts := by
  have hforget : ({ s with pendingTimerUuid := none, timeouts := s.timeouts ++ [(uuid, p.round)] } :
      PowerSubsystem).posts = s.posts.forget .ackTimeout := by
    simp only [posts, forget, DeferredPosts.mk.injEq, and_true]
    funext timer
    cases timer <;> rfl
  simp only [onAckTimeout, hp]
  rw [← hforget]
  exact orderly_finishSetStateRound _ _

theorem orderly_onFTimeout :
    Orderly (s.posts.forget .fTimeout) (handle .powerFTimeout s).posts := by
  refine .of_eq ?_
  simp only [posts, forget, handle, retryLocalConfirm, publish, DeferredPosts.mk.injEq, and_true]
  funext timer
  cases timer <;> rfl

/-- A timeout that is handled finds no uuid stored for its timer, or no round. -/
def timesOutReleased (s : PowerSubsystem) : Label → Bool
  | .dispatch =>
    match s.fifo with
    | .powerAckTimeout _ :: _ => s.pending.isNone || s.pendingTimerUuid.isNone
    | .powerFTimeout :: _ => s.ftimeoutTimerUuid.isNone
    | _ => true
  | _ => true

theorem orderly_dispatch {s' : PowerSubsystem} (h : s.step .dispatch = some s') :
    (s.timesOutReleased .dispatch = true ∧ Orderly s.posts s'.posts) ∨
      ∃ timer, (s.timesOutReleased .dispatch = true ↔ s.posts.uuids timer = none) ∧
        Orderly (s.posts.forget timer) s'.posts := by
  simp only [step] at h
  split at h
  · cases h
  · rename_i e rest hfifo
    obtain rfl := Option.some.inj h
    cases e with
    | powerAckTimeout uuid =>
      obtain hp | ⟨p, hp⟩ := Option.eq_none_or_eq_some s.pending
      · refine .inl ⟨by simp [timesOutReleased, hfifo, hp], .of_eq ?_⟩
        simp only [handle, onAckTimeout, hp]
        rfl
      · refine .inr ⟨.ackTimeout, by simp [timesOutReleased, hfifo, hp, posts], ?_⟩
        exact orderly_onAckTimeout (s := { s with fifo := rest }) uuid hp
    | powerFTimeout =>
      refine .inr ⟨.fTimeout, by simp [timesOutReleased, hfifo, posts], ?_⟩
      exact orderly_onFTimeout (s := { s with fifo := rest })
    | _ =>
      refine .inl ⟨by simp [timesOutReleased, hfifo], ?_⟩
      exact orderly_handle (s := { s with fifo := rest }) _ (by simp) (by simp)

end PowerSubsystem

/-- A power subsystem whose deferred posts are recorded: `armed` has the record of each, also of
those that have been made. Stopping ends its thread. -/
structure RecordedSubsystem where
  ao : PowerSubsystem
  made : List ℕ
  stopped : Bool

namespace RecordedSubsystem

open PowerSubsystem

def initial (localMachineName : String) : RecordedSubsystem :=
  ⟨.initial localMachineName, [], false⟩

def posts (r : RecordedSubsystem) : DeferredPosts Timer := r.ao.posts

inductive Label
  | ready (l : PowerSubsystem.Label)
  /-- Stop has its turn. -/
  | stop
  deriving DecidableEq, Repr

def step (r : RecordedSubsystem) : Label → Option RecordedSubsystem
  | .ready (.post e) => (r.ao.step (.post e)).map (fun s => { r with ao := s })
  | .ready (.fire uuid) =>
    if uuid ∈ r.made then none
    else (r.ao.armed.lookup uuid).map (fun t =>
      { r with ao := { r.ao with fifo := r.ao.fifo ++ [fired uuid t] }, made := uuid :: r.made })
  | .ready .dispatch =>
    if r.stopped then none else (r.ao.step .dispatch).map (fun s => { r with ao := s })
  | .stop =>
    if r.stopped then none
    else some { r with ao := r.ao.cancelPendingTimer.cancelFtimeoutTimer, stopped := true }

def timesOutReleased (r : RecordedSubsystem) : Label → Bool
  | .ready l => r.ao.timesOutReleased l
  | .stop => true

theorem orderlyBut_step : OrderlyBut step posts (fun r l => r.timesOutReleased l = true) := by
  intro r l r' h
  cases l with
  | ready l =>
    cases l with
    | post e =>
      obtain ⟨s, hs, rfl⟩ := Option.map_eq_some_iff.mp h
      refine .inl ⟨rfl, ?_⟩
      cases e <;> simp only [PowerSubsystem.step, Option.some.injEq, reduceCtorEq] at hs <;>
        (subst hs; exact .refl r.posts)
    | fire uuid =>
      obtain ⟨-, h⟩ := Option.ite_none_left_eq_some.mp h
      obtain ⟨t, -, rfl⟩ := Option.map_eq_some_iff.mp h
      exact .inl ⟨rfl, .refl r.posts⟩
    | dispatch =>
      obtain ⟨-, h⟩ := Option.ite_none_left_eq_some.mp h
      obtain ⟨s, hs, rfl⟩ := Option.map_eq_some_iff.mp h
      exact orderly_dispatch hs
  | stop =>
    obtain ⟨-, h⟩ := Option.ite_none_left_eq_some.mp h
    obtain rfl := Option.some.inj h
    exact .inl ⟨rfl, orderly_cancelPendingTimer.trans orderly_cancelFtimeoutTimer⟩

theorem posts_initial (localMachineName : String) : (initial localMachineName).posts = .empty := by
  simp only [posts, PowerSubsystem.posts, empty, initial, PowerSubsystem.initial,
    DeferredPosts.mk.injEq, and_true]
  funext timer
  cases timer <;> rfl

end RecordedSubsystem

end Power

end TelafSim
