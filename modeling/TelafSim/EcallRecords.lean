import TelafSim.DeferredPosts
import TelafSim.EcallManager

/-!
# The records of the eCall manager's timers

miros keeps a record of every deferred post until `cancel_event` is called with its uuid, whether
the post has been made or not. `EcallManagerAO` cancels what it replaces and releases, but the
expiry of a timer only forgets the uuid.
-/

namespace TelafSim

open DeferredPosts

namespace Ecall

namespace EcallManagerAO

variable {m : EcallManagerAO} {p : ℤ}

/-- The uuids of the timers, with what is recorded under `scheduled`. -/
def posts (m : EcallManagerAO) : DeferredPosts TimerKey := ⟨m.timerUuids, m.scheduled, m.nextUuid⟩

theorem orderly_cancel (key : TimerKey) : Orderly m.posts (m.cancel key).posts :=
  .cancel key (.refl m.posts)

theorem orderly_schedule (key : TimerKey) (periodMs : ℤ) :
    Orderly m.posts (m.schedule key periodMs).posts := by
  unfold schedule
  dsimp only
  split
  · exact .cancel key (.refl m.posts)
  · exact orderly_replace key m.posts

theorem orderly_cancelAll (timers : List Timer) :
    Orderly m.posts (timers.foldl (fun m timer => m.cancel (.hlap p timer)) m).posts := by
  induction timers generalizing m with
  | nil => exact .refl m.posts
  | cons timer timers ih => exact (orderly_cancel (.hlap p timer)).trans ih

theorem orderly_clearCallSlot : Orderly m.posts (m.clearCallSlot p).posts :=
  (orderly_cancelAll (m := m.setSession p none) (p := p) allTimers).trans
    (orderly_cancel (.redial p))

theorem orderly_perform (c : Callback) : Orderly m.posts (m.perform p c).posts := by
  cases c with
  | changeCallState action remotePartyNumber =>
    simp only [perform]
    split
    · exact .refl m.posts
    · exact .refl m.posts
  | startTimer timer => exact orderly_schedule (m := m.reportTimer p timer .started) _ _
  | sendEvent timer status => cases status <;> exact .refl m.posts
  | onTerminal => exact orderly_clearCallSlot
  | startRedialTimer delayMs => exact orderly_schedule _ _
  | _ => exact .refl m.posts

theorem orderly_performAll (cs : List Callback) :
    Orderly m.posts (cs.foldl (perform p) m).posts := by
  induction cs generalizing m with
  | nil => exact .refl m.posts
  | cons c cs ih => exact (orderly_perform c).trans ih

theorem orderly_drive (r : EcallSession × List Callback) :
    Orderly m.posts (m.drive p r).posts :=
  orderly_performAll (m := m.setSession p (some r.1)) r.2

theorem orderly_runSession (f : EcallSession → EcallSession × List Callback) :
    Orderly m.posts (m.runSession p f).posts := by
  unfold runSession
  split
  · exact .refl m.posts
  · exact orderly_drive _

theorem orderly_hangupFromUser (s : EcallSession) :
    Orderly m.posts (m.hangupFromUser p s).posts := by
  unfold hangupFromUser
  dsimp only
  split
  · exact (orderly_drive _).trans orderly_clearCallSlot
  · exact orderly_drive _

theorem orderly_dispatchMessage (corrId : ℕ) (q : Request) :
    Orderly m.posts (m.dispatchMessage corrId q).posts := by
  cases q with
  | startEcall p type isMsdTransmitted remotePartyNumber dialNumber =>
    simp only [dispatchMessage, handleStartEcall]
    split
    · exact .refl m.posts
    · split
      · exact (orderly_clearCallSlot (m := m) (p := p)).trans (.of_eq rfl)
      · exact .refl m.posts
  | endEcall p callIndex =>
    simp only [dispatchMessage, handleEndEcall]
    split
    · exact .refl m.posts
    · exact (orderly_hangupFromUser _).trans (.of_eq rfl)
  | answerEcall p callIndex =>
    simp only [dispatchMessage, handleAnswerEcall]
    split <;> exact .refl m.posts
  | sendMsd p =>
    simp only [dispatchMessage, handleSendMsd]
    split <;> exact .refl m.posts
  | requestNetworkDeregistration p =>
    simp only [dispatchMessage, handleRequestNetworkDeregistration]
    split
    · exact .refl m.posts
    · split
      · exact .refl m.posts
      · exact orderly_drive (m := m.pubRsp corrId .empty) _
  | updateHlapTimer p type duration =>
    simp only [dispatchMessage, handleUpdateHlapTimer]
    split <;> exact .refl m.posts
  | requestHlapTimer p type =>
    simp only [dispatchMessage, handleRequestHlapTimer]
    split <;> exact .refl m.posts
  | configureEcallRedial config timeGap =>
    simp only [dispatchMessage, handleConfigureEcallRedial]
    split <;> exact .refl m.posts
  | _ => exact .refl m.posts

/-- An expiry forgets the uuid of its timer; nothing else does. -/
theorem orderly_handleEvent (e : Event) (he : ∀ key, e ≠ .timerExpiry key) :
    Orderly m.posts (m.handleEvent e).posts := by
  cases e with
  | messageReceived corrId q => exact orderly_dispatchMessage corrId q
  | sessionStart p => exact orderly_runSession _
  | sessionHangup p =>
    simp only [handleEvent, runSessionHangup, Bool.false_eq_true, if_false]
    split
    · exact .refl m.posts
    · exact orderly_hangupFromUser _
  | sessionHangupFromPsap p => exact orderly_runSession _
  | sessionMsdPull p => exact orderly_runSession _
  | timerExpiry key => exact absurd rfl (he key)
  | forceTimerFailure timer =>
    simp only [handleEvent, applyForceTimerFailure]
    split <;> exact .refl m.posts
  | forceRedialMode config succeedAtAttempt => exact .refl m.posts
  | resubscribe => exact .refl m.posts
  | stop => exact .cancelAll (.refl m.posts)

theorem orderly_timerExpiry (key : TimerKey) :
    Orderly (m.posts.forget key) (m.runTimerExpiry key).posts := by
  unfold runTimerExpiry
  cases key with
  | hlap p timer =>
    exact orderly_runSession (m := { m with timerUuids := Function.update m.timerUuids _ none }) _
  | redial p =>
    exact orderly_runSession (m := { m with timerUuids := Function.update m.timerUuids _ none }) _

/-- An expiry that is handled finds no uuid stored for its timer. -/
def expiresReleased (m : EcallManagerAO) : Label → Bool
  | .handle =>
    match m.fifo with
    | .timerExpiry key :: _ => (m.timerUuids key).isNone
    | _ => true
  | _ => true

theorem orderly_step {m' : EcallManagerAO} {l : Label} (hl : ∀ uuid, l ≠ .elapse uuid)
    (h : m.step l = some m') :
    (m.expiresReleased l = true ∧ Orderly m.posts m'.posts) ∨
      ∃ key, (m.expiresReleased l = true ↔ m.timerUuids key = none) ∧
        Orderly (m.posts.forget key) m'.posts := by
  cases l with
  | elapse uuid => exact absurd rfl (hl uuid)
  | handle =>
    simp only [step, handle] at h
    split at h
    · cases h
    · rename_i e rest hfifo
      obtain ⟨-, h⟩ := Option.ite_none_left_eq_some.mp h
      obtain rfl := Option.some.inj h
      cases e with
      | timerExpiry key =>
        refine .inr ⟨key, ?_, orderly_timerExpiry (m := { m with fifo := rest }) key⟩
        simp [expiresReleased, hfifo]
      | _ =>
        refine .inl ⟨by simp [expiresReleased, hfifo], ?_⟩
        exact orderly_handleEvent (m := { m with fifo := rest }) _ (by simp)
  | _ =>
    obtain rfl := Option.some.inj h
    exact .inl ⟨rfl, .refl m.posts⟩

end EcallManagerAO

/-- A manager whose deferred posts are recorded: `scheduled` has the record of each, also of those
that have been made. -/
structure RecordedManager where
  ao : EcallManagerAO
  made : List ℕ

namespace RecordedManager

open EcallManagerAO

def ready (isNgEcallDevice : Bool) : RecordedManager := ⟨.ready isNgEcallDevice, []⟩

def posts (r : RecordedManager) : DeferredPosts TimerKey := r.ao.posts

/-- A post is made once, and its record stays. -/
def step (r : RecordedManager) : Label → Option RecordedManager
  | .elapse uuid =>
    if uuid ∈ r.made then none
    else (r.ao.scheduled.lookup uuid).map (fun key =>
      ⟨r.ao.postFifo (.timerExpiry key), uuid :: r.made⟩)
  | l => (r.ao.step l).map (fun m => { r with ao := m })

theorem orderlyBut_step : OrderlyBut step posts (fun r l => r.ao.expiresReleased l = true) := by
  intro r l r' h
  have hlift : ∀ {l : Label}, (∀ uuid, l ≠ .elapse uuid) →
      (r.ao.step l).map (fun m => { r with ao := m }) = some r' →
      (r.ao.expiresReleased l = true ∧ Orderly r.posts r'.posts) ∨
        ∃ key, (r.ao.expiresReleased l = true ↔ r.posts.uuids key = none) ∧
          Orderly (r.posts.forget key) r'.posts := by
    intro l hl h
    obtain ⟨m, hm, rfl⟩ := Option.map_eq_some_iff.mp h
    exact orderly_step hl hm
  cases l with
  | elapse uuid =>
    obtain ⟨-, h⟩ := Option.ite_none_left_eq_some.mp h
    obtain ⟨key, -, rfl⟩ := Option.map_eq_some_iff.mp h
    exact .inl ⟨rfl, .refl r.posts⟩
  | _ => exact hlift (by simp) h

end RecordedManager

end Ecall

end TelafSim
