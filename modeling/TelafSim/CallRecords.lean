import TelafSim.DeferredPosts
import TelafSim.CallPool

/-!
# The records of the call sessions' timers

`DataConnectionAO` with the uuids that its sessions store and the record that miros keeps of each
deferred post: every handler that drops or replaces a `timer_uuid` cancels it.
-/

namespace TelafSim

open DeferredPosts

namespace Mpss

open Data

namespace DataConnectionAO

variable {m m' : DataConnectionAO} {p : DeferredPosts ℤ} {q : ℤ} {c : CallSession}

def deferTimer (delayMs : ℕ) (profileId : ℤ) (p : DeferredPosts ℤ) : DeferredPosts ℤ :=
  if delayMs = 0 then p else p.post profileId

def openTimers (q : Request) (m : DataConnectionAO) (p : DeferredPosts ℤ) : DeferredPosts ℤ :=
  if q.ifname ≠ "" ∧ q.ifname ∈ m.pool.inUse then p
  else
    match m.pool.allocate q.ifname with
    | none => p
    | some _ => deferTimer m.timing.callConnectDelayMs q.profileId (p.forget q.profileId)

def startTimers (q : Request) (m : DataConnectionAO) (p : DeferredPosts ℤ) : DeferredPosts ℤ :=
  match m.sessions.lookup q.profileId with
  | none => m.openTimers q p
  | some c =>
    if c.status = .connecting ∨ c.status = .disconnecting then p
    else if c.status = .connected then p
    else m.openTimers q p

def stopTimers (q : Request) (m : DataConnectionAO) (p : DeferredPosts ℤ) : DeferredPosts ℤ :=
  match m.sessions.lookup q.profileId with
  | none => p
  | some c =>
    if c.status = .noNet then p
    else deferTimer m.timing.callDisconnectDelayMs q.profileId (p.cancel q.profileId)

/-- What the handling of an event does with the `timer_uuid`s of the sessions. -/
def dispatchTimers (m : DataConnectionAO) (p : DeferredPosts ℤ) : MpssEvent → DeferredPosts ℤ
  | .messageReceived q =>
    match q.kind with
    | .startDataCall => m.startTimers q p
    | .stopDataCall => m.stopTimers q p
    | .listDataCall => p
  | .timeout .connect profileId =>
    if m.status profileId = some .connecting then p.cancel profileId else p
  | .timeout .disconnect profileId =>
    if (m.status profileId).isSome then p.cancel profileId else p
  | .forceCallDrop profileId =>
    match m.status profileId with
    | none => p
    | some .noNet => p.forget profileId
    | some _ => p.cancel profileId

/-- The timer of a session that waits to be fired. -/
def waiting (m : DataConnectionAO) (profileId : ℤ) : Option CallTimer :=
  (m.sessions.lookup profileId).bind (fun c => c.timer)

/-- Only sessions store uuids, and a timer that waits has its uuid stored. -/
structure Fits (m : DataConnectionAO) (p : DeferredPosts ℤ) : Prop where
  owned : ∀ q, p.uuids q ≠ none → m.status q ≠ none
  stored : ∀ q, m.waiting q ≠ none → p.uuids q ≠ none

theorem Fits.update {p' : DeferredPosts ℤ} (h : m.Fits p)
    (hothers : ∀ j, j ≠ q →
      m'.status j = m.status j ∧ m'.waiting j = m.waiting j ∧ p'.uuids j = p.uuids j)
    (howned : p'.uuids q ≠ none → m'.status q ≠ none)
    (hstored : m'.waiting q ≠ none → p'.uuids q ≠ none) : m'.Fits p' := by
  constructor
  · intro j
    by_cases hj : j = q
    · exact hj ▸ howned
    · obtain ⟨hstatus, -, huuid⟩ := hothers j hj
      rw [hstatus, huuid]
      exact h.owned j
  · intro j
    by_cases hj : j = q
    · exact hj ▸ hstored
    · obtain ⟨-, hwaiting, huuid⟩ := hothers j hj
      rw [hwaiting, huuid]
      exact h.stored j

theorem Fits.of_same (h : m.Fits p) (hsessions : m'.sessions = m.sessions) : m'.Fits p := by
  have hstatus : ∀ j, m'.status j = m.status j := by
    intro j
    rw [status, status, hsessions]
  have hwaiting : ∀ j, m'.waiting j = m.waiting j := by
    intro j
    rw [waiting, waiting, hsessions]
  refine ⟨?_, ?_⟩
  · simp only [hstatus]
    exact h.owned
  · simp only [hwaiting]
    exact h.stored

theorem orderly_deferTimer {delayMs : ℕ} (hfree : p.uuids q = none) :
    Orderly p (deferTimer delayMs q p) := by
  unfold deferTimer
  split
  · exact .refl p
  · exact .post q (.refl p) hfree

theorem uuids_deferTimer {delayMs : ℕ} {j : ℤ} (hj : j ≠ q) :
    (deferTimer delayMs q p).uuids j = p.uuids j := by
  unfold deferTimer
  split
  · rfl
  · exact uuids_post hj

theorem Fits.schedule {p₀ : DeferredPosts ℤ} {t : CallTimer} {delayMs : ℕ} (h : m.Fits p)
    (hp₀ : ∀ j, j ≠ q → p₀.uuids j = p.uuids j) :
    (m.schedule t delayMs q c).Fits (deferTimer delayMs q p₀) := by
  refine h.update (q := q) ?_ ?_ ?_
  · intro j hj
    refine ⟨(frame_schedule hj).1, ?_, (uuids_deferTimer hj).trans (hp₀ j hj)⟩
    unfold waiting DataConnectionAO.schedule
    split
    · change ((m.setSession q (c.setTimer none)).sessions.lookup j).bind _ = _
      rw [lookup_setSession, if_neg hj]
    · rw [lookup_setSession, if_neg hj]
  · intro _
    rw [status_schedule]
    exact Option.some_ne_none _
  · unfold deferTimer DataConnectionAO.schedule
    split
    · intro hwaiting
      refine absurd ?_ hwaiting
      change ((m.setSession q (c.setTimer none)).sessions.lookup q).bind _ = none
      rw [lookup_setSession, if_pos rfl]
      rfl
    · intro _
      rw [uuids_post_self]
      exact Option.some_ne_none _

theorem orderly_openTimers (r : Request) (h : m.Fits p) (hnone : m.status r.profileId = none) :
    Orderly p (m.openTimers r p) ∧ (m.openCall r).1.Fits (m.openTimers r p) := by
  have hfree : p.uuids r.profileId = none := by
    by_contra hne
    exact h.owned _ hne hnone
  unfold openTimers openCall
  split_ifs
  · exact ⟨.refl p, h⟩
  · cases m.pool.allocate r.ifname with
    | none => exact ⟨.refl p, h⟩
    | some x =>
      have hpool : ({ m with pool := x.2 } : DataConnectionAO).Fits p := h.of_same rfl
      dsimp only
      rw [forget_of_none hfree]
      exact ⟨orderly_deferTimer hfree, hpool.schedule (fun _ _ => rfl)⟩

theorem orderly_startTimers (r : Request) (h : m.Fits p) (hlive : m.Live r.profileId) :
    Orderly p (m.startTimers r p) ∧ (m.handleStart r).1.Fits (m.startTimers r p) := by
  unfold startTimers handleStart
  cases hc : m.sessions.lookup r.profileId with
  | none => exact orderly_openTimers r h (by rw [status, hc]; rfl)
  | some c =>
    have hup := hlive c.status (by rw [status, hc]; rfl)
    dsimp only
    split_ifs with hbusy hconnected
    · exact ⟨.refl p, h⟩
    · exact ⟨.refl p, h⟩
    · exact ⟨.refl p, h⟩
    · rcases hup with hst | hst | hst
      · exact absurd (.inl hst) hbusy
      · exact absurd hst hconnected
      · exact absurd (.inr hst) hbusy

theorem orderly_stopTimers (r : Request) (h : m.Fits p) :
    Orderly p (m.stopTimers r p) ∧ (m.handleStop r).1.Fits (m.stopTimers r p) := by
  unfold stopTimers handleStop
  cases m.sessions.lookup r.profileId with
  | none => exact ⟨.refl p, h⟩
  | some c =>
    dsimp only
    split_ifs
    · exact ⟨.refl p, h⟩
    · refine ⟨?_, h.schedule (fun _ hj => uuids_cancel hj)⟩
      exact (Orderly.cancel _ (.refl p)).trans (orderly_deferTimer uuids_cancel_self)

theorem Fits.cancel (h : m.Fits p) (hothers : ∀ j, j ≠ q →
      m'.sessions.lookup j = m.sessions.lookup j) (hwaiting : m'.waiting q = none) :
    m'.Fits (p.cancel q) := by
  refine h.update (q := q) ?_ ?_ ?_
  · intro j hj
    rw [status, status, waiting, waiting, hothers j hj]
    exact ⟨rfl, rfl, uuids_cancel hj⟩
  · exact fun hne => absurd uuids_cancel_self hne
  · exact fun hne => absurd hwaiting hne

theorem fits_setSession (h : m.Fits p) (hc : c.timer = none) :
    (m.setSession q c).Fits (p.cancel q) := by
  refine h.cancel ?_ ?_
  · intro j hj
    rw [lookup_setSession, if_neg hj]
  · rw [waiting, lookup_setSession, if_pos rfl]
    exact hc

theorem fits_dropSession (h : m.Fits p) : (m.dropSession q c).Fits (p.cancel q) := by
  refine h.cancel ?_ ?_
  · intro j hj
    rw [lookup_dropSession, if_neg hj]
  · rw [waiting, lookup_dropSession, if_pos rfl]
    rfl

theorem orderly_dispatchTimers (e : MpssEvent) (h : m.Fits p) (hlive : ∀ q, m.Live q) :
    Orderly p (m.dispatchTimers p e) ∧ (m.dispatch e).1.Fits (m.dispatchTimers p e) := by
  cases e with
  | messageReceived r =>
    simp only [dispatchTimers, dispatch]
    cases r.kind with
    | startDataCall => exact orderly_startTimers r h (hlive _)
    | stopDataCall => exact orderly_stopTimers r h
    | listDataCall => exact ⟨.refl p, h⟩
  | timeout t q =>
    cases t with
    | connect =>
      simp only [dispatchTimers, dispatch, onConnectTimer, status]
      obtain hc | ⟨c, hc⟩ := Option.eq_none_or_eq_some (m.sessions.lookup q)
      · simp only [hc, Option.map_none, reduceCtorEq, if_false]
        exact ⟨.refl p, h⟩
      · simp only [hc, Option.map_some, Option.some.injEq, ne_eq, ite_not]
        split_ifs
        · exact ⟨.cancel q (.refl p), fits_setSession h rfl⟩
        · exact ⟨.refl p, h⟩
    | disconnect =>
      simp only [dispatchTimers, dispatch, onDisconnectTimer, status]
      obtain hc | ⟨c, hc⟩ := Option.eq_none_or_eq_some (m.sessions.lookup q)
      · simp only [hc, Option.map_none, Option.isSome_none, Bool.false_eq_true, if_false]
        exact ⟨.refl p, h⟩
      · simp only [hc, Option.map_some, Option.isSome_some, if_true]
        exact ⟨.cancel q (.refl p), fits_dropSession h⟩
  | forceCallDrop q =>
    simp only [dispatchTimers, dispatch, applyForceCallDrop, status]
    obtain hc | ⟨c, hc⟩ := Option.eq_none_or_eq_some (m.sessions.lookup q)
    · simp only [hc, Option.map_none]
      exact ⟨.refl p, h⟩
    · have hup := hlive q c.status (by rw [status, hc]; rfl)
      have hne : c.status ≠ .noNet := by
        intro heq
        simp [heq] at hup
      simp only [hc, Option.map_some, hne, if_false]
      exact ⟨.cancel q (.refl p), fits_dropSession h⟩

theorem Fits.set (h : m.Fits p) {d : CallSession} (hc : m.sessions.lookup q = some c)
    (htimer : d.timer ≠ none → c.timer ≠ none) : (m.setSession q d).Fits p := by
  refine h.update (q := q) ?_ ?_ ?_
  · intro j hj
    rw [status, status, waiting, waiting, lookup_setSession, if_neg hj]
    exact ⟨rfl, rfl, rfl⟩
  · intro _
    rw [status, lookup_setSession, if_pos rfl]
    exact Option.some_ne_none _
  · intro hwaiting
    rw [waiting, lookup_setSession, if_pos rfl] at hwaiting
    refine h.stored q ?_
    rw [waiting, hc]
    exact htimer hwaiting

theorem fits_step {l : Label} (hl : l ≠ .handle) (h : m.Fits p) (hstep : m.step l = some m') :
    m'.Fits p := by
  obtain ⟨r, hr, rfl⟩ := Option.map_eq_some_iff.mp hstep
  cases l with
  | handle => exact absurd rfl hl
  | handleMessage q =>
    obtain rfl := Option.some.inj hr
    exact h.of_same rfl
  | forceCallDrop q =>
    obtain rfl := Option.some.inj hr
    exact h.of_same rfl
  | onNetworkRatChanged =>
    obtain rfl := Option.some.inj hr
    exact h
  | forceDns q patch =>
    obtain rfl := Option.some.inj hr
    unfold applyForceDns
    split
    · exact h
    · rename_i c hc
      split
      · exact h
      · split
        · exact h
        · exact (h.set hc (d := { c with addr := c.addr.map _ }) (fun hne => hne)).of_same rfl
  | elapse q =>
    obtain ⟨m', hm', rfl⟩ := Option.map_eq_some_iff.mp hr
    unfold DataConnectionAO.elapse at hm'
    split at hm'
    · cases hm'
    · rename_i c hc
      obtain ⟨t, -, rfl⟩ := Option.map_eq_some_iff.mp hm'
      exact (h.set hc (d := c.setTimer none) (fun hne => absurd rfl hne)).of_same rfl

end DataConnectionAO

/-- The connections with the uuids that their sessions store and the records of the posts. Stopping
ends their thread. -/
structure RecordedConnections where
  ao : DataConnectionAO
  posts : DeferredPosts ℤ
  stopped : Bool

namespace RecordedConnections

open DataConnectionAO

variable {r r' : RecordedConnections}

def start (timing : CallTimingPreset) (stem : String) (poolSize : ℕ)
    (addrInfo : String → Option String) : RecordedConnections :=
  ⟨.start timing stem poolSize addrInfo, .empty, false⟩

inductive Label
  | ready (l : DataConnectionAO.Label)
  /-- Stop has its turn. -/
  | stop

/-- A post that is made keeps its record, and its uuid stays stored. -/
def step (r : RecordedConnections) : Label → Option RecordedConnections
  | .ready .handle =>
    match r.ao.fifo with
    | [] => none
    | e :: rest =>
      if r.stopped then none
      else some { r with
        ao := ({ r.ao with fifo := rest }.dispatch e).1
        posts := r.ao.dispatchTimers r.posts e }
  | .ready l => (r.ao.step l).map (fun m => { r with ao := m })
  | .stop =>
    if r.stopped then none
    else some ⟨{ r.ao with sessions := ∅ }, r.posts.cancelAll, true⟩

structure Fitting (r : RecordedConnections) : Prop where
  fits : r.ao.Fits r.posts
  pooled : r.stopped = false → r.ao.Pooled

theorem step_posts {l : Label} (h : r.Fitting) (hstep : r.step l = some r') :
    r'.Fitting ∧ Orderly r.posts r'.posts := by
  have hlift : ∀ {l : DataConnectionAO.Label}, l ≠ .handle →
      (r.ao.step l).map (fun m => { r with ao := m }) = some r' →
      r'.Fitting ∧ Orderly r.posts r'.posts := by
    intro l hl hstep
    obtain ⟨m, hm, rfl⟩ := Option.map_eq_some_iff.mp hstep
    exact ⟨⟨fits_step hl h.fits hm, fun hno => (h.pooled hno).step hm⟩, .refl r.posts⟩
  cases l with
  | ready l =>
    cases l with
    | handle =>
      simp only [step] at hstep
      split at hstep
      · cases hstep
      · rename_i e rest hfifo
        obtain ⟨hno, hstep⟩ := Option.ite_none_left_eq_some.mp hstep
        obtain rfl := Option.some.inj hstep
        have hpooled : ({ r.ao with fifo := rest } : DataConnectionAO).Pooled :=
          (h.pooled (by simpa using hno)).of_same rfl rfl
        have hfits : ({ r.ao with fifo := rest } : DataConnectionAO).Fits r.posts :=
          h.fits.of_same rfl
        obtain ⟨horderly, hfits'⟩ := orderly_dispatchTimers e hfits hpooled.live
        exact ⟨⟨hfits', fun _ => hpooled.dispatch e⟩, horderly⟩
    | handleMessage q => exact hlift (l := .handleMessage q) (by simp) hstep
    | forceCallDrop q => exact hlift (l := .forceCallDrop q) (by simp) hstep
    | onNetworkRatChanged => exact hlift (l := .onNetworkRatChanged) (by simp) hstep
    | forceDns q patch => exact hlift (l := .forceDns q patch) (by simp) hstep
    | elapse q => exact hlift (l := .elapse q) (by simp) hstep
  | stop =>
    obtain ⟨-, hstep⟩ := Option.ite_none_left_eq_some.mp hstep
    obtain rfl := Option.some.inj hstep
    refine ⟨⟨⟨?_, ?_⟩, fun hno => absurd hno (by simp)⟩, .cancelAll (.refl r.posts)⟩
    · exact fun q hne => absurd rfl hne
    · exact fun q hne => absurd rfl hne

theorem fitting_start (timing : CallTimingPreset) (stem : String) (poolSize : ℕ)
    (addrInfo : String → Option String) : (start timing stem poolSize addrInfo).Fitting := by
  refine ⟨⟨?_, ?_⟩, fun _ => pooled_start timing stem poolSize addrInfo⟩
  · exact fun q hne => absurd rfl hne
  · exact fun q hne => absurd rfl hne

end RecordedConnections

end Mpss

end TelafSim
