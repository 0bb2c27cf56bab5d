import TelafSim.EcallManager

/-!
# What an eCall waits for

A session rests in DecodeSendMSD, CRCCheckonMSD, DecodeMSD or Redialing until a timer expires. The
expiry is scheduled or in the fifo in every state a run reaches, and it moves the session on: out
of its state, or to the next attempt while it is redialled. Two ways into a resting state arm no
timer: a redial that connects does not start T5 again, and no T6 is started for a custom number.
-/

namespace TelafSim.Ecall

def TimerKey.phoneId : TimerKey → ℤ
  | .hlap phoneId _ => phoneId
  | .redial phoneId => phoneId

namespace EcallSession

/-- The timer whose expiry leaves the state the session rests in. -/
def awaited (s : EcallSession) (phoneId : ℤ) : Option TimerKey :=
  match s.state with
  | .decodeSendMsd => some (.hlap phoneId .t5)
  | .crcCheckonMsd => some (.hlap phoneId .t7)
  | .decodeMsd => some (.hlap phoneId .t6)
  | .redialing => some (.redial phoneId)
  | _ => none

/-- The session is in DecodeSendMSD after it has been redialled, or in DecodeMSD with a custom
number. -/
def skipsArming (s : EcallSession) : Bool :=
  match s.state with
  | .decodeSendMsd => s.redialAttempt ≠ 0
  | .decodeMsd => s.isCustomNumberEcall
  | _ => false

theorem awaited_phoneId {s : EcallSession} {p : ℤ} {k : TimerKey} (h : s.awaited p = some k) :
    k.phoneId = p := by
  unfold awaited at h
  split at h <;> cases h <;> rfl

/-- What a session can be relied on for in the states it rests in. -/
structure Fit (s : EcallSession) : Prop where
  decodeSendMsd : s.state = .decodeSendMsd → .t5 ∈ s.failedTimers
  decodeMsd : s.state = .decodeMsd → s.isNgEcall = false
  redialing : s.state = .redialing → s.redialAttempt ≠ 0

def arms (cs : List Callback) : TimerKey → Prop
  | .hlap _ timer => .startTimer timer ∈ cs
  | .redial _ => ∃ delayMs, .startRedialTimer delayMs ∈ cs

/-- Whatever the session comes to wait for has been started. -/
structure Waits (r : EcallSession × List Callback) : Prop where
  fit : r.1.Fit
  arms : ∀ {p k}, r.1.awaited p = some k → r.1.skipsArming = false → arms r.2 k

/-- The MSD is on its way, or through. -/
def Transmits (r : EcallSession × List Callback) : Prop :=
  r.1.state = .callConversation ∨
  (r.1.state = .crcCheckonMsd ∧ .startTimer .t7 ∈ r.2) ∨
  (r.1.state = .decodeMsd ∧ r.1.isNgEcall = false ∧
    (r.1.isCustomNumberEcall = true ∨ .startTimer .t6 ∈ r.2))

section Transmits

variable {s : EcallSession} {r : EcallSession × List Callback}

theorem waits_of_unawaited (h : ∀ p, r.1.awaited p = none) : Waits r := by
  have hstate := h 0
  unfold awaited at hstate
  constructor
  · constructor <;> intro hst <;> rw [hst] at hstate <;> cases hstate
  · intro p k hk
    rw [h] at hk
    cases hk

theorem Transmits.waits (h : Transmits r) : Waits r := by
  rcases h with h | ⟨h, h7⟩ | ⟨h, hng, h6⟩
  · exact waits_of_unawaited (fun p => by simp [awaited, h])
  · constructor
    · constructor <;> intro hst <;> rw [h] at hst <;> cases hst
    · intro p k hk _
      simp only [awaited, h, Option.some.injEq] at hk
      subst hk
      exact h7
  · constructor
    · constructor <;> intro hst
      · rw [h] at hst
        cases hst
      · exact hng
      · rw [h] at hst
        cases hst
    · intro p k hk hskip
      simp only [awaited, h, Option.some.injEq] at hk
      simp only [skipsArming, h] at hskip
      subst hk
      exact h6.resolve_left (by simp [hskip])

theorem Transmits.mono {cs : List Callback} (h : Transmits r) (hcs : r.2 ⊆ cs) :
    Transmits (r.1, cs) := by
  rcases h with h | ⟨h, h7⟩ | ⟨h, hng, h6⟩
  · exact .inl h
  · exact .inr (.inl ⟨h, hcs h7⟩)
  · exact .inr (.inr ⟨h, hng, h6.imp_right (fun h6 => hcs h6)⟩)

theorem Transmits.tell (cs : List Callback) (h : Transmits r) : Transmits (tell cs r) :=
  h.mono (List.subset_append_right _ _)

theorem transmits_conversation :
    Transmits (s.transitionTo .callConversation enterCallConversation) := .inl rfl

theorem transmits_decodeMsd : Transmits (s.transitionTo .decodeMsd enterDecodeMsd) := by
  unfold transitionTo enterDecodeMsd
  split_ifs with hng h6
  · exact .inr (.inr ⟨rfl, by simpa using hng, by
      cases hc : s.isCustomNumberEcall <;> simp [regulatory]⟩)
  · exact transmits_conversation.tell _
  · exact transmits_conversation.tell _

theorem transmits_crc : Transmits (s.transitionTo .crcCheckonMsd enterCrcCheckOnMsd) := by
  unfold transitionTo enterCrcCheckOnMsd
  split_ifs with h7
  · exact .inr (.inl ⟨rfl, by simp⟩)
  · refine transmits_decodeMsd.mono ?_
    intro c hc
    simp [hc]

theorem transmits_send :
    Transmits (s.transitionTo .decodeSendMsd enterDecodeSendMsd) ∨
      (s.transitionTo .decodeSendMsd enterDecodeSendMsd).1 = { s with state := .decodeSendMsd } ∧
        s.isNgEcall = false ∧ s.isMsdTransmitted = true ∧ s.msdPull = false ∧
        s.isCustomNumberEcall = false ∧ .t5 ∈ s.failedTimers := by
  unfold transitionTo enterDecodeSendMsd
  split_ifs with hng hmsd hpull hc h5
  · exact .inl (transmits_crc.tell _)
  · exact .inr ⟨rfl, by simpa using hng, hmsd, by simpa using hpull, by simpa using hc, h5⟩
  · exact .inl (((transmits_crc.tell _).tell _).tell _)
  · exact .inl (transmits_crc.tell _)
  · exact .inl (transmits_conversation.tell _)
  · exact .inl (transmits_conversation.tell _)
  · exact .inl (transmits_decodeMsd.tell _)
  · exact .inl transmits_conversation

end Transmits

section EntryPoints

variable {s : EcallSession}

/-- The session waits for what it waited for before. -/
structure Idles (s s' : EcallSession) : Prop where
  awaited : ∀ p, s'.awaited p = s.awaited p
  skipsArming : s'.skipsArming = s.skipsArming
  fit : s'.Fit

theorem Fit.idles (h : s.Fit) : Idles s s := ⟨fun _ => rfl, rfl, h⟩

theorem waits_redialing {r : EcallSession × List Callback} (hst : r.1.state = .redialing)
    (hattempt : r.1.redialAttempt ≠ 0) (harms : ∃ delayMs, .startRedialTimer delayMs ∈ r.2) :
    Waits r := by
  constructor
  · constructor <;> intro h
    · rw [hst] at h
      cases h
    · rw [hst] at h
      cases h
    · exact hattempt
  · intro p k hk _
    simp only [awaited, hst, Option.some.injEq] at hk
    subst hk
    exact harms

theorem waits_decodeSendMsd {r : EcallSession × List Callback} (hst : r.1.state = .decodeSendMsd)
    (h5 : .t5 ∈ r.1.failedTimers) (harms : r.1.redialAttempt ≠ 0 ∨ .startTimer .t5 ∈ r.2) :
    Waits r := by
  constructor
  · constructor <;> intro h
    · exact h5
    · rw [hst] at h
      cases h
    · rw [hst] at h
      cases h
  · intro p k hk hskip
    simp only [awaited, hst, Option.some.injEq] at hk
    simp only [skipsArming, hst, decide_eq_false_iff_not] at hskip
    subst hk
    exact harms.resolve_left hskip

theorem Waits.tell {r : EcallSession × List Callback} (cs : List Callback) (h : Waits r) :
    Waits (tell cs r) := by
  refine ⟨h.fit, ?_⟩
  intro p k hk hskip
  have harms := h.arms hk hskip
  cases k with
  | hlap _ timer => exact List.mem_append_right _ harms
  | redial _ =>
    obtain ⟨delayMs, hmem⟩ := harms
    exact ⟨delayMs, List.mem_append_right _ hmem⟩

theorem waits_psapCallback : Waits s.transitionToPsapCallback :=
  waits_of_unawaited (fun _ => rfl)

theorem waits_conversation : Waits (s.transitionTo .callConversation enterCallConversation) :=
  waits_of_unawaited (fun _ => rfl)

theorem waits_start : Waits s.start := by
  unfold start transitionTo enterCallConnect
  split
  · exact ((waits_redialing rfl Nat.one_ne_zero ⟨_, List.mem_singleton_self _⟩).tell _).tell _
  · rcases transmits_send (s := { s with state := .callConnect }) with
      h | ⟨hstay, hng, hmsd, -, hc, h5⟩
    · exact (h.waits.tell _).tell _
    · -- T5 has been started on the way out of CallConnect
      refine waits_decodeSendMsd (congrArg state hstay) ?_ (.inr ?_)
      · exact (congrArg failedTimers hstay).symm ▸ h5
      · simp_all [EcallSession.tell]

theorem waits_hangup : Waits s.hangup := by
  unfold hangup
  split
  all_goals first
    | exact waits_psapCallback.tell _
    | rename_i hst; exact waits_of_unawaited (fun p => by simp [awaited, hst])

theorem waits_redialExpiry (hfit : s.Fit) (hst : s.state = .redialing) :
    Waits s.onRedialTimerExpiry := by
  unfold onRedialTimerExpiry
  simp only [hst, ne_eq, not_true_eq_false, if_false]
  refine Waits.tell _ ?_
  split
  · refine Waits.tell _ ?_
    rcases transmits_send (s := s) with h | ⟨hstay, -, -, -, -, h5⟩
    · exact h.waits
    · refine waits_decodeSendMsd (congrArg state hstay) ?_ (.inl ?_)
      · exact (congrArg failedTimers hstay).symm ▸ h5
      · exact (congrArg redialAttempt hstay).symm ▸ hfit.redialing hst
  · refine Waits.tell _ ?_
    split
    · exact waits_redialing rfl (Nat.succ_ne_zero _) ⟨_, List.mem_cons_of_mem _ (List.mem_singleton_self _)⟩
    · exact waits_psapCallback.tell _

theorem waits_pull (hfit : s.Fit) : Waits s.msdPullRequest ∨ Idles s s.msdPullRequest.1 := by
  unfold msdPullRequest
  dsimp only
  split_ifs with hst hng
  · exact .inl (waits_of_unawaited (fun p => by simp [awaited, hst]))
  · -- a pull goes on to the CRC check at once
    left
    rcases transmits_send (s := { s with msdPull := true, updateInProgress := true }) with
      h | ⟨-, -, -, hpull, -⟩
    · exact h.waits
    · cases hpull
  · exact .inr ⟨fun _ => rfl, rfl, ⟨hfit.decodeSendMsd, hfit.decodeMsd, hfit.redialing⟩⟩

theorem onHlapTimerExpiry_of_awaited (hfit : s.Fit) {p : ℤ} {timer : Timer} (mode : OperatingMode)
    (hk : s.awaited p = some (.hlap p timer)) (hskip : s.skipsArming = false) :
    s.onHlapTimerExpiry timer mode = s.transmissionFailure timer := by
  unfold awaited at hk
  split at hk <;> rename_i hst <;> cases hk
  · simp [onHlapTimerExpiry, hst, hfit.decodeSendMsd hst]
  · simp [onHlapTimerExpiry, hst]
  · have hc : s.isCustomNumberEcall = false := by simpa [skipsArming, hst] using hskip
    simp [onHlapTimerExpiry, hst, hc, hfit.decodeMsd hst]

theorem waits_hlapExpiry (hfit : s.Fit) (timer : Timer) (mode : OperatingMode) :
    Waits (s.onHlapTimerExpiry timer mode) ∨
      ((s.onHlapTimerExpiry timer mode) = (s, []) ∧
        ∀ p, s.awaited p = some (.hlap p timer) → s.skipsArming = true) := by
  by_cases hheed : ∃ p, s.awaited p = some (.hlap p timer) ∧ s.skipsArming = false
  · obtain ⟨p, hk, hskip⟩ := hheed
    rw [onHlapTimerExpiry_of_awaited hfit mode hk hskip]
    exact .inl (waits_conversation.tell _)
  · push Not at hheed
    have hskips : ∀ p, s.awaited p = some (.hlap p timer) → s.skipsArming = true := by
      simpa using hheed
    have hreaction := reaction_hlapExpiry s timer mode
    generalize s.onHlapTimerExpiry timer mode = r at hreaction ⊢
    cases hreaction with
    | failed => exact .inl (waits_conversation.tell _)
    | redialed =>
      refine .inl (Waits.tell _ ?_)
      exact waits_redialing rfl Nat.one_ne_zero ⟨_, List.mem_singleton_self _⟩
    | calledBack => exact .inl (waits_psapCallback.tell _)
    | ended => exact .inl (waits_of_unawaited (fun p => rfl))
    | goesOn hst | expired hst => exact .inl (waits_of_unawaited (fun p => by simp [awaited, hst]))
    | ignored => exact .inr ⟨rfl, hskips⟩

/-- A redial that connects while T5 is made to fail leaves the session in DecodeSendMSD, and no
timer is started. -/
theorem redial_connects_unarmed (hst : s.state = .redialing) (hconnects : s.redialConnects)
    (hng : s.isNgEcall = false) (hmsd : s.isMsdTransmitted) (hpull : s.msdPull = false)
    (hc : s.isCustomNumberEcall = false) (h5 : .t5 ∈ s.failedTimers) (k : TimerKey) :
    s.onRedialTimerExpiry.1.state = .decodeSendMsd ∧ ¬ arms s.onRedialTimerExpiry.2 k := by
  cases k <;>
    simp [onRedialTimerExpiry, hst, hconnects, transitionTo, enterDecodeSendMsd, hng, hmsd, hpull,
      hc, h5, EcallSession.tell, arms, changeCallState]

/-- So does a CRC check for a custom number while T6 is made to fail, in DecodeMSD. -/
theorem crc_custom_unarmed (hng : s.isNgEcall = false) (hc : s.isCustomNumberEcall)
    (h6 : .t6 ∈ s.failedTimers) (h7 : .t7 ∉ s.failedTimers) (k : TimerKey) :
    s.enterCrcCheckOnMsd.1.state = .decodeMsd ∧ ¬ arms s.enterCrcCheckOnMsd.2 k := by
  cases k <;>
    simp [enterCrcCheckOnMsd, transitionTo, enterDecodeMsd, hng, hc, h6, h7, regulatory, arms]

end EntryPoints

end EcallSession

/-- Deferred posts and the uuids they are kept under: no uuid is given out twice, and one is kept
under the key of its own post only. -/
structure Deferred (scheduled : List (ℕ × TimerKey)) (uuids : TimerKey → Option ℕ) (next : ℕ) :
    Prop where
  unique : ∀ {u k k'}, (u, k) ∈ scheduled → (u, k') ∈ scheduled → k = k'
  owned : ∀ {u k k'}, (u, k) ∈ scheduled → uuids k' = some u → k' = k
  scheduled_lt : ∀ {u k}, (u, k) ∈ scheduled → u < next
  uuids_lt : ∀ {u k}, uuids k = some u → u < next

theorem Deferred.push {scheduled : List (ℕ × TimerKey)} {uuids : TimerKey → Option ℕ} {next : ℕ}
    (h : Deferred scheduled uuids next) (key : TimerKey) :
    Deferred (scheduled ++ [(next, key)]) (Function.update uuids key (some next)) (next + 1) := by
  have hmem : ∀ {u k}, (u, k) ∈ scheduled ++ [(next, key)] →
      ((u, k) ∈ scheduled ∧ u < next) ∨ (u = next ∧ k = key) := by
    intro u k hs
    rcases List.mem_append.mp hs with hs | hs
    · exact .inl ⟨hs, h.scheduled_lt hs⟩
    · right
      simpa using hs
  have hkept : ∀ {u k}, Function.update uuids key (some next) k = some u →
      (uuids k = some u ∧ u < next) ∨ (u = next ∧ k = key) := by
    intro u k hk
    by_cases heq : k = key
    · subst heq
      rw [Function.update_self, Option.some.injEq] at hk
      exact .inr ⟨hk.symm, rfl⟩
    · rw [Function.update_of_ne heq] at hk
      exact .inl ⟨hk, h.uuids_lt hk⟩
  constructor
  · intro u k k' hs hs'
    rcases hmem hs with ⟨hs, hlt⟩ | ⟨rfl, rfl⟩ <;> rcases hmem hs' with ⟨hs', hlt'⟩ | ⟨hu, rfl⟩
    · exact h.unique hs hs'
    · omega
    · omega
    · rfl
  · intro u k k' hs hk
    rcases hmem hs with ⟨hs, hlt⟩ | ⟨rfl, rfl⟩ <;> rcases hkept hk with ⟨hk, hlt'⟩ | ⟨hu, rfl⟩
    · exact h.owned hs hk
    · omega
    · omega
    · rfl
  · intro u k hs
    rcases hmem hs with ⟨-, hlt⟩ | ⟨rfl, -⟩ <;> omega
  · intro u k hk
    rcases hkept hk with ⟨-, hlt⟩ | ⟨rfl, -⟩ <;> omega

namespace EcallManagerAO

variable {m m' : EcallManagerAO} {key k : TimerKey} {p : ℤ}

def Keyed (m : EcallManagerAO) : Prop := Deferred m.scheduled m.timerUuids m.nextUuid

def Pending (m : EcallManagerAO) (k : TimerKey) : Prop :=
  .timerExpiry k ∈ m.fifo ∨ ∃ u, (u, k) ∈ m.scheduled

section Schedule

theorem Keyed.forget (h : m.Keyed) (key : TimerKey) :
    { m with timerUuids := Function.update m.timerUuids key none }.Keyed := by
  have hold : ∀ {u k}, Function.update m.timerUuids key none k = some u → m.timerUuids k = some u := by
    intro u k hk
    by_cases heq : k = key
    · subst heq
      simp at hk
    · rwa [Function.update_of_ne heq] at hk
  exact ⟨h.unique, fun hs hk => h.owned hs (hold hk), h.scheduled_lt, fun hk => h.uuids_lt (hold hk)⟩

theorem Keyed.cancel (h : m.Keyed) (key : TimerKey) : (m.cancel key).Keyed := by
  have hforget := h.forget key
  have hsub : ∀ {x}, x ∈ (m.cancel key).scheduled → x ∈ m.scheduled := List.mem_of_mem_filter
  exact ⟨fun hs hs' => hforget.unique (hsub hs) (hsub hs'), fun hs => hforget.owned (hsub hs),
    fun hs => hforget.scheduled_lt (hsub hs), hforget.uuids_lt⟩

theorem Keyed.pending_cancel (h : m.Keyed) (hne : k ≠ key) (hk : m.Pending k) :
    (m.cancel key).Pending k := by
  refine hk.imp_right ?_
  rintro ⟨u, hu⟩
  refine ⟨u, List.mem_filter.mpr ⟨hu, ?_⟩⟩
  simp only [ne_eq, decide_not, Bool.not_eq_true', decide_eq_false_iff_not]
  intro hkept
  exact hne (h.owned hu hkept.symm).symm

theorem Keyed.schedule (h : m.Keyed) (key : TimerKey) (periodMs : ℤ) :
    (m.schedule key periodMs).Keyed := by
  have hc := h.cancel key
  unfold EcallManagerAO.schedule
  dsimp only
  split
  · exact hc
  · exact hc.push key

theorem pending_schedule_self (key : TimerKey) (periodMs : ℤ) :
    (m.schedule key periodMs).Pending key := by
  unfold schedule
  dsimp only
  split
  · exact .inl (List.mem_append_right _ (List.mem_singleton_self _))
  · exact .inr ⟨_, List.mem_append_right _ (List.mem_singleton_self _)⟩

theorem Keyed.pending_schedule (h : m.Keyed) (key : TimerKey) (periodMs : ℤ) (hk : m.Pending k) :
    (m.schedule key periodMs).Pending k := by
  by_cases heq : k = key
  · exact heq ▸ pending_schedule_self key periodMs
  · have hc := h.pending_cancel heq hk
    unfold EcallManagerAO.schedule
    dsimp only
    split
    · exact hc.imp_left (List.mem_append_left _)
    · refine hc.imp_right ?_
      rintro ⟨u, hu⟩
      exact ⟨u, List.mem_append_left _ hu⟩

end Schedule

section Callbacks

/-- The sessions are the same, and no expiry that was pending is lost. -/
structure Carried (m m' : EcallManagerAO) : Prop where
  keyed : m'.Keyed
  sessions : m'.sessions = m.sessions
  pending : ∀ {k}, m.Pending k → m'.Pending k

theorem Carried.trans {m'' : EcallManagerAO} (h : Carried m m') (h' : Carried m' m'') :
    Carried m m'' :=
  ⟨h'.keyed, h'.sessions.trans h.sessions, fun hk => h'.pending (h.pending hk)⟩

theorem Keyed.carried_schedule (h : m.Keyed) (key : TimerKey) (periodMs : ℤ) :
    Carried m (m.schedule key periodMs) := by
  refine ⟨h.schedule key periodMs, ?_, h.pending_schedule key periodMs⟩
  unfold EcallManagerAO.schedule
  dsimp only
  split <;> rfl

theorem Keyed.carried_perform (h : m.Keyed) {c : Callback} (hc : c ≠ .onTerminal) :
    Carried m (m.perform p c) := by
  cases c with
  | onTerminal => exact absurd rfl hc
  | startTimer timer =>
    have hreport : (m.reportTimer p timer .started).Keyed := h
    have harmed := hreport.carried_schedule (.hlap p timer) (m.timerDurationMs p timer)
    exact ⟨harmed.keyed, harmed.sessions, harmed.pending⟩
  | startRedialTimer delayMs => exact h.carried_schedule _ _
  | changeCallState action remotePartyNumber =>
    simp only [perform]
    split <;> exact ⟨h, rfl, id⟩
  | sendEvent timer status => cases status <;> exact ⟨h, rfl, id⟩
  | _ => exact ⟨h, rfl, id⟩

theorem Keyed.carried_performAll (h : m.Keyed) {cs : List Callback} (hcs : .onTerminal ∉ cs) :
    Carried m (cs.foldl (perform p) m) := by
  induction cs generalizing m with
  | nil => exact ⟨h, rfl, id⟩
  | cons c cs ih =>
    simp only [List.mem_cons, not_or] at hcs
    have hc : Carried m (m.perform p c) := h.carried_perform (Ne.symm hcs.1)
    exact hc.trans (ih hc.keyed hcs.2)

/-- What the callbacks start is pending when they have been carried out. -/
theorem Keyed.pending_performAll (h : m.Keyed) {cs : List Callback} (hcs : .onTerminal ∉ cs)
    (hphone : k.phoneId = p) (harms : EcallSession.arms cs k) :
    (cs.foldl (perform p) m).Pending k := by
  induction cs generalizing m with
  | nil =>
    cases k with
    | hlap _ timer => cases harms
    | redial _ => obtain ⟨_, hmem⟩ := harms; cases hmem
  | cons c cs ih =>
    simp only [List.mem_cons, not_or] at hcs
    have hc : Carried m (m.perform p c) := h.carried_perform (Ne.symm hcs.1)
    have hrest : Carried _ (cs.foldl (perform p) (m.perform p c)) :=
      hc.keyed.carried_performAll hcs.2
    cases k with
    | hlap q timer =>
      obtain rfl : q = p := hphone
      rcases List.mem_cons.mp harms with rfl | hmem
      · exact hrest.pending (pending_schedule_self _ _)
      · exact ih hc.keyed hcs.2 hmem
    | redial q =>
      obtain rfl : q = p := hphone
      obtain ⟨delayMs, hmem⟩ := harms
      rcases List.mem_cons.mp hmem with rfl | hmem
      · exact hrest.pending (pending_schedule_self _ _)
      · exact ih hc.keyed hcs.2 ⟨delayMs, hmem⟩

end Callbacks

/-- Every session is fit, and what it waits for is pending unless its arming was skipped. Nothing
is said of an expiry that is being delivered. -/
structure Standing (delivered : Option TimerKey) (m : EcallManagerAO) : Prop where
  keyed : m.Keyed
  fit : ∀ {p s}, m.sessions p = some s → s.Fit
  pending : ∀ {p s k}, m.sessions p = some s → s.awaited p = some k → s.skipsArming = false →
    k ∉ delivered → m.Pending k

section Standing

variable {delivered : Option TimerKey} {s : EcallSession}

/-- An expiry that is delivered to a phone is no matter of another phone's session. -/
theorem Standing.pending_of_ne (h : m.Standing delivered) (hphone : ∀ k ∈ delivered, k.phoneId = p)
    {q : ℤ} (hne : q ≠ p) (hs : m.sessions q = some s) (hk : s.awaited q = some k)
    (hskip : s.skipsArming = false) : m.Pending k := by
  refine h.pending hs hk hskip ?_
  intro hmem
  exact hne ((EcallSession.awaited_phoneId hk).symm.trans (hphone k hmem))

/-- The session has come to rest with its timer started, or waits on for what is pending. -/
theorem Standing.drive (h : m.Standing delivered) (hphone : ∀ k ∈ delivered, k.phoneId = p)
    (hs : m.sessions p = some s) {r : EcallSession × List Callback}
    (hkeeps : EcallSession.Keeps r)
    (hr : EcallSession.Waits r ∨ (EcallSession.Idles s r.1 ∧
      ∀ k ∈ delivered, s.awaited p = some k → s.skipsArming = true)) :
    (m.drive p r).Standing none := by
  have hset : (m.setSession p (some r.1)).Keyed := h.keyed
  have hall : Carried _ (m.drive p r) := hset.carried_performAll hkeeps
  have hsessions : ∀ q, (m.drive p r).sessions q = if q = p then some r.1 else m.sessions q := by
    intro q
    rw [hall.sessions]
    exact Function.update_apply _ _ _ _
  refine ⟨hall.keyed, ?_, ?_⟩
  · intro q s' hs'
    rw [hsessions] at hs'
    split at hs'
    · cases hs'
      rcases hr with hr | ⟨hr, -⟩
      · exact hr.fit
      · exact hr.fit
    · exact h.fit hs'
  · intro q s' k hs' hk hskip _
    rw [hsessions] at hs'
    split at hs'
    · rename_i hq
      cases hs'
      subst hq
      rcases hr with hr | ⟨hr, hnot⟩
      · exact hset.pending_performAll hkeeps (EcallSession.awaited_phoneId hk) (hr.arms hk hskip)
      · rw [hr.awaited] at hk
        rw [hr.skipsArming] at hskip
        refine hall.pending (h.pending hs hk hskip ?_)
        intro hmem
        rw [hnot k hmem hk] at hskip
        cases hskip
    · rename_i hq
      exact hall.pending (h.pending_of_ne hphone hq hs' hk hskip)

theorem Keyed.cancelAll (h : m.Keyed) (timers : List Timer) :
    (timers.foldl (fun m timer => m.cancel (.hlap p timer)) m).Keyed ∧
      ∀ {k : TimerKey}, k.phoneId ≠ p → m.Pending k →
        (timers.foldl (fun m timer => m.cancel (.hlap p timer)) m).Pending k := by
  induction timers generalizing m with
  | nil => exact ⟨h, fun _ hk => hk⟩
  | cons timer timers ih =>
    obtain ⟨hkeyed, hpending⟩ := ih (h.cancel (.hlap p timer))
    refine ⟨hkeyed, ?_⟩
    intro k hne hk
    refine hpending hne (h.pending_cancel ?_ hk)
    rintro rfl
    exact hne rfl

theorem Standing.clearCallSlot (h : m.Standing delivered)
    (hphone : ∀ k ∈ delivered, k.phoneId = p) : (m.clearCallSlot p).Standing none := by
  have hset : (m.setSession p none).Keyed := h.keyed
  obtain ⟨hkeyed, hpending⟩ := hset.cancelAll (p := p) allTimers
  have hsessions : ∀ q, (m.clearCallSlot p).sessions q = if q = p then none else m.sessions q :=
    fun q => Function.update_apply _ _ _ _
  refine ⟨hkeyed.cancel (.redial p), ?_, ?_⟩
  · intro q s hs
    rw [hsessions] at hs
    split at hs
    · cases hs
    · exact h.fit hs
  · intro q s k hs hk hskip _
    rw [hsessions] at hs
    split at hs
    · cases hs
    · rename_i hq
      have hne : k.phoneId ≠ p := by
        rw [EcallSession.awaited_phoneId hk]
        exact hq
      refine hkeyed.pending_cancel ?_ (hpending hne (h.pending_of_ne hphone hq hs hk hskip))
      rintro rfl
      exact hne rfl

theorem Standing.carried (h : m.Standing delivered) (hc : Carried m m') :
    m'.Standing delivered := by
  refine ⟨hc.keyed, ?_, ?_⟩
  · intro p s hs
    rw [hc.sessions] at hs
    exact h.fit hs
  · intro p s k hs hk hskip hnot
    rw [hc.sessions] at hs
    exact hc.pending (h.pending hs hk hskip hnot)

theorem Keyed.carried_pub (h : m.Keyed) (x : Publication) : Carried m (m.pub x) := ⟨h, rfl, id⟩

theorem Keyed.carried_postFifo (h : m.Keyed) (e : Event) : Carried m (m.postFifo e) :=
  ⟨h, rfl, fun hk => hk.imp_left (List.mem_append_left _)⟩

theorem Standing.openSession (h : m.Standing none) (corrId : ℕ) (type : EcallType)
    (isMsdTransmitted : Bool) (remotePartyNumber dialNumber : String) :
    (m.openSession corrId p type isMsdTransmitted remotePartyNumber dialNumber).Standing none := by
  have hsessions : ∀ q s,
      (m.openSession corrId p type isMsdTransmitted remotePartyNumber dialNumber).sessions q =
        some s → s.state = .callConnect ∨ m.sessions q = some s := by
    intro q s hs
    change Function.update m.sessions p _ q = some s at hs
    rw [Function.update_apply] at hs
    split at hs
    · cases hs
      exact .inl rfl
    · exact .inr hs
  refine ⟨h.keyed, ?_, ?_⟩
  · intro q s hs
    rcases hsessions q s hs with hst | hs
    · constructor <;> intro hst' <;> rw [hst] at hst' <;> cases hst'
    · exact h.fit hs
  · intro q s k hs hk hskip _
    rcases hsessions q s hs with hst | hs
    · simp [EcallSession.awaited, hst] at hk
    · exact (h.pending hs hk hskip (by simp)).imp_left (List.mem_append_left _)

theorem Standing.runSession (h : m.Standing none)
    {f : EcallSession → EcallSession × List Callback} (hkeeps : ∀ s, EcallSession.Keeps (f s))
    (hf : ∀ s, s.Fit → EcallSession.Waits (f s) ∨ EcallSession.Idles s (f s).1) :
    (m.runSession p f).Standing none := by
  unfold EcallManagerAO.runSession
  split
  · exact h
  · rename_i s hs
    exact h.drive (by simp) hs (hkeeps s) ((hf s (h.fit hs)).imp_right (fun hi => ⟨hi, by simp⟩))

theorem Standing.hangupFromUser (h : m.Standing none) (hs : m.sessions p = some s) :
    (m.hangupFromUser p s).Standing none := by
  have hdrive : (m.drive p s.hangup).Standing none :=
    h.drive (by simp) hs s.keeps_hangup (.inl EcallSession.waits_hangup)
  unfold EcallManagerAO.hangupFromUser
  dsimp only
  split
  · exact hdrive.clearCallSlot (by simp)
  · exact hdrive

theorem Standing.dispatchMessage (h : m.Standing none) (corrId : ℕ) (q : Request) :
    (m.dispatchMessage corrId q).Standing none := by
  have hpub : ∀ x, (m.pub x).Standing none := fun x => h.carried (h.keyed.carried_pub x)
  cases q with
  | startEcall p type isMsdTransmitted remotePartyNumber dialNumber =>
    simp only [EcallManagerAO.dispatchMessage, handleStartEcall]
    split
    · exact h.openSession ..
    · split
      · exact (h.clearCallSlot (by simp)).openSession ..
      · exact hpub _
  | endEcall p callIndex =>
    simp only [EcallManagerAO.dispatchMessage, handleEndEcall]
    split
    · exact hpub _
    · rename_i s hs
      have hend := h.hangupFromUser (Option.filter_eq_some_iff.mp hs).1
      exact hend.carried (hend.keyed.carried_pub _)
  | answerEcall p callIndex =>
    simp only [EcallManagerAO.dispatchMessage, handleAnswerEcall]
    split <;> exact hpub _
  | sendMsd p =>
    simp only [EcallManagerAO.dispatchMessage, handleSendMsd]
    split
    · exact hpub _
    · exact (hpub _).carried ((hpub _).keyed.carried_postFifo _)
  | requestNetworkDeregistration p =>
    simp only [EcallManagerAO.dispatchMessage, handleRequestNetworkDeregistration]
    split
    · exact hpub _
    · split
      · exact hpub _
      · rename_i s hs
        have hidles : EcallSession.Idles s s.networkDeregistrationRequest.1 := by
          unfold EcallSession.networkDeregistrationRequest
          split <;> exact (h.fit hs).idles
        exact (hpub _).drive (by simp) hs s.keeps_deregistration (.inr ⟨hidles, by simp⟩)
  | updateHlapTimer p type duration =>
    simp only [EcallManagerAO.dispatchMessage, handleUpdateHlapTimer]
    split
    · exact hpub _
    · exact h.carried ⟨h.keyed, rfl, id⟩
  | requestHlapTimer p type =>
    simp only [EcallManagerAO.dispatchMessage, handleRequestHlapTimer]
    split <;> exact hpub _
  | configureEcallRedial config timeGap =>
    simp only [EcallManagerAO.dispatchMessage, handleConfigureEcallRedial]
    split
    · exact h.carried ⟨h.keyed, rfl, id⟩
    · exact hpub _
  | _ => exact h.carried ⟨h.keyed, rfl, id⟩

theorem Standing.unattended (h : m.Standing delivered) (hphone : ∀ k ∈ delivered, k.phoneId = p)
    (hnone : m.sessions p = none) : m.Standing none := by
  refine ⟨h.keyed, h.fit, ?_⟩
  intro q s k hs hk hskip _
  refine h.pending_of_ne hphone ?_ hs hk hskip
  rintro rfl
  rw [hnone] at hs
  cases hs

theorem Standing.hlapExpiry {timer : Timer} (h : m.Standing (some (.hlap p timer)))
    (hs : m.sessions p = some s) (mode : OperatingMode) :
    (m.drive p (s.onHlapTimerExpiry timer mode)).Standing none := by
  have hphone : ∀ k ∈ some (TimerKey.hlap p timer), k.phoneId = p := by
    simp [TimerKey.phoneId]
  by_cases hends : s.endsCall timer mode
  · have hrun : m.drive p (s.onHlapTimerExpiry timer mode) =
        (m.drive p ({ s with state := .terminal }, [.expiryTimer .t9])).clearCallSlot p := by
      rw [EcallSession.onHlapTimerExpiry_of_endsCall hends]
      rfl
    have hdrive : (m.drive p ({ s with state := .terminal }, [.expiryTimer .t9])).Standing none :=
      h.drive hphone hs (by simp) (.inl (EcallSession.waits_of_unawaited (fun _ => rfl)))
    rw [hrun]
    exact hdrive.clearCallSlot (by simp)
  · refine h.drive hphone hs (EcallSession.keeps_hlapExpiry hends) ?_
    refine (EcallSession.waits_hlapExpiry (h.fit hs) timer mode).imp_right ?_
    rintro ⟨hsame, hskips⟩
    rw [hsame]
    refine ⟨(h.fit hs).idles, ?_⟩
    rintro k hk hawaited
    obtain rfl : .hlap p timer = k := by simpa using hk
    exact hskips p hawaited

theorem Standing.redialExpiry (h : m.Standing (some (.redial p))) (hs : m.sessions p = some s) :
    (m.drive p s.onRedialTimerExpiry).Standing none := by
  have hphone : ∀ k ∈ some (TimerKey.redial p), k.phoneId = p := by simp [TimerKey.phoneId]
  refine h.drive hphone hs s.keeps_redialExpiry ?_
  by_cases hst : s.state = .redialing
  · exact .inl (EcallSession.waits_redialExpiry (h.fit hs) hst)
  · right
    have hsame : s.onRedialTimerExpiry = (s, []) := by
      simp [EcallSession.onRedialTimerExpiry, hst]
    rw [hsame]
    refine ⟨(h.fit hs).idles, ?_⟩
    rintro k hk hawaited
    obtain rfl : .redial p = k := by simpa using hk
    unfold EcallSession.awaited at hawaited
    split at hawaited <;> simp_all

theorem Standing.runTimerExpiry (h : m.Standing (some key)) :
    (m.runTimerExpiry key).Standing none := by
  have hforget : { m with timerUuids := Function.update m.timerUuids key none }.Standing
      (some key) := ⟨h.keyed.forget key, h.fit, h.pending⟩
  cases key with
  | hlap p timer =>
    simp only [EcallManagerAO.runTimerExpiry, EcallManagerAO.runSession]
    split
    · rename_i hs
      exact hforget.unattended (by simp [TimerKey.phoneId]) hs
    · rename_i s hs
      exact hforget.hlapExpiry hs _
  | redial p =>
    simp only [EcallManagerAO.runTimerExpiry, EcallManagerAO.runSession]
    split
    · rename_i hs
      exact hforget.unattended (by simp [TimerKey.phoneId]) hs
    · rename_i s hs
      exact hforget.redialExpiry hs

theorem Standing.doStop (h : m.Standing delivered) : m.doStop.Standing none := by
  have hsub : ∀ {x}, x ∈ m.doStop.scheduled → x ∈ m.scheduled := List.mem_of_mem_filter
  refine ⟨⟨fun hs hs' => h.keyed.unique (hsub hs) (hsub hs'), fun _ hk => (by cases hk),
    fun hs => h.keyed.scheduled_lt (hsub hs), fun hk => (by cases hk)⟩, ?_, ?_⟩
  · intro p s hs
    cases hs
  · intro p s k hs
    cases hs

def delivers : Event → Option TimerKey
  | .timerExpiry key => some key
  | _ => none

theorem Standing.handleEvent {e : Event} (h : m.Standing (delivers e)) :
    (m.handleEvent e).Standing none := by
  cases e with
  | messageReceived corrId q => exact h.dispatchMessage corrId q
  | sessionStart p =>
    exact h.runSession (fun s => s.keeps_start) (fun _ _ => .inl EcallSession.waits_start)
  | sessionHangup p =>
    simp only [EcallManagerAO.handleEvent, runSessionHangup, Bool.false_eq_true, if_false]
    split
    · exact h
    · rename_i s hs
      exact h.hangupFromUser hs
  | sessionHangupFromPsap p =>
    exact h.runSession (fun s => s.keeps_hangup) (fun _ _ => .inl EcallSession.waits_hangup)
  | sessionMsdPull p =>
    exact h.runSession (fun s => s.keeps_pull) (fun _ hfit => EcallSession.waits_pull hfit)
  | timerExpiry key => exact h.runTimerExpiry
  | forceTimerFailure timer =>
    simp only [EcallManagerAO.handleEvent, applyForceTimerFailure]
    split <;> exact h.carried ⟨h.keyed, rfl, id⟩
  | stop => exact h.doStop
  | _ => exact h.carried ⟨h.keyed, rfl, id⟩

theorem Standing.elapse {uuid : ℕ} (h : m.Standing none) (helapse : m.elapse uuid = some m') :
    m'.Standing none := by
  obtain ⟨key, hkey, rfl⟩ := Option.map_eq_some_iff.mp helapse
  have hmem : (uuid, key) ∈ m.scheduled := by
    obtain ⟨l₁, l₂, hl, -⟩ := List.lookup_eq_some_iff.mp hkey
    simp [hl]
  have hsub : ∀ {x}, x ∈ m.scheduled.filter (·.1 ≠ uuid) → x ∈ m.scheduled :=
    List.mem_of_mem_filter
  refine ⟨⟨fun hs hs' => h.keyed.unique (hsub hs) (hsub hs'), fun hs => h.keyed.owned (hsub hs),
    fun hs => h.keyed.scheduled_lt (hsub hs), h.keyed.uuids_lt⟩, h.fit, ?_⟩
  intro p s k hs hk hskip _
  rcases h.pending hs hk hskip (by simp) with hfifo | ⟨u, hu⟩
  · exact .inl (List.mem_append_left _ hfifo)
  · by_cases huuid : u = uuid
    · subst huuid
      obtain rfl := h.keyed.unique hu hmem
      exact .inl (List.mem_append_right _ (List.mem_singleton_self _))
    · exact .inr ⟨u, List.mem_filter.mpr ⟨hu, by simpa using huuid⟩⟩

theorem Standing.take {e : Event} {fifo : List Event} (h : m.Standing none)
    (hfifo : m.fifo = e :: fifo) : { m with fifo := fifo }.Standing (delivers e) := by
  refine ⟨h.keyed, h.fit, ?_⟩
  intro p s k hs hk hskip hnot
  refine (h.pending hs hk hskip (by simp)).imp_left ?_
  intro hmem
  rw [hfifo] at hmem
  rcases List.mem_cons.mp hmem with rfl | hmem
  · exact absurd rfl hnot
  · exact hmem

end Standing

end EcallManagerAO

end TelafSim.Ecall
