import TelafSim.DataCallbacks

/-!
# The sessions and requests of a run

What holds of every session and every request of the PA in any run: sessions rest in leaves, only
stops are deferred, a session that waits for its call to come up has its bring-up timer pending, the
map leads to sessions of its own profiles that run, and requests have ids of their own.
-/

namespace TelafSim.Data

open Manager

section React

variable {profileId : ℤ} {st : SessionState} {e : SessionEvent} {s : Session}

theorem react_deferred_cb (hs : ∀ x ∈ s.deferred, x.cb.isSome) :
    ∀ x ∈ (react profileId st e s).2.deferred, x.cb.isSome := by
  fun_cases react profileId st e s
  case case2 cb =>
    intro x hx
    rcases List.mem_append.mp hx with hx | hx
    · exact hs x hx
    · rw [List.mem_singleton.mp hx]
      rfl
  case case3 => exact fun x hx => by cases hx
  case case11 data _ =>
    obtain ⟨-, -, hd, -⟩ := connectedSt_stateInd data s
    simpa only [hd] using hs
  all_goals simpa using hs

theorem react_reposts (hs : s.effects = []) {x : SessionEvent}
    (hx : .repost x ∈ (react profileId st e s).2.effects) : x ∈ s.deferred := by
  revert hx
  fun_cases react profileId st e s
  case case11 data _ =>
    obtain ⟨-, -, -, heff | heff⟩ := connectedSt_stateInd data s <;> simp [heff, hs]
  all_goals
    simp [hs, Session.emit, Session.recallAll, Session.respondStart, Session.respondStop,
      Session.setStatus, Session.applyAddrInfo, Session.goDown]

/-- The bring-up timer is armed on the way to WaitingForUp, and stays until the state is left. -/
theorem react_waitingForUp (hs : s.effects = [])
    (hup : (react profileId st e s).1 = .waitingForUp) :
    (st = .waitingForUp ∧ e ≠ .bringupTimeout ∧ (react profileId st e s).2.effects = []) ∨
      (.arm .bringup ∈ (react profileId st e s).2.effects ∧
        .disarm .bringup ∉ (react profileId st e s).2.effects) := by
  revert hup
  fun_cases react profileId st e s
  all_goals
    simp_all [Session.emit, Session.recallAll, Session.respondStart, Session.respondStop,
      Session.setStatus, Session.applyAddrInfo, Session.goDown]

end React

namespace SessionAO

/-- The bring-up timer is to be armed, armed, picked or has fired. -/
def BringupPending (a : SessionAO) : Prop :=
  .arm .bringup ∈ a.effects ∨ .bringup ∈ a.armed ∨ .bringup ∈ a.firing ∨ .bringupTimeout ∈ a.queue

structure Fit (a : SessionAO) : Prop where
  leaf : ∃ st, a.state = some st ∧ st ≠ .active
  deferred : ∀ e ∈ a.hsm.ext.deferred, e.cb.isSome
  reposts : ∀ e, .repost e ∈ a.effects → e.cb.isSome
  bringup : a.running → a.state = some .waitingForUp →
    .disarm .bringup ∉ a.effects ∧ a.BringupPending

variable {a a' : SessionAO}

theorem create_fit (profileId : ℤ) (ifname : String) (cb : ℕ) : (create profileId ifname cb).Fit where
  leaf := ⟨.idle, rfl, by decide⟩
  deferred e h := by cases h
  reposts e h := by cases h
  bringup _ h := by cases h

theorem Fit.of_hsm (ha : a.Fit) (hhsm : a'.hsm = a.hsm) (hrun : a'.running → a.running)
    (hpending : a'.running → a.BringupPending → a'.BringupPending) : a'.Fit where
  leaf := by rw [state, hhsm]; exact ha.leaf
  deferred := by rw [hhsm]; exact ha.deferred
  reposts := by rw [effects, hhsm]; exact ha.reposts
  bringup h hst := by
    rw [state, hhsm] at hst
    obtain ⟨hdis, hpend⟩ := ha.bringup (hrun h) hst
    exact ⟨by rw [effects, hhsm]; exact hdis, hpending h hpend⟩

theorem Fit.postFifo (ha : a.Fit) (e : SessionEvent) : (a.postFifo e).Fit := by
  unfold SessionAO.postFifo
  split
  · refine ha.of_hsm rfl id ?_
    rintro - (h | h | h | h)
    · exact .inl h
    · exact .inr (.inl h)
    · exact .inr (.inr (.inl h))
    · exact .inr (.inr (.inr (List.mem_append_left _ h)))
  · exact ha

theorem Fit.halt (ha : a.Fit) : a.halt.Fit := ha.of_hsm rfl (fun h => by cases h) (fun h => by cases h)

theorem Fit.pick (ha : a.Fit) (t : TimerKind) :
    Fit { a with armed := a.armed.erase t, firing := a.firing ++ [t] } := by
  refine ha.of_hsm rfl id ?_
  rintro - (h | h | h | h)
  · exact .inl h
  · by_cases ht : t = .bringup
    · subst ht
      exact .inr (.inr (.inl (List.mem_append_right _ (List.mem_singleton_self _))))
    · exact .inr (.inl ((List.mem_erase_of_ne (Ne.symm ht)).mpr h))
  · exact .inr (.inr (.inl (List.mem_append_left _ h)))
  · exact .inr (.inr (.inr h))

theorem Fit.fire (ha : a.Fit) (t : TimerKind) :
    Fit ({ a with firing := a.firing.erase t }.postFifo (timeoutEvent t)) := by
  have hkeeps := DataSystem.postFifo_keeps (timeoutEvent t) { a with firing := a.firing.erase t }
  refine ha.of_hsm hkeeps.2 ?_ ?_
  · unfold SessionAO.postFifo
    split <;> exact id
  · unfold SessionAO.postFifo
    split
    · rintro - (h | h | h | h)
      · exact .inl h
      · exact .inr (.inl h)
      · by_cases ht : t = .bringup
        · subst ht
          exact .inr (.inr (.inr (List.mem_append_right _ (List.mem_singleton_self _))))
        · exact .inr (.inr (.inl ((List.mem_erase_of_ne (Ne.symm ht)).mpr h)))
      · exact .inr (.inr (.inr (List.mem_append_left _ h)))
    · rename_i hrun
      exact fun h => absurd h hrun

/-- What performing an effect does to its session. -/
def performed (f : SessionEffect) (fs : List SessionEffect) (a : SessionAO) : SessionAO :=
  match f with
  | .repost e => (a.setEffects fs).postFifo e
  | .arm t => (a.setEffects fs).arm t
  | .disarm t => (a.setEffects fs).disarm t
  | _ => a.setEffects fs

theorem performed_keeps (f : SessionEffect) (fs : List SessionEffect) (a : SessionAO) :
    (a.performed f fs).profileId = a.profileId ∧ (a.performed f fs).running = a.running ∧
      (a.performed f fs).state = a.state ∧ (a.performed f fs).effects = fs := by
  cases f with
  | repost e =>
    dsimp only [performed, SessionAO.postFifo]
    split <;> exact ⟨rfl, rfl, rfl, rfl⟩
  | _ => exact ⟨rfl, rfl, rfl, rfl⟩

section Effect

variable {f : SessionEffect} {fs : List SessionEffect}

theorem Fit.setEffects (ha : a.Fit) (heff : a.effects = f :: fs) (hf : f ≠ .arm .bringup) :
    (a.setEffects fs).Fit := by
  refine ⟨ha.leaf, ha.deferred, ?_, ?_⟩
  · intro e h
    exact ha.reposts e (by rw [heff]; exact List.mem_cons_of_mem _ h)
  · intro hrun hst
    obtain ⟨hdis, hpend⟩ := ha.bringup hrun hst
    rw [heff] at hdis
    refine ⟨fun h => hdis (List.mem_cons_of_mem _ h), ?_⟩
    rcases hpend with h | h
    · rw [heff] at h
      exact .inl ((List.mem_cons.mp h).resolve_left (Ne.symm hf))
    · exact .inr h

theorem Fit.arm (ha : a.Fit) (heff : a.effects = .arm .bringup :: fs) :
    ((a.setEffects fs).arm .bringup).Fit := by
  refine ⟨ha.leaf, ha.deferred, ?_, ?_⟩
  · intro e h
    exact ha.reposts e (by rw [heff]; exact List.mem_cons_of_mem _ h)
  · intro hrun hst
    obtain ⟨hdis, -⟩ := ha.bringup hrun hst
    rw [heff] at hdis
    exact ⟨fun h => hdis (List.mem_cons_of_mem _ h), .inr (.inl List.mem_cons_self)⟩

theorem Fit.performed (ha : a.Fit) (heff : a.effects = f :: fs) : (a.performed f fs).Fit := by
  by_cases hf : f = .arm .bringup
  · subst hf
    exact ha.arm heff
  · have hset := ha.setEffects heff hf
    cases f with
    | repost e => exact hset.postFifo e
    | arm t =>
      refine hset.of_hsm rfl id ?_
      rintro - (h | h | h)
      · exact .inl h
      · have ht : TimerKind.bringup ≠ t := fun h => hf (by rw [← h])
        exact .inr (.inl (List.mem_cons_of_mem _ ((List.mem_erase_of_ne ht).mpr h)))
      · exact .inr (.inr h)
    | disarm t =>
      refine ⟨hset.leaf, hset.deferred, hset.reposts, ?_⟩
      intro hrun hst
      obtain ⟨hdis, hpend⟩ := hset.bringup hrun hst
      refine ⟨hdis, ?_⟩
      -- in WaitingForUp it is not the bring-up timer that is disarmed
      have ht : TimerKind.bringup ≠ t := by
        rintro rfl
        exact (ha.bringup hrun hst).1 (by rw [heff]; exact List.mem_cons_self)
      rcases hpend with h | h | h
      · exact .inl h
      · exact .inr (.inl ((List.mem_erase_of_ne ht).mpr h))
      · exact .inr (.inr h)
    | respond _ _ _ => exact hset
    | finished => exact hset
    | notify => exact hset
    | rpc _ _ => exact hset

end Effect

theorem Fit.take (ha : a.Fit) {st : SessionState} {e : SessionEvent} {rest : List SessionEvent}
    {h' : Hsm SessionState SessionEvent Session} (hst : a.state = some st) (hleaf : st ≠ .active)
    (heff : a.effects = []) (hq : a.queue = e :: rest)
    (hstate : h'.state = some (react a.profileId st e a.hsm.ext).1)
    (hext : h'.ext = (react a.profileId st e a.hsm.ext).2) :
    Fit { a with hsm := h', queue := rest } := by
  refine ⟨⟨_, hstate, react_ne_active a.profileId hleaf e _⟩, ?_, ?_, ?_⟩
  · rw [hext]
    exact react_deferred_cb ha.deferred
  · intro x hx
    rw [effects, hext] at hx
    exact ha.deferred x (react_reposts heff hx)
  · intro hrun hup
    rw [state, hstate] at hup
    rcases react_waitingForUp heff (Option.some.inj hup) with ⟨rfl, hne, hnone⟩ | ⟨harm, hdis⟩
    · obtain ⟨-, hpend⟩ := ha.bringup hrun hst
      rw [effects, hext, hnone]
      refine ⟨List.not_mem_nil, ?_⟩
      rcases hpend with h | h | h | h
      · rw [heff] at h
        cases h
      · exact .inr (.inl h)
      · exact .inr (.inr (.inl h))
      · rw [hq] at h
        exact .inr (.inr (.inr ((List.mem_cons.mp h).resolve_left (Ne.symm hne))))
    · rw [effects, hext]
      exact ⟨hdis, .inl (by rw [effects, hext]; exact harm)⟩

end SessionAO

namespace Manager

variable {m : Manager} {p q : ℤ}

theorem find_startSession {ifname : String} {cb : ℕ} (h : m.find p = none) :
    (m.startSession p ifname cb).find q = if q = p then some m.sessions.length else m.find q := by
  simp only [find, startSession, List.find?_append]
  by_cases hq : q = p
  · subst hq
    have hnone : m.activeSessions.find? (fun s => s.1 = q) = none := by
      simpa only [find, Option.map_eq_none_iff] using h
    simp [hnone]
  · simp [hq, Ne.symm hq]

theorem find_erase {poster : ℕ} : (m.erase p poster).find q = if q = p then none else m.find q := by
  unfold Manager.erase
  cases hfind : m.find p with
  | none =>
    by_cases hq : q = p
    · rw [if_pos hq, hq, hfind]
    · rw [if_neg hq]
  | some sid =>
    have hfilter : ((m.activeSessions.filter (fun s => s.1 ≠ p)).find? (fun s => s.1 = q)).map
        Prod.snd = if q = p then none else m.find q := by
      rw [List.find?_filter]
      by_cases hq : q = p
      · subst hq
        simp
      · rw [if_neg hq, find]
        congr 2
        funext s
        by_cases hs : s.1 = q
        · simp [hs, hq]
        · simp [hs]
    dsimp only
    split <;> exact hfilter

theorem alive_of_find {sid : ℕ} (h : m.find p = some sid) : m.alive sid :=
  List.any_eq_true.mpr ⟨(p, sid), mem_of_find h, by simp⟩

end Manager

namespace DataSystem

structure Fitting (d : DataSystem) : Prop where
  manager : ∃ st, d.hsm.state = some st ∧ st ≠ .operating
  calls : ∀ e ∈ d.calling, e.cb.isSome
  mapped : ∀ p sid, d.manager.find p = some sid →
    ∃ a, d.manager.sessions[sid]? = some a ∧ a.profileId = p ∧ a.running
  fit : ∀ (sid : ℕ) (a : SessionAO), d.manager.sessions[sid]? = some a → a.Fit
  rpcs : ∀ r ∈ d.manager.rpcs, r.corrId < d.manager.issued ∧
    ∃ a, d.manager.sessions[r.session]? = some a ∧ a.profileId = r.profileId
  nodup : (d.manager.rpcs.map (fun r => r.corrId)).Nodup

theorem started_fitting : started.Fitting where
  manager := ⟨.notReady, rfl, by decide⟩
  calls e h := by cases h
  mapped p sid h := by cases h
  fit sid a h := by simp [started, DataSystem.manager] at h
  rpcs r h := by cases h
  nodup := List.nodup_nil

section Steps

variable {d d' : DataSystem}

theorem Fitting.of_same (hd : d.Fitting) (hmgr : ∃ st, d'.hsm.state = some st ∧ st ≠ .operating)
    (hcalls : ∀ e ∈ d'.calling, e.cb.isSome)
    (hsessions : d'.manager.sessions = d.manager.sessions)
    (hfind : ∀ p sid, d'.manager.find p = some sid → d.manager.find p = some sid)
    (hrpcs : d'.manager.rpcs.Sublist d.manager.rpcs)
    (hissued : d'.manager.issued = d.manager.issued) : d'.Fitting where
  manager := hmgr
  calls := hcalls
  mapped p sid h := by rw [hsessions]; exact hd.mapped p sid (hfind p sid h)
  fit := by rw [hsessions]; exact hd.fit
  rpcs r h := by rw [hissued, hsessions]; exact hd.rpcs r (hrpcs.subset h)
  nodup := hd.nodup.sublist (hrpcs.map _)

/-- The session `sid` moves on, by `f`, and may have sent a request. -/
theorem Fitting.modify (hd : d.Fitting) {sid : ℕ} {a : SessionAO} {f : SessionAO → SessionAO}
    (hmgr : ∃ st, d'.hsm.state = some st ∧ st ≠ .operating)
    (hcalls : ∀ e ∈ d'.calling, e.cb.isSome) (ha : d.manager.sessions[sid]? = some a)
    (hsessions : d'.manager.sessions = d.manager.sessions.modify sid f)
    (hfind : ∀ p sid', d'.manager.find p = some sid' → d.manager.find p = some sid')
    (hprofile : (f a).profileId = a.profileId)
    (hrun : ∀ p, d'.manager.find p = some sid → a.running → (f a).running) (hfit : (f a).Fit)
    (hrpcs : ∀ r ∈ d'.manager.rpcs, r.corrId < d'.manager.issued ∧
      (r ∈ d.manager.rpcs ∨ (r.session = sid ∧ r.profileId = a.profileId)))
    (hnodup : (d'.manager.rpcs.map (fun r => r.corrId)).Nodup) : d'.Fitting := by
  have hget : ∀ sid', d'.manager.sessions[sid']? =
      if sid' = sid then some (f a) else d.manager.sessions[sid']? := by
    intro sid'
    rw [hsessions, List.getElem?_modify]
    by_cases h : sid' = sid
    · subst h
      simp [ha]
    · simp [h, Ne.symm h]
  have hold : ∀ (sid' : ℕ) (b : SessionAO), d.manager.sessions[sid']? = some b →
      ∃ b' : SessionAO, d'.manager.sessions[sid']? = some b' ∧ b'.profileId = b.profileId := by
    intro sid' b hb
    rw [hget]
    by_cases h : sid' = sid
    · subst h
      obtain rfl : a = b := Option.some.inj (ha.symm.trans hb)
      exact ⟨f a, if_pos rfl, hprofile⟩
    · exact ⟨b, by rw [if_neg h, hb], rfl⟩
  refine ⟨hmgr, hcalls, ?_, ?_, ?_, hnodup⟩
  · intro p sid' hp
    obtain ⟨b, hb, hbp, hbrun⟩ := hd.mapped p sid' (hfind p sid' hp)
    rw [hget]
    by_cases h : sid' = sid
    · subst h
      obtain rfl : a = b := Option.some.inj (ha.symm.trans hb)
      exact ⟨f a, if_pos rfl, hprofile.trans hbp, hrun p hp hbrun⟩
    · exact ⟨b, by rw [if_neg h, hb], hbp, hbrun⟩
  · intro sid' b hb
    rw [hget] at hb
    by_cases h : sid' = sid
    · rw [if_pos h] at hb
      obtain rfl := Option.some.inj hb
      exact hfit
    · rw [if_neg h] at hb
      exact hd.fit sid' b hb
  · intro r hr
    obtain ⟨hlt, hr | ⟨rfl, hp⟩⟩ := hrpcs r hr
    · obtain ⟨-, b, hb, hbp⟩ := hd.rpcs r hr
      obtain ⟨b', hb', hbp'⟩ := hold r.session b hb
      exact ⟨hlt, b', hb', hbp'.trans hbp⟩
    · obtain ⟨b', hb', hbp'⟩ := hold r.session a ha
      exact ⟨hlt, b', hb', hbp'.trans hp.symm⟩

theorem Fitting.modifySession (hd : d.Fitting) {sid : ℕ} {a : SessionAO}
    {f : SessionAO → SessionAO} (ha : d.manager.sessions[sid]? = some a)
    (hprofile : (f a).profileId = a.profileId) (hrun : a.running → (f a).running)
    (hfit : (f a).Fit) : (d.setManager (d.manager.modifySession sid f)).Fitting :=
  hd.modify hd.manager hd.calls ha rfl (fun _ _ h => h) hprofile (fun _ _ h => hrun h) hfit
    (fun r hr => ⟨(hd.rpcs r hr).1, .inl hr⟩) hd.nodup

theorem postFifo_running (e : SessionEvent) (a : SessionAO) :
    (a.postFifo e).running = a.running := by
  unfold SessionAO.postFifo
  split <;> rfl

theorem Fitting.take (hd : d.Fitting) {sid : ℕ} (hstep : d.step (.take sid) = some d') :
    d'.Fitting := by
  obtain ⟨a, ha⟩ := step_take_session hstep
  have hfit := hd.fit sid a ha
  obtain ⟨st, hst, hleaf⟩ := hfit.leaf
  obtain ⟨e, rest, h', heff, hq, hstate, hext, rfl⟩ := step_take hstep ha hst hleaf
  exact hd.modifySession ha rfl id (hfit.take hst hleaf heff hq hstate hext)

theorem perform_sessions (sid : ℕ) (p : ℤ) (f : SessionEffect) (fs : List SessionEffect)
    (d : DataSystem) :
    ((d.setManager (d.manager.modifySession sid (.setEffects fs))).perform sid p f).manager.sessions
      = d.manager.sessions.modify sid (.performed f fs) := by
  cases f with
  | repost e => exact List.modify_modify_eq _ _ _ _
  | arm t => exact List.modify_modify_eq _ _ _ _
  | disarm t => exact List.modify_modify_eq _ _ _ _
  | _ => rfl

theorem perform_rpcs (sid : ℕ) (p : ℤ) (f : SessionEffect) (d : DataSystem) :
    ((∃ k n, f = .rpc k n ∧ (d.perform sid p f).manager.rpcs =
        d.manager.rpcs ++ [⟨⟨d.manager.issued, k, p, n⟩, sid⟩] ∧
        (d.perform sid p f).manager.issued = d.manager.issued + 1) ∨
      ((∀ k n, f ≠ .rpc k n) ∧ (d.perform sid p f).manager.rpcs = d.manager.rpcs ∧
        (d.perform sid p f).manager.issued = d.manager.issued)) ∧
      (d.perform sid p f).manager.activeSessions = d.manager.activeSessions := by
  cases f with
  | rpc k n => exact ⟨.inl ⟨k, n, rfl, rfl, rfl⟩, rfl⟩
  | _ => exact ⟨.inr ⟨(fun _ _ h => by cases h), rfl, rfl⟩, rfl⟩

theorem Fitting.effect (hd : d.Fitting) {sid : ℕ} (hstep : d.step (.effect sid) = some d') :
    d'.Fitting := by
  obtain ⟨a, f, fs, ha, heff, rfl⟩ := step_effect hstep
  obtain ⟨hprofile, hrun, -, -⟩ := SessionAO.performed_keeps f fs a
  obtain ⟨hrpcs, hactive⟩ := perform_rpcs sid a.profileId f
    (d.setManager (d.manager.modifySession sid (.setEffects fs)))
  have hstate : ((d.setManager (d.manager.modifySession sid (.setEffects fs))).perform sid
      a.profileId f).hsm.state = d.hsm.state ∧
      ((d.setManager (d.manager.modifySession sid (.setEffects fs))).perform sid
        a.profileId f).calling = d.calling := by
    cases f <;> exact ⟨rfl, rfl⟩
  refine hd.modify (by rw [hstate.1]; exact hd.manager) (by rw [hstate.2]; exact hd.calls) ha
    (perform_sessions sid a.profileId f fs d) ?_ hprofile (fun _ _ h => by rw [hrun]; exact h)
    ((hd.fit sid a ha).performed heff) ?_ ?_
  · intro p sid' h
    rw [find, hactive] at h
    exact h
  · intro r hr
    rcases hrpcs with ⟨k, n, -, hrpcs, hissued⟩ | ⟨-, hrpcs, hissued⟩
    · rw [hrpcs] at hr
      rw [hissued]
      rcases List.mem_append.mp hr with hr | hr
      · exact ⟨Nat.lt_succ_of_lt (hd.rpcs r hr).1, .inl hr⟩
      · rw [List.mem_singleton.mp hr]
        exact ⟨Nat.lt_succ_self _, .inr ⟨rfl, rfl⟩⟩
    · rw [hrpcs] at hr
      rw [hissued]
      exact ⟨(hd.rpcs r hr).1, .inl hr⟩
  · rcases hrpcs with ⟨k, n, -, hrpcs, -⟩ | ⟨-, hrpcs, -⟩
    · rw [hrpcs, List.map_append, List.nodup_append]
      refine ⟨hd.nodup, List.nodup_singleton _, ?_⟩
      intro c hc c' hc'
      obtain ⟨r, hr, rfl⟩ := List.mem_map.mp hc
      rw [List.mem_singleton.mp hc']
      exact Nat.ne_of_lt (hd.rpcs r hr).1
    · rw [hrpcs]
      exact hd.nodup

theorem Fitting.erase (hd : d.Fitting) (p : ℤ) (poster : ℕ) :
    (d.setManager (d.manager.erase p poster)).Fitting := by
  have hfind : ∀ q sid, (d.manager.erase p poster).find q = some sid →
      d.manager.find q = some sid ∧ q ≠ p := by
    intro q sid h
    rw [find_erase] at h
    split at h
    · cases h
    · rename_i hq
      exact ⟨h, hq⟩
  cases hsid : d.manager.find p with
  | none =>
    rw [erase_of_find_none hsid]
    exact hd
  | some sid =>
    obtain ⟨a, ha, hp, -⟩ := hd.mapped p sid hsid
    -- a profile that is left leads to another session
    have hother : ∀ q, (d.manager.erase p poster).find q = some sid → False := by
      intro q hq
      obtain ⟨hq, hne⟩ := hfind q sid hq
      obtain ⟨b, hb, hbq, -⟩ := hd.mapped q sid hq
      obtain rfl : a = b := Option.some.inj (ha.symm.trans hb)
      exact hne (hbq.symm.trans hp)
    have hrpcs : (d.manager.erase p poster).rpcs = d.manager.rpcs ∧
        (d.manager.erase p poster).issued = d.manager.issued ∧
        ((d.manager.erase p poster).sessions = d.manager.sessions ∨
          (d.manager.erase p poster).sessions = d.manager.sessions.modify sid .halt) := by
      simp only [Manager.erase, hsid]
      split
      · exact ⟨rfl, rfl, .inl rfl⟩
      · exact ⟨rfl, rfl, .inr rfl⟩
    obtain ⟨hrpcs, hissued, hsessions | hsessions⟩ := hrpcs
    · exact hd.of_same hd.manager hd.calls hsessions (fun q sid h => (hfind q sid h).1)
        (by rw [← hrpcs]; exact List.Sublist.refl _) hissued
    · refine hd.modify hd.manager hd.calls ha hsessions (fun q sid h => (hfind q sid h).1) rfl
        (fun q h => absurd h (hother q)) (hd.fit sid a ha).halt ?_ ?_
      · intro r hr
        have hr : r ∈ d.manager.rpcs := hrpcs ▸ hr
        exact ⟨by rw [show (d.setManager (d.manager.erase p poster)).manager.issued =
          d.manager.issued from hissued]; exact (hd.rpcs r hr).1, .inl hr⟩
      · change ((d.manager.erase p poster).rpcs.map _).Nodup
        rw [hrpcs]
        exact hd.nodup

theorem Fitting.startSession (hd : d.Fitting) {p : ℤ} {ifname : String} {cb : ℕ}
    (hfind : d.manager.find p = none) :
    (d.setManager (d.manager.startSession p ifname cb)).Fitting := by
  have hget : ∀ sid, (d.manager.startSession p ifname cb).sessions[sid]? =
      if sid = d.manager.sessions.length then some (.create p ifname cb)
      else d.manager.sessions[sid]? := by
    intro sid
    rw [Manager.startSession, List.getElem?_append]
    split
    · rw [if_neg (by omega)]
    · by_cases hsid : sid = d.manager.sessions.length
      · simp [hsid]
      · rw [if_neg hsid, List.getElem?_eq_none (by simp; omega), List.getElem?_eq_none (by omega)]
  have hold : ∀ (sid : ℕ) (a : SessionAO), d.manager.sessions[sid]? = some a →
      (d.manager.startSession p ifname cb).sessions[sid]? = some a := by
    intro sid a ha
    have hlt := (List.getElem?_eq_some_iff.mp ha).1
    rw [hget, if_neg (by omega), ha]
  refine ⟨hd.manager, hd.calls, ?_, ?_, ?_, hd.nodup⟩
  · intro q sid hq
    change (d.manager.startSession p ifname cb).find q = some sid at hq
    change ∃ a, (d.manager.startSession p ifname cb).sessions[sid]? = some a ∧ _
    rw [find_startSession hfind] at hq
    split at hq
    · rename_i hqp
      obtain rfl := Option.some.inj hq
      exact ⟨_, (hget _).trans (if_pos rfl), hqp.symm, rfl⟩
    · obtain ⟨a, ha, hap, harun⟩ := hd.mapped q sid hq
      exact ⟨a, hold sid a ha, hap, harun⟩
  · intro sid a ha
    change (d.manager.startSession p ifname cb).sessions[sid]? = some a at ha
    rw [hget] at ha
    split at ha
    · obtain rfl := Option.some.inj ha
      exact SessionAO.create_fit p ifname cb
    · exact hd.fit sid a ha
  · intro r hr
    obtain ⟨hlt, a, ha, hap⟩ := hd.rpcs r hr
    exact ⟨hlt, a, hold _ a ha, hap⟩

theorem Fitting.manage (hd : d.Fitting) (hstep : d.step .manage = some d') : d'.Fitting := by
  obtain ⟨st, hst, hleaf⟩ := hd.manager
  obtain ⟨e, rest, h', -, hq, hstate, hext, rfl⟩ := step_manage hstep hst hleaf
  have hmgr : ∃ st, h'.state = some st ∧ st ≠ .operating :=
    ⟨_, hstate, manage_ne_operating hleaf e d.manager⟩
  have hmanaged := manage_managed hleaf e d.manager
  rw [← hext] at hmanaged
  -- only the manager's own state is left to set
  have hset : (d.setManager h'.ext).Fitting → Fitting { d with hsm := h', queue := rest } := by
    intro h
    exact h.of_same hmgr h.calls rfl (fun _ _ h => h) (List.Sublist.refl _) rfl
  have hpass : ∀ p sid ev, d.manager.find p = some sid →
      h'.ext = d.manager.modifySession sid (.postFifo ev) →
      Fitting { d with hsm := h', queue := rest } := by
    intro p sid ev hfind hm
    obtain ⟨a, ha, -, -⟩ := hd.mapped p sid hfind
    apply hset
    rw [hm]
    exact hd.modifySession ha (postFifo_keeps ev a).1 (by rw [postFifo_running]; exact id)
      ((hd.fit sid a ha).postFifo ev)
  generalize hm : h'.ext = m at hmanaged hset hpass
  cases hmanaged with
  | readiness r => exact hset hd
  | connectivity up => exact hset hd
  | dropStart p ifname cb hn => exact hset hd
  | dropStop p cb hn => exact hset hd
  | dropInd data hdata => exact hset hd
  | refuseStart p ifname cb sid code hfind =>
    exact hset (hd.of_same hd.manager hd.calls rfl (fun _ _ h => h) (List.Sublist.refl _) rfl)
  | refuseStop p cb hfind =>
    exact hset (hd.of_same hd.manager hd.calls rfl (fun _ _ h => h) (List.Sublist.refl _) rfl)
  | stop p cb sid hfind => exact hpass p sid (.stop cb) hfind rfl
  | ind data sid hfind => exact hpass data.profileId sid (.stateInd (some data)) hfind rfl
  | start p ifname cb hready hfind => exact hset (hd.startSession hfind)
  | finished p poster => exact hset (hd.erase p poster)

theorem Fitting.reply (hd : d.Fitting) {i : ℕ} {rsp : Option Rsp}
    (hstep : d.step (.reply i rsp) = some d') : d'.Fitting := by
  obtain ⟨r, hr, -, rfl⟩ := step_reply hstep
  have hrpcs : (d.setManager { d.manager with rpcs := d.manager.rpcs.eraseIdx i }).Fitting :=
    hd.of_same hd.manager hd.calls rfl (fun _ _ h => h) (List.eraseIdx_sublist _ _) rfl
  unfold Manager.answer
  split
  · obtain ⟨-, a, ha, -⟩ := hd.rpcs r (List.mem_of_getElem? hr)
    have hpost := hrpcs.modifySession (f := .postFifo (rspEvent r.kind rsp)) ha
      (postFifo_keeps _ a).1 (by rw [postFifo_running]; exact id) ((hd.fit _ a ha).postFifo _)
    exact hpost.of_same hpost.manager hpost.calls rfl (fun _ _ h => h) (List.Sublist.refl _) rfl
  · exact hrpcs

theorem Fitting.release (hd : d.Fitting) (hstep : d.step .release = some d') : d'.Fitting := by
  obtain ⟨sid, -, rfl⟩ := step_release hstep
  unfold Manager.release
  split
  · exact hd.of_same hd.manager hd.calls rfl (fun _ _ h => h) (List.Sublist.refl _) rfl
  · rename_i halive
    cases ha : d.manager.sessions[sid]? with
    | none =>
      have hsame : d.manager.sessions.modify sid .halt = d.manager.sessions :=
        List.modify_eq_self (List.getElem?_eq_none_iff.mp ha)
      exact hd.of_same hd.manager hd.calls hsame (fun _ _ h => h) (List.Sublist.refl _) rfl
    | some a =>
      exact hd.modify hd.manager hd.calls ha rfl (fun _ _ h => h) rfl
        (fun p h => absurd (alive_of_find h) halive) (hd.fit sid a ha).halt
        (fun r hr => ⟨(hd.rpcs r hr).1, .inl hr⟩) hd.nodup

theorem step_fitting {l : Label} (hd : d.Fitting) (hstep : d.step l = some d') : d'.Fitting := by
  have hsame : ∀ {x : DataSystem}, x.hsm.state = d.hsm.state →
      (∀ e ∈ x.calling, e.cb.isSome) → x.manager.sessions = d.manager.sessions →
      x.manager.activeSessions = d.manager.activeSessions → x.manager.rpcs = d.manager.rpcs →
      x.manager.issued = d.manager.issued → x.Fitting := by
    intro x hst hcalls hsessions hactive hrpcs hissued
    refine hd.of_same (by rw [hst]; exact hd.manager) hcalls hsessions ?_
      (by rw [hrpcs]) hissued
    intro p sid h
    rw [find, hactive] at h
    exact h
  cases l with
  | call e =>
    obtain ⟨cb, hcb, -, -, rfl⟩ := step_call hstep
    refine hsame rfl ?_ rfl rfl rfl rfl
    intro e' he'
    rcases List.mem_append.mp he' with he' | he'
    · exact hd.calls e' he'
    · rw [List.mem_singleton.mp he', hcb]
      rfl
  | submit i =>
    obtain ⟨e, -, rfl⟩ := step_submit hstep
    exact hsame rfl (fun e' he' => hd.calls e' (List.mem_of_mem_eraseIdx he')) rfl rfl rfl rfl
  | post e =>
    obtain ⟨-, -, rfl⟩ := step_post hstep
    exact hsame rfl hd.calls rfl rfl rfl rfl
  | manage => exact hd.manage hstep
  | managerJoined =>
    obtain ⟨sid, -, -, rfl⟩ := step_managerJoined hstep
    exact hsame rfl hd.calls rfl rfl rfl rfl
  | take sid => exact hd.take hstep
  | effect sid => exact hd.effect hstep
  | pick sid t =>
    obtain ⟨a, ha, -, rfl⟩ := step_pick hstep
    exact hd.modifySession ha rfl id ((hd.fit sid a ha).pick t)
  | fire sid t =>
    obtain ⟨a, ha, -, rfl⟩ := step_fire hstep
    refine hd.modifySession ha (postFifo_keeps _ { a with firing := a.firing.erase t }).1 ?_
      ((hd.fit sid a ha).fire t)
    rw [postFifo_running]
    exact id
  | reply i rsp => exact hd.reply hstep
  | release => exact hd.release hstep
  | bridgeJoined =>
    obtain ⟨sid, -, -, rfl⟩ := step_bridgeJoined hstep
    exact hsame rfl hd.calls rfl rfl rfl rfl

end Steps

end DataSystem

end TelafSim.Data
