import TelafSim.DataSystem

/-!
# What a finished session erases

A session that ends posts its profile to the manager, which erases the session it finds there. A
finish message is under way while it is queued or still to be posted. As long as no session is
created for a profile with a finish message under way, every message finds the session that posted
it, or none. A start that fails posts two of them, so a session created between the two is erased
by its predecessor.
-/

namespace TelafSim.Data

open Manager

theorem react_terminal (profileId : ℤ) (e : SessionEvent) (s : Session) :
    react profileId .terminal e s = (.terminal, s) := by
  cases e <;> rfl

@[simp] theorem Session.setInterfaceName_effects (ifname : String) (s : Session) :
    (s.setInterfaceName ifname).effects = s.effects := by
  unfold Session.setInterfaceName
  split <;> rfl

theorem connectedSt_stateInd (data : CallState) (s : Session) :
    let s' := (connectedSt (.user (.stateInd (some data))) s).ext
    s'.startCb = s.startCb ∧ s'.stopCb = s.stopCb ∧ s'.deferred = s.deferred ∧
      (s'.effects = s.effects ∨ s'.effects = s.effects ++ [SessionEffect.notify]) := by
  simp only [connectedSt]
  split
  · exact ⟨rfl, rfl, rfl, .inr rfl⟩
  · exact ⟨rfl, rfl, rfl, .inr rfl⟩
  · exact ⟨rfl, rfl, rfl, .inr rfl⟩
  · split
    · exact ⟨rfl, rfl, rfl, .inr rfl⟩
    · exact ⟨rfl, rfl, rfl, .inl rfl⟩
  · exact ⟨rfl, rfl, rfl, .inr rfl⟩
  · exact ⟨rfl, rfl, rfl, .inl rfl⟩

theorem react_finished {profileId : ℤ} {st : SessionState} {e : SessionEvent} {s : Session}
    (hs : s.effects = []) (hf : .finished ∈ (react profileId st e s).2.effects) :
    (react profileId st e s).1 = .terminal ∧ st ≠ .terminal := by
  fun_cases react profileId st e s
  case case11 data _ =>
    obtain ⟨-, -, -, heff | heff⟩ := connectedSt_stateInd data s <;> simp_all [react]
  all_goals
    simp_all [react, Session.emit, Session.recallAll, Session.respondStart, Session.respondStop,
      Session.setStatus, Session.applyAddrInfo, Session.goDown]

/-- What finishing depends on of a session: its profile, its state, and whether it has yet to report
its end. -/
def SessionAO.outline (a : SessionAO) : ℤ × StateFn SessionState × Bool :=
  (a.profileId, a.state, a.effects.contains .finished)

namespace Manager

def outline (sid : ℕ) (m : Manager) : Option (ℤ × StateFn SessionState × Bool) :=
  (m.sessions[sid]?).map SessionAO.outline

theorem outline_modify {f : SessionAO → SessionAO} {a : SessionAO} {sid : ℕ} {m : Manager}
    (ha : m.sessions[sid]? = some a) (sid' : ℕ) :
    (m.modifySession sid f).outline sid' =
      if sid' = sid then some (f a).outline else m.outline sid' := by
  simp only [outline, modifySession, List.getElem?_modify]
  by_cases hsid : sid' = sid
  · subst hsid
    simp [ha]
  · simp [hsid, Ne.symm hsid]

theorem outline_modify_of {f : SessionAO → SessionAO} {sid : ℕ} {m : Manager}
    (hf : ∀ a, m.sessions[sid]? = some a → (f a).outline = a.outline) (sid' : ℕ) :
    (m.modifySession sid f).outline sid' = m.outline sid' := by
  cases ha : m.sessions[sid]? with
  | none =>
    have hlen : m.sessions.length ≤ sid := List.getElem?_eq_none_iff.mp ha
    rw [outline, modifySession, List.modify_eq_self hlen]
    rfl
  | some a =>
    rw [outline_modify ha, hf a ha]
    split
    · rename_i h
      rw [h, outline, ha]
      rfl
    · rfl

theorem outline_startSession (profileId : ℤ) (ifname : String) (cb : ℕ) (m : Manager) (sid : ℕ) :
    (m.startSession profileId ifname cb).outline sid =
      if sid = m.sessions.length then some (profileId, some .idle, false) else m.outline sid := by
  simp only [outline, startSession]
  by_cases hsid : sid = m.sessions.length
  · subst hsid
    simp [SessionAO.outline, SessionAO.create, SessionAO.state, SessionAO.effects]
  · rw [if_neg hsid]
    by_cases hlt : sid < m.sessions.length
    · rw [List.getElem?_append_left hlt]
    · rw [List.getElem?_eq_none (by simp; omega), List.getElem?_eq_none (by omega)]

theorem mem_of_find {m : Manager} {profileId : ℤ} {sid : ℕ} (h : m.find profileId = some sid) :
    (profileId, sid) ∈ m.activeSessions := by
  obtain ⟨⟨p, s⟩, hfind, rfl⟩ := Option.map_eq_some_iff.mp h
  have hp := List.find?_some hfind
  simp only [decide_eq_true_eq] at hp
  subst hp
  exact List.mem_of_find?_eq_some hfind

theorem not_mem_of_find {m : Manager} {profileId : ℤ} (h : m.find profileId = none) (sid : ℕ) :
    (profileId, sid) ∉ m.activeSessions := by
  intro hmem
  simp only [find, Option.map_eq_none_iff, List.find?_eq_none] at h
  exact h _ hmem (by simp)

end Manager

namespace DataSystem

def Finishing (profileId : ℤ) (sid : ℕ) (d : DataSystem) : Prop :=
  (∃ st, d.manager.outline sid = some (profileId, st, true)) ∨
    .sessionFinished profileId sid ∈ d.queue

structure Owned (d : DataSystem) : Prop where
  manager : ∃ st, d.hsm.state = some st ∧ st ≠ .operating
  leaf : ∀ sid p st f, d.manager.outline sid = some (p, st, f) → ∃ st', st = some st' ∧ st' ≠ .active
  mapped : ∀ p sid, (p, sid) ∈ d.manager.activeSessions →
    ∃ st f, d.manager.outline sid = some (p, st, f)
  keys : (d.manager.activeSessions.map Prod.fst).Nodup
  gone : ∀ sid p st f, d.manager.outline sid = some (p, st, f) →
    (p, sid) ∈ d.manager.activeSessions ∨ st = some .terminal
  finishing : ∀ p sid, d.Finishing p sid →
    (∃ f, d.manager.outline sid = some (p, some .terminal, f)) ∧
      ∀ sid', (p, sid') ∈ d.manager.activeSessions → sid' = sid
  calls : ∀ e ∈ d.calling, e.cb.isSome
  erased : ∀ x ∈ d.manager.erased, x.1 = x.2

theorem started_owned : started.Owned where
  manager := ⟨.notReady, rfl, by decide⟩
  leaf sid p st f h := by simp [started, DataSystem.manager, Manager.outline] at h
  mapped p sid h := by cases h
  keys := List.nodup_nil
  gone sid p st f h := by simp [started, DataSystem.manager, Manager.outline] at h
  finishing p sid h := by
    simp [Finishing, started, DataSystem.manager, Manager.outline] at h
  calls e h := by cases h
  erased x h := by cases h

section Steps

variable {d d' : DataSystem}

theorem Owned.of_same (hd : d.Owned) (hmgr : ∃ st, d'.hsm.state = some st ∧ st ≠ .operating)
    (hactive : d'.manager.activeSessions = d.manager.activeSessions)
    (herased : d'.manager.erased = d.manager.erased)
    (houtline : ∀ sid, d'.manager.outline sid = d.manager.outline sid)
    (hqueue : ∀ p sid, .sessionFinished p sid ∈ d'.queue → .sessionFinished p sid ∈ d.queue)
    (hcalls : ∀ e ∈ d'.calling, e.cb.isSome) : d'.Owned where
  manager := hmgr
  leaf sid p st f h := hd.leaf sid p st f (houtline sid ▸ h)
  mapped p sid h := by
    rw [houtline]
    exact hd.mapped p sid (hactive ▸ h)
  keys := by rw [hactive]; exact hd.keys
  gone sid p st f h := by
    rw [hactive]
    exact hd.gone sid p st f (houtline sid ▸ h)
  finishing p sid h := by
    rw [houtline, hactive]
    apply hd.finishing
    rcases h with ⟨st, h⟩ | h
    · exact .inl ⟨st, houtline sid ▸ h⟩
    · exact .inr (hqueue p sid h)
  calls := hcalls
  erased := by rw [herased]; exact hd.erased

/-- A step of a session that only changes its queue, its timers or its flag. -/
theorem Owned.modify (hd : d.Owned) (sid : ℕ) {f : SessionAO → SessionAO}
    (hf : ∀ a, (f a).profileId = a.profileId ∧ (f a).hsm = a.hsm) :
    (d.setManager (d.manager.modifySession sid f)).Owned := by
  refine hd.of_same hd.manager rfl rfl ?_ (fun _ _ h => h) hd.calls
  intro sid'
  apply outline_modify_of
  intro a _
  obtain ⟨hp, hh⟩ := hf a
  simp only [SessionAO.outline, SessionAO.state, SessionAO.effects, hp, hh]

theorem postFifo_keeps (e : SessionEvent) (a : SessionAO) :
    (a.postFifo e).profileId = a.profileId ∧ (a.postFifo e).hsm = a.hsm := by
  unfold SessionAO.postFifo
  split <;> exact ⟨rfl, rfl⟩

theorem Owned.update (hd : d.Owned) {sid : ℕ} {p : ℤ} {st st' : StateFn SessionState} {f f' : Bool}
    (hout : d.manager.outline sid = some (p, st, f))
    (houtline : ∀ sid', d'.manager.outline sid' =
      if sid' = sid then some (p, st', f') else d.manager.outline sid')
    (hleaf : ∃ st'', st' = some st'' ∧ st'' ≠ .active)
    (hterm : st = some .terminal → st' = some .terminal)
    (hf : f' = true → f = true ∨ (st' = some .terminal ∧ st ≠ some .terminal))
    (hstate : d'.hsm.state = d.hsm.state)
    (hactive : d'.manager.activeSessions = d.manager.activeSessions)
    (herased : d'.manager.erased = d.manager.erased)
    (hqueue : ∀ p' sid', .sessionFinished p' sid' ∈ d'.queue →
      .sessionFinished p' sid' ∈ d.queue ∨ (p' = p ∧ sid' = sid ∧ f = true))
    (hcalls : d'.calling = d.calling) : d'.Owned := by
  have hself : d'.manager.outline sid = some (p, st', f') := by rw [houtline, if_pos rfl]
  have hother : ∀ sid', sid' ≠ sid → d'.manager.outline sid' = d.manager.outline sid' := by
    intro sid' hne
    rw [houtline, if_neg hne]
  -- a session that has something to report is in Terminal and alone in the map
  have hfin : f = true → st' = some .terminal ∧
      ∀ sid', (p, sid') ∈ d.manager.activeSessions → sid' = sid := by
    rintro rfl
    obtain ⟨⟨f₀, h₀⟩, hsole⟩ := hd.finishing p sid (.inl ⟨st, hout⟩)
    rw [hout] at h₀
    simp only [Option.some.injEq, Prod.mk.injEq] at h₀
    exact ⟨hterm h₀.2.1, hsole⟩
  have hfin' : f' = true → st' = some .terminal ∧
      ∀ sid', (p, sid') ∈ d.manager.activeSessions → sid' = sid := by
    intro h
    rcases hf h with h | ⟨h, hne⟩
    · exact hfin h
    · refine ⟨h, ?_⟩
      intro sid' hmem'
      have hmem := (hd.gone sid p st f hout).resolve_right hne
      have hpair := List.inj_on_of_nodup_map hd.keys hmem' hmem rfl
      exact (Prod.mk.inj hpair).2
  have hprofile : ∀ sid' p' st₁ f₁, d'.manager.outline sid' = some (p', st₁, f₁) →
      (sid' = sid ∧ p' = p ∧ st₁ = st' ∧ f₁ = f') ∨
        (sid' ≠ sid ∧ d.manager.outline sid' = some (p', st₁, f₁)) := by
    intro sid' p' st₁ f₁ h
    by_cases hne : sid' = sid
    · subst hne
      rw [hself] at h
      simp only [Option.some.injEq, Prod.mk.injEq] at h
      exact .inl ⟨rfl, h.1.symm, h.2.1.symm, h.2.2.symm⟩
    · exact .inr ⟨hne, hother sid' hne ▸ h⟩
  refine ⟨by rw [hstate]; exact hd.manager, ?_, ?_, by rw [hactive]; exact hd.keys, ?_, ?_,
    by rw [hcalls]; exact hd.calls, by rw [herased]; exact hd.erased⟩
  · intro sid' p' st₁ f₁ h
    rcases hprofile sid' p' st₁ f₁ h with ⟨-, -, rfl, -⟩ | ⟨-, h⟩
    · exact hleaf
    · exact hd.leaf sid' p' st₁ f₁ h
  · intro p' sid' hmem
    obtain ⟨st₁, f₁, h₁⟩ := hd.mapped p' sid' (hactive ▸ hmem)
    by_cases hne : sid' = sid
    · subst hne
      rw [hout] at h₁
      simp only [Option.some.injEq, Prod.mk.injEq] at h₁
      rw [← h₁.1]
      exact ⟨st', f', hself⟩
    · exact ⟨st₁, f₁, by rw [hother sid' hne]; exact h₁⟩
  · intro sid' p' st₁ f₁ h
    rw [hactive]
    rcases hprofile sid' p' st₁ f₁ h with ⟨rfl, rfl, rfl, -⟩ | ⟨-, h⟩
    · exact (hd.gone sid' p' st f hout).imp_right hterm
    · exact hd.gone sid' p' st₁ f₁ h
  · intro p' sid' h
    rw [hactive]
    -- a message of the session itself, or one that was under way before
    have hcase : (sid' = sid ∧ p' = p ∧ (f = true ∨ f' = true)) ∨ d.Finishing p' sid' := by
      rcases h with ⟨st₁, h⟩ | h
      · rcases hprofile sid' p' st₁ true h with ⟨rfl, rfl, -, hf₁⟩ | ⟨-, h⟩
        · exact .inl ⟨rfl, rfl, .inr hf₁.symm⟩
        · exact .inr (.inl ⟨st₁, h⟩)
      · rcases hqueue p' sid' h with h | ⟨rfl, rfl, h⟩
        · exact .inr (.inr h)
        · exact .inl ⟨rfl, rfl, .inl h⟩
    rcases hcase with ⟨rfl, rfl, hff⟩ | h
    · obtain ⟨hst, hsole⟩ := hff.elim hfin hfin'
      exact ⟨⟨f', by rw [hself, hst]⟩, hsole⟩
    · obtain ⟨⟨f₁, h₁⟩, hsole⟩ := hd.finishing p' sid' h
      refine ⟨?_, hsole⟩
      by_cases hne : sid' = sid
      · subst hne
        rw [hout] at h₁
        simp only [Option.some.injEq, Prod.mk.injEq] at h₁
        rw [hself, ← h₁.1, hterm h₁.2.1]
        exact ⟨f', rfl⟩
      · exact ⟨f₁, by rw [hother sid' hne]; exact h₁⟩

theorem outline_of_get {sid : ℕ} {a : SessionAO} (ha : d.manager.sessions[sid]? = some a) :
    d.manager.outline sid = some (a.profileId, a.state, a.effects.contains .finished) := by
  rw [outline, ha]
  rfl

theorem Owned.take (hd : d.Owned) {sid : ℕ} (hstep : d.step (.take sid) = some d') : d'.Owned := by
  obtain ⟨a, ha⟩ := step_take_session hstep
  obtain ⟨st, hst, hleaf⟩ := hd.leaf sid _ _ _ (outline_of_get ha)
  obtain ⟨e, rest, h', heff, -, hstate, hext, rfl⟩ := step_take hstep ha hst hleaf
  refine hd.update (outline_of_get ha) (outline_modify ha) ?_ ?_ ?_ rfl rfl rfl
    (fun _ _ h => .inl h) rfl
  · exact ⟨_, hstate, react_ne_active a.profileId hleaf e a.hsm.ext⟩
  · intro hterm
    rw [hst] at hterm
    obtain rfl := Option.some.inj hterm
    simpa only [SessionAO.state, react_terminal] using hstate
  · intro hf
    obtain ⟨hterm, hne⟩ := @react_finished a.profileId st e _ heff (by
      simpa only [SessionAO.effects, hext, List.contains_iff_mem] using hf)
    refine .inr ⟨?_, ?_⟩
    · rw [SessionAO.state, hstate, hterm]
    · rw [hst]
      simpa using hne

theorem Owned.effect (hd : d.Owned) {sid : ℕ} (hstep : d.step (.effect sid) = some d') :
    d'.Owned := by
  obtain ⟨a, f, fs, ha, heff, rfl⟩ := step_effect hstep
  by_cases hf : f = .finished
  · subst hf
    have hleaf := hd.leaf sid _ _ _ (outline_of_get ha)
    refine hd.update (outline_of_get ha) (outline_modify ha) hleaf id
      (fun _ => .inl (by simp [heff])) rfl rfl rfl ?_ rfl
    intro p' sid' h
    rcases List.mem_append.mp h with h | h
    · exact .inl h
    · simp only [List.mem_singleton, ManagerEvent.sessionFinished.injEq] at h
      exact .inr ⟨h.1, h.2, by simp [heff]⟩
  · have hset : (d.setManager (d.manager.modifySession sid (.setEffects fs))).Owned := by
      refine hd.of_same hd.manager rfl rfl ?_ (fun _ _ h => h) hd.calls
      intro sid'
      apply outline_modify_of
      intro a' ha'
      obtain rfl : a = a' := Option.some.inj (ha.symm.trans ha')
      have heff' : a.hsm.ext.effects = f :: fs := heff
      simp [SessionAO.outline, SessionAO.setEffects, SessionAO.state, SessionAO.effects, heff',
        Ne.symm hf]
    cases f with
    | finished => exact absurd rfl hf
    | respond cb call code =>
      exact hset.of_same hset.manager rfl rfl (fun _ => rfl) (fun _ _ h => h) hset.calls
    | notify => exact hset
    | rpc kind ifname =>
      exact hset.of_same hset.manager rfl rfl (fun _ => rfl) (fun _ _ h => h) hset.calls
    | repost e => exact hset.modify sid (postFifo_keeps e)
    | arm t => exact hset.modify sid (fun _ => ⟨rfl, rfl⟩)
    | disarm t => exact hset.modify sid (fun _ => ⟨rfl, rfl⟩)

theorem Owned.startSession (hd : d.Owned) {h' : Hsm ManagerState ManagerEvent Manager}
    {rest : List ManagerEvent} {p : ℤ} {ifname : String} {cb : ℕ}
    (hmgr : ∃ st, h'.state = some st ∧ st ≠ .operating)
    (hext : h'.ext = d.manager.startSession p ifname cb)
    (hrest : ∀ e ∈ rest, e ∈ d.queue) (hnone : d.manager.find p = none)
    (hclean : ∀ sid, ¬ d.Finishing p sid) : Owned { d with hsm := h', queue := rest } := by
  have hout : ∀ sid, h'.ext.outline sid = if sid = d.manager.sessions.length then
      some (p, some .idle, false) else d.manager.outline sid := by
    intro sid
    rw [hext, outline_startSession]
  have hactive : h'.ext.activeSessions =
      d.manager.activeSessions ++ [(p, d.manager.sessions.length)] := by rw [hext]; rfl
  have hfresh : d.manager.outline d.manager.sessions.length = none := by
    rw [outline, List.getElem?_eq_none (Nat.le_refl _)]
    rfl
  have hold : ∀ sid x, d.manager.outline sid = some x → h'.ext.outline sid = some x := by
    intro sid x hx
    rw [hout, if_neg, hx]
    rintro rfl
    rw [hfresh] at hx
    cases hx
  have hcase : ∀ sid p' st f, h'.ext.outline sid = some (p', st, f) →
      (p' = p ∧ sid = d.manager.sessions.length ∧ st = some .idle ∧ f = false) ∨
        d.manager.outline sid = some (p', st, f) := by
    intro sid p' st f h
    rw [hout] at h
    split at h
    · rename_i hsid
      simp only [Option.some.injEq, Prod.mk.injEq] at h
      exact .inl ⟨h.1.symm, hsid, h.2.1.symm, h.2.2.symm⟩
    · exact .inr h
  refine ⟨hmgr, ?_, ?_, ?_, ?_, ?_, hd.calls, ?_⟩
  · intro sid p' st f h
    rcases hcase sid p' st f h with ⟨-, -, rfl, -⟩ | h
    · exact ⟨.idle, rfl, by decide⟩
    · exact hd.leaf sid p' st f h
  · intro p' sid hmem
    have hmem : (p', sid) ∈ h'.ext.activeSessions := hmem
    rw [hactive] at hmem
    rcases List.mem_append.mp hmem with hmem | hmem
    · obtain ⟨st, f, h⟩ := hd.mapped p' sid hmem
      exact ⟨st, f, hold sid _ h⟩
    · obtain ⟨rfl, rfl⟩ := Prod.mk.inj (List.mem_singleton.mp hmem)
      exact ⟨some .idle, false, (hout _).trans (if_pos rfl)⟩
  · change (h'.ext.activeSessions.map Prod.fst).Nodup
    rw [hactive, List.map_append, List.nodup_append]
    refine ⟨hd.keys, List.nodup_singleton _, ?_⟩
    rintro q hq _ hq' rfl
    obtain ⟨⟨p', sid⟩, hmem, rfl⟩ := List.mem_map.mp hq
    obtain rfl : p' = p := by simpa using hq'
    exact not_mem_of_find hnone sid hmem
  · intro sid p' st f h
    change (p', sid) ∈ h'.ext.activeSessions ∨ _
    rw [hactive]
    rcases hcase sid p' st f h with ⟨rfl, rfl, -⟩ | h
    · exact .inl (by simp)
    · exact (hd.gone sid p' st f h).imp_left (List.mem_append_left _)
  · intro p' sid h
    have hold' : d.Finishing p' sid := by
      rcases h with ⟨st, h⟩ | h
      · rcases hcase sid p' st true h with ⟨-, -, -, hf⟩ | h
        · cases hf
        · exact .inl ⟨st, h⟩
      · exact .inr (hrest _ h)
    obtain ⟨⟨f, hf⟩, hsole⟩ := hd.finishing p' sid hold'
    refine ⟨⟨f, hold sid _ hf⟩, ?_⟩
    intro sid' hmem
    have hmem : (p', sid') ∈ h'.ext.activeSessions := hmem
    rw [hactive] at hmem
    rcases List.mem_append.mp hmem with hmem | hmem
    · exact hsole sid' hmem
    · obtain ⟨rfl, rfl⟩ := Prod.mk.inj (List.mem_singleton.mp hmem)
      exact absurd hold' (hclean sid)
  · change ∀ x ∈ h'.ext.erased, x.1 = x.2
    rw [hext]
    exact hd.erased

theorem erase_of_find_none {m : Manager} {p : ℤ} {poster : ℕ} (h : m.find p = none) :
    m.erase p poster = m := by
  simp only [Manager.erase, h]

theorem erase_of_find {m : Manager} {p : ℤ} {poster sid : ℕ} (h : m.find p = some sid) :
    (m.erase p poster).activeSessions = m.activeSessions.filter (fun s => s.1 ≠ p) ∧
      (m.erase p poster).erased = m.erased ++ [(poster, sid)] ∧
      ∀ sid', (m.erase p poster).outline sid' = m.outline sid' := by
  simp only [Manager.erase, h]
  split
  · exact ⟨rfl, rfl, fun _ => rfl⟩
  · refine ⟨rfl, rfl, ?_⟩
    intro sid'
    exact @outline_modify_of SessionAO.halt sid m (fun _ _ => rfl) sid'

theorem Owned.erase (hd : d.Owned) {h' : Hsm ManagerState ManagerEvent Manager}
    {rest : List ManagerEvent} {p : ℤ} {poster : ℕ}
    (hmgr : ∃ st, h'.state = some st ∧ st ≠ .operating)
    (hext : h'.ext = d.manager.erase p poster)
    (hq : d.queue = .sessionFinished p poster :: rest) :
    Owned { d with hsm := h', queue := rest } := by
  have hrest : ∀ e ∈ rest, e ∈ d.queue := by
    intro e he
    rw [hq]
    exact List.mem_cons_of_mem _ he
  obtain ⟨⟨f₀, hposter⟩, hsole⟩ := hd.finishing p poster (.inr (by rw [hq]; exact List.mem_cons_self))
  cases hfind : d.manager.find p with
  | none =>
    rw [erase_of_find_none hfind] at hext
    exact hd.of_same hmgr (by rw [DataSystem.manager, hext]) (by rw [DataSystem.manager, hext])
      (fun _ => by rw [DataSystem.manager, hext]) (fun _ _ h => hrest _ h) hd.calls
  | some sid =>
    obtain rfl : sid = poster := hsole sid (mem_of_find hfind)
    obtain ⟨hactive, herased, hout⟩ := @erase_of_find d.manager p sid sid hfind
    rw [← hext] at hactive herased hout
    have hsub : ∀ p' sid', (p', sid') ∈ h'.ext.activeSessions →
        (p', sid') ∈ d.manager.activeSessions := by
      intro p' sid' h
      rw [hactive] at h
      exact List.mem_of_mem_filter h
    refine ⟨hmgr, ?_, ?_, ?_, ?_, ?_, hd.calls, ?_⟩
    · intro sid' p' st f h
      exact hd.leaf sid' p' st f (hout sid' ▸ h)
    · intro p' sid' h
      obtain ⟨st, f, h⟩ := hd.mapped p' sid' (hsub p' sid' h)
      exact ⟨st, f, (hout sid').trans h⟩
    · change (h'.ext.activeSessions.map Prod.fst).Nodup
      rw [hactive]
      exact hd.keys.sublist (List.filter_sublist.map _)
    · intro sid' p' st f h
      have h : d.manager.outline sid' = some (p', st, f) := hout sid' ▸ h
      change (p', sid') ∈ h'.ext.activeSessions ∨ _
      rw [hactive]
      rcases hd.gone sid' p' st f h with hmem | hterm
      · by_cases hp : p' = p
        · -- the entry that was erased is that of the poster
          subst hp
          obtain rfl := hsole sid' hmem
          rw [hposter] at h
          simp only [Option.some.injEq, Prod.mk.injEq] at h
          exact .inr h.2.1.symm
        · exact .inl (List.mem_filter.mpr ⟨hmem, by simpa using hp⟩)
      · exact .inr hterm
    · intro p' sid' h
      have hold : d.Finishing p' sid' := by
        rcases h with ⟨st, h⟩ | h
        · exact .inl ⟨st, hout sid' ▸ h⟩
        · exact .inr (hrest _ h)
      obtain ⟨⟨f, hf⟩, hsole'⟩ := hd.finishing p' sid' hold
      exact ⟨⟨f, (hout sid').trans hf⟩, fun sid'' h => hsole' sid'' (hsub p' sid'' h)⟩
    · change ∀ x ∈ h'.ext.erased, x.1 = x.2
      rw [herased]
      intro x hx
      rcases List.mem_append.mp hx with hx | hx
      · exact hd.erased x hx
      · rw [List.mem_singleton.mp hx]

def finishing (profileId : ℤ) (d : DataSystem) : Bool :=
  d.queue.any (fun
    | .sessionFinished p _ => p = profileId
    | _ => false) ||
  d.manager.sessions.any (fun a => a.profileId = profileId && a.effects.contains .finished)

/-- No session is created for a profile with a finish message under way. -/
def createsClean (d : DataSystem) : Label → Bool
  | .manage =>
    match d.queue.head? with
    | some (.startDataCall p _ _) =>
      !(d.hsm.state = some .ready && (d.manager.find p).isNone && d.finishing p)
    | _ => true
  | _ => true

theorem not_finishing_of {p : ℤ} (h : d.finishing p = false) (sid : ℕ) : ¬ d.Finishing p sid := by
  simp only [finishing, Bool.or_eq_false_iff, List.any_eq_false] at h
  rintro (⟨st, hout⟩ | hmem)
  · obtain ⟨a, ha, heq⟩ := Option.map_eq_some_iff.mp hout
    have hany := h.2 a (List.mem_of_getElem? ha)
    simp only [SessionAO.outline, Prod.mk.injEq] at heq
    rw [heq.1, heq.2.2] at hany
    simp at hany
  · have hany := h.1 _ hmem
    simp at hany

theorem Owned.manage (hd : d.Owned) (hok : d.createsClean .manage)
    (hstep : d.step .manage = some d') : d'.Owned := by
  obtain ⟨st, hst, hleaf⟩ := hd.manager
  obtain ⟨e, rest, h', -, hq, hstate, hext, rfl⟩ := step_manage hstep hst hleaf
  have hmgr : ∃ st, h'.state = some st ∧ st ≠ .operating :=
    ⟨_, hstate, manage_ne_operating hleaf e d.manager⟩
  have hrest : ∀ e ∈ rest, e ∈ d.queue := by
    intro e he
    rw [hq]
    exact List.mem_cons_of_mem _ he
  have hmanaged := manage_managed hleaf e d.manager
  rw [← hext] at hmanaged
  -- what leaves the map, the charts and the finish messages alone
  have hsame : h'.ext.activeSessions = d.manager.activeSessions →
      h'.ext.erased = d.manager.erased →
      (∀ sid, h'.ext.outline sid = d.manager.outline sid) →
      Owned { d with hsm := h', queue := rest } := by
    intro hactive herased hout
    exact hd.of_same hmgr hactive herased hout (fun _ _ h => hrest _ h) hd.calls
  generalize hm : h'.ext = m at hmanaged hsame
  cases hmanaged with
  | readiness r => exact hsame rfl rfl (fun _ => rfl)
  | connectivity up => exact hsame rfl rfl (fun _ => rfl)
  | dropStart p ifname cb hn => exact hsame rfl rfl (fun _ => rfl)
  | dropStop p cb hn => exact hsame rfl rfl (fun _ => rfl)
  | dropInd data hdata => exact hsame rfl rfl (fun _ => rfl)
  | refuseStart p ifname cb sid code hfind => exact hsame rfl rfl (fun _ => rfl)
  | refuseStop p cb hfind => exact hsame rfl rfl (fun _ => rfl)
  | stop p cb sid hfind =>
    refine hsame rfl rfl (outline_modify_of ?_)
    intro a _
    obtain ⟨hp, hh⟩ := postFifo_keeps (.stop cb) a
    simp only [SessionAO.outline, SessionAO.state, SessionAO.effects, hp, hh]
  | ind data sid hfind =>
    refine hsame rfl rfl (outline_modify_of ?_)
    intro a _
    obtain ⟨hp, hh⟩ := postFifo_keeps (.stateInd (some data)) a
    simp only [SessionAO.outline, SessionAO.state, SessionAO.effects, hp, hh]
  | start p ifname cb hready hfind =>
    refine hd.startSession hmgr hm hrest hfind (not_finishing_of ?_)
    simpa [createsClean, hq, hst, hready, hfind] using hok
  | finished p poster => exact hd.erase hmgr hm hq

theorem step_owned {l : Label} (hd : d.Owned) (hok : d.createsClean l)
    (hstep : d.step l = some d') : d'.Owned := by
  cases l with
  | call e =>
    obtain ⟨cb, hcb, -, -, rfl⟩ := step_call hstep
    refine hd.of_same hd.manager rfl rfl (fun _ => rfl) (fun _ _ h => h) ?_
    intro e' he'
    rcases List.mem_append.mp he' with he' | he'
    · exact hd.calls e' he'
    · rw [List.mem_singleton.mp he', hcb]
      rfl
  | submit i =>
    obtain ⟨e, he, rfl⟩ := step_submit hstep
    refine hd.of_same hd.manager rfl rfl (fun _ => rfl) ?_ ?_
    · intro p sid h
      rcases List.mem_append.mp h with h | h
      · exact h
      · have hcb := hd.calls e (List.mem_of_getElem? he)
        rw [← List.mem_singleton.mp h] at hcb
        cases hcb
    · intro e' he'
      exact hd.calls e' (List.mem_of_mem_eraseIdx he')
  | post e =>
    obtain ⟨hfrom, -, rfl⟩ := step_post hstep
    refine hd.of_same hd.manager rfl rfl (fun _ => rfl) ?_ hd.calls
    intro p sid h
    rcases List.mem_append.mp h with h | h
    · exact h
    · rw [← List.mem_singleton.mp h] at hfrom
      cases hfrom
  | manage => exact hd.manage hok hstep
  | managerJoined =>
    obtain ⟨sid, -, -, rfl⟩ := step_managerJoined hstep
    exact hd.of_same hd.manager rfl rfl (fun _ => rfl) (fun _ _ h => h) hd.calls
  | take sid => exact hd.take hstep
  | effect sid => exact hd.effect hstep
  | pick sid t =>
    obtain ⟨a, -, -, rfl⟩ := step_pick hstep
    exact hd.modify sid (fun _ => ⟨rfl, rfl⟩)
  | fire sid t =>
    obtain ⟨a, -, -, rfl⟩ := step_fire hstep
    exact hd.modify sid (fun a => postFifo_keeps _ { a with firing := a.firing.erase t })
  | reply i rsp =>
    obtain ⟨r, -, -, rfl⟩ := step_reply hstep
    have hrpcs : (d.setManager { d.manager with rpcs := d.manager.rpcs.eraseIdx i }).Owned :=
      hd.of_same hd.manager rfl rfl (fun _ => rfl) (fun _ _ h => h) hd.calls
    unfold Manager.answer
    split
    · have hpost := hrpcs.modify r.session (postFifo_keeps (rspEvent r.kind rsp))
      exact hpost.of_same hpost.manager rfl rfl (fun _ => rfl) (fun _ _ h => h) hpost.calls
    · exact hrpcs
  | release =>
    obtain ⟨sid, -, rfl⟩ := step_release hstep
    unfold Manager.release
    split
    · exact hd.of_same hd.manager rfl rfl (fun _ => rfl) (fun _ _ h => h) hd.calls
    · have hhalt := hd.modify sid (f := .halt) (fun _ => ⟨rfl, rfl⟩)
      exact hhalt.of_same hhalt.manager rfl rfl (fun _ => rfl) (fun _ _ h => h) hhalt.calls
  | bridgeJoined =>
    obtain ⟨sid, -, -, rfl⟩ := step_bridgeJoined hstep
    exact hd.of_same hd.manager rfl rfl (fun _ => rfl) (fun _ _ h => h) hd.calls

end Steps

/-- When no session is ever created for a profile with a finish message under way, a finish message
erases the session that posted it or nothing. -/
theorem erased_own {l : List Label} {d : DataSystem}
    (hok : Trace.AllSteps step (fun d l => d.createsClean l) started l)
    (hrun : Trace.run step started l = some d) : ∀ x ∈ d.manager.erased, x.1 = x.2 := by
  have hd := Trace.run_invariant_of (fun _ _ _ hd hok hstep => step_owned hd hok hstep) hok hrun
    started_owned
  exact hd.erased

def restartRun : List Label :=
  [.post (.readiness .available), .manage,
    .call (.startDataCall 1 "" 10), .submit 0, .manage, .take 0, .effect 0,
    .reply 0 (some (.error "NO_RESOURCES")), .release, .take 0, .effect 0, .effect 0, .effect 0,
    .manage, .managerJoined, .manage,
    .call (.startDataCall 1 "" 11), .submit 0, .manage, .take 1, .effect 1,
    .reply 0 (some (.ok ⟨"rmnet_data0", []⟩)), .release, .take 1, .effect 1, .effect 1,
    .post (.stateInd (some ⟨1, .noNet, "rmnet_data0", none⟩)), .manage, .take 1, .effect 1,
    .effect 1, .effect 1, .manage, .managerJoined]

theorem erased_own_restartRun :
    ∃ d, Trace.run step started restartRun = some d ∧ d.manager.erased = [(0, 0), (1, 1)] ∧
      ∀ x ∈ d.manager.erased, x.1 = x.2 := by
  have hrun : (Trace.run step started restartRun).map (fun d => d.manager.erased) =
      some [(0, 0), (1, 1)] := by
    decide +kernel
  obtain ⟨d, hd, heq⟩ := Option.map_eq_some_iff.mp hrun
  exact ⟨d, hd, heq, erased_own (by decide +kernel) hd⟩

/-- A second start is posted between the two finish messages of a start that failed. -/
def restartBetween : List Label :=
  [.post (.readiness .available), .manage,
    .call (.startDataCall 1 "" 10), .submit 0, .manage, .take 0, .effect 0,
    .reply 0 (some (.error "NO_RESOURCES")), .release, .take 0, .effect 0, .effect 0,
    .call (.startDataCall 1 "" 11), .submit 0, .effect 0,
    .manage, .managerJoined, .manage, .manage]

/-- The second finish message of session 0 erases session 1. -/
theorem second_finish_erases_successor :
    ∃ d, Trace.run step started restartBetween = some d ∧ (0, 1) ∈ d.manager.erased := by
  have hrun : (Trace.run step started restartBetween).map (fun d => d.manager.erased) =
      some [(0, 0), (0, 1)] := by
    decide +kernel
  obtain ⟨d, hd, heq⟩ := Option.map_eq_some_iff.mp hrun
  refine ⟨d, hd, ?_⟩
  rw [heq]
  decide

end DataSystem
end TelafSim.Data
