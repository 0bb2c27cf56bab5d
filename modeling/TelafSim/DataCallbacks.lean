import TelafSim.DataFinish

/-!
# Response callbacks of data calls

The callback of an accepted call is with the caller, in the manager's queue, with a session or
called. A session owes the callback of its start until the start is answered, that of the stop it
carries out until the stop is answered or reconciled, and those of the stops in its queue, among
its deferred events and in its effects. While no step lets go of a callback, every one is called
once when the queues have run empty and the bridge has answered every request.
-/

namespace TelafSim.Data

open Manager

def SessionEvent.cb : SessionEvent → Option ℕ
  | .stop cb => some cb
  | _ => none

def SessionEffect.cb : SessionEffect → Option ℕ
  | .respond cb _ _ => some cb
  | .repost e => e.cb
  | _ => none

def owesStart : SessionState → Bool
  | .idle => true
  | .sendingStartReq => true
  | _ => false

def owesStop : SessionState → Bool
  | .sendingStopReq => true
  | .reconciling => true
  | _ => false

namespace Session

/-- How often the callback `c` stands among the deferred events and the effects. -/
def held (c : ℕ) (s : Session) : ℕ :=
  (s.deferred.filterMap SessionEvent.cb).count c + (s.effects.filterMap SessionEffect.cb).count c

/-- How often a session in `st` owes the callback `c`. -/
def owed (c : ℕ) (st : SessionState) (s : Session) : ℕ :=
  (if owesStart st then [s.startCb].count c else 0) +
    (if owesStop st then s.stopCb.toList.count c else 0) + s.held c

section Held

variable (c : ℕ) (s : Session)

theorem held_emit (es : List SessionEffect) :
    (s.emit es).held c = s.held c + (es.filterMap SessionEffect.cb).count c := by
  simp only [held, emit, List.filterMap_append, List.count_append]
  omega

@[simp] theorem held_emit_one (f : SessionEffect) :
    (s.emit [f]).held c = s.held c + f.cb.toList.count c := by
  rw [held_emit]
  cases h : f.cb <;> simp [h]

@[simp] theorem emit_startCb (es : List SessionEffect) : (s.emit es).startCb = s.startCb := rfl

@[simp] theorem emit_stopCb (es : List SessionEffect) : (s.emit es).stopCb = s.stopCb := rfl

@[simp] theorem setStatus_startCb (status : CallStatus) :
    (s.setStatus status).startCb = s.startCb := rfl

@[simp] theorem setStatus_stopCb (status : CallStatus) :
    (s.setStatus status).stopCb = s.stopCb := rfl

@[simp] theorem held_setStatus (status : CallStatus) : (s.setStatus status).held c = s.held c := rfl

@[simp] theorem held_applyAddrInfo (data : CallState) : (s.applyAddrInfo data).held c = s.held c := rfl

@[simp] theorem held_stopCb (cb : Option ℕ) : { s with stopCb := cb }.held c = s.held c := rfl

@[simp] theorem held_setInterfaceName (ifname : String) :
    (s.setInterfaceName ifname).held c = s.held c := by
  unfold setInterfaceName
  split <;> rfl

@[simp] theorem setInterfaceName_startCb (ifname : String) :
    (s.setInterfaceName ifname).startCb = s.startCb := by
  unfold setInterfaceName
  split <;> rfl

@[simp] theorem setInterfaceName_deferred (ifname : String) :
    (s.setInterfaceName ifname).deferred = s.deferred := by
  unfold setInterfaceName
  split <;> rfl

@[simp] theorem emit_deferred (es : List SessionEffect) : (s.emit es).deferred = s.deferred := rfl

@[simp] theorem goDown_deferred : s.goDown.deferred = s.deferred := rfl

@[simp] theorem respondStart_deferred (call : Bool) (code : ErrorCode) :
    (s.respondStart call code).deferred = s.deferred := rfl

@[simp] theorem respondStop_deferred (call : Bool) (code : ErrorCode) :
    (s.respondStop call code).deferred = s.deferred := rfl

@[simp] theorem setStatus_deferred (status : CallStatus) :
    (s.setStatus status).deferred = s.deferred := rfl

@[simp] theorem applyAddrInfo_deferred (data : CallState) :
    (s.applyAddrInfo data).deferred = s.deferred := rfl

@[simp] theorem recallAll_deferred : s.recallAll.deferred = [] := rfl

@[simp] theorem held_goDown : s.goDown.held c = s.held c :=
  held_emit_one c (s.setStatus .noNet) .notify

@[simp] theorem held_respondStart (call : Bool) (code : ErrorCode) :
    (s.respondStart call code).held c = s.held c + [s.startCb].count c :=
  held_emit c s _

@[simp] theorem held_respondStop (call : Bool) (code : ErrorCode) :
    (s.respondStop call code).held c = s.held c + s.stopCb.toList.count c := by
  rw [respondStop, held_emit]
  cases s.stopCb <;> rfl

@[simp] theorem held_recallAll : s.recallAll.held c = s.held c := by
  have hrepost : (s.deferred.map SessionEffect.repost).filterMap SessionEffect.cb =
      s.deferred.filterMap SessionEvent.cb := by
    rw [List.filterMap_map]
    rfl
  simp only [held, recallAll, emit, List.filterMap_append, List.count_append, hrepost,
    List.filterMap_nil, List.count_nil]
  omega

theorem held_defer (e : SessionEvent) :
    { s with deferred := s.deferred ++ [e] }.held c = s.held c + e.cb.toList.count c := by
  cases h : e.cb <;> simp [held, h]
  omega

theorem held_connectedSt (data : CallState) :
    (connectedSt (.user (.stateInd (some data))) s).ext.held c = s.held c := by
  obtain ⟨-, -, hdef, heff | heff⟩ := connectedSt_stateInd data s
  · rw [held, hdef, heff, held]
  · rw [held, hdef, heff, List.filterMap_append, List.count_append, held]
    rfl

end Held
end Session

/-- A stop is lost when it is taken in Terminal, or in Idle, where nothing else than Start comes
first; deferred stops are lost when the start fails. -/
def losesIn (st : SessionState) (e : SessionEvent) (s : Session) : Bool :=
  match e with
  | .stop _ => st = .terminal || st = .idle
  | .startRsp rsp => st = .sendingStartReq && !rspOk rsp && !s.deferred.isEmpty
  | _ => false

theorem react_owed (c : ℕ) {profileId : ℤ} {st : SessionState} {e : SessionEvent} {s : Session}
    (hst : st ≠ .active) (hkeep : losesIn st e s = false) :
    (react profileId st e s).2.owed c (react profileId st e s).1 =
      s.owed c st + e.cb.toList.count c := by
  fun_cases react profileId st e s
  case case2 cb =>
    simp only [Session.owed, Session.held_defer]
    omega
  case case11 data _ =>
    simp [Session.owed, owesStart, owesStop, SessionEvent.cb, Session.held_connectedSt]
  case case24 =>
    -- no other state gets a stop it does not take up
    have hcb : e.cb = none := by
      cases e with
      | stop cb => cases st <;> simp_all [losesIn]
      | _ => rfl
    simp [hcb]
  all_goals
    simp [Session.owed, owesStart, owesStop, SessionEvent.cb, SessionEffect.cb]
  all_goals omega

/-- The request whose answer a session waits for. -/
def awaited : SessionState → Option RpcKind
  | .sendingStartReq => some .startDataCall
  | .sendingStopReq => some .stopDataCall
  | .reconciling => some .listDataCall
  | _ => none

/-- A session that comes to wait for an answer has just sent the request. -/
theorem react_awaited {profileId : ℤ} {st : SessionState} {e : SessionEvent} {s : Session}
    {k : RpcKind} (hk : awaited (react profileId st e s).1 = some k) :
    (∃ n, .rpc k n ∈ (react profileId st e s).2.effects) ∨
      ((react profileId st e s).1 = st ∧ ∀ rsp, e ≠ rspEvent k rsp) := by
  have hstop : ∀ cb rsp, SessionEvent.stop cb ≠ rspEvent k rsp := by
    intro cb rsp
    cases k <;> simp [rspEvent]
  revert hk
  fun_cases react profileId st e s <;> intro hk
  case case24 =>
    refine .inr ⟨rfl, ?_⟩
    rintro rsp rfl
    cases st <;> cases hk <;> simp_all [rspEvent]
  all_goals simp_all [awaited, Session.emit]

theorem react_start_ne_idle {profileId : ℤ} {st : SessionState} {s : Session} :
    (react profileId st .start s).1 ≠ .idle := by
  cases st <;> simp [react]

theorem react_ne_idle {profileId : ℤ} {st : SessionState} {e : SessionEvent} {s : Session}
    (hst : st ≠ .idle) : (react profileId st e s).1 ≠ .idle := by
  fun_cases react profileId st e s <;> simp_all

/-- Only SendingStartReq keeps deferred events, unless a start fails. -/
theorem react_deferred {profileId : ℤ} {st : SessionState} {e : SessionEvent} {s : Session}
    (hs : s.deferred ≠ [] → st = .sendingStartReq) (hkeep : losesIn st e s = false)
    (hdef : (react profileId st e s).2.deferred ≠ []) :
    (react profileId st e s).1 = .sendingStartReq := by
  fun_cases react profileId st e s
  case case4 rsp hrsp =>
    have hfail : rspOk rsp = false := by
      rcases rsp with _ | _ | data
      · rfl
      · rfl
      · exact absurd rfl (hrsp data)
    simp_all [react, losesIn]
  case case11 data hne =>
    obtain ⟨-, -, hd, -⟩ := connectedSt_stateInd data s
    simp_all [react]
  all_goals simp_all [react]

namespace SessionAO

def owed (c : ℕ) (a : SessionAO) : ℕ :=
  a.state.elim (a.hsm.ext.held c) (fun st => a.hsm.ext.owed c st) + (a.queue.filterMap SessionEvent.cb).count c

/-- A session that owes a callback gets an event that makes it call: `asked` are the requests the
bridge has not answered. -/
structure Sound (asked : RpcKind → Prop) (a : SessionAO) : Prop where
  leaf : ∃ st, a.state = some st ∧ st ≠ .active
  deferred : a.hsm.ext.deferred ≠ [] → a.state = some .sendingStartReq
  idle : a.state = some .idle → ∃ rest, a.queue = .start :: rest
  awaits : ∀ st k, a.state = some st → awaited st = some k →
    (∃ n, .rpc k n ∈ a.effects) ∨ asked k ∨ ∃ rsp, rspEvent k rsp ∈ a.queue

variable {a a' : SessionAO} {asked asked' : RpcKind → Prop}

/-- The queue may grow at its end, and requests may move on. -/
theorem Sound.mono (ha : a.Sound asked) (hhsm : a'.hsm = a.hsm)
    (hqueue : ∃ es, a'.queue = a.queue ++ es)
    (hasked : ∀ k, asked k → asked' k ∨ ∃ rsp, rspEvent k rsp ∈ a'.queue) : a'.Sound asked' := by
  obtain ⟨es, hes⟩ := hqueue
  have hstate : a'.state = a.state := by rw [state, state, hhsm]
  refine ⟨by rw [hstate]; exact ha.leaf, by rw [hstate, hhsm]; exact ha.deferred, ?_, ?_⟩
  · intro h
    obtain ⟨rest, hrest⟩ := ha.idle (hstate ▸ h)
    exact ⟨rest ++ es, by rw [hes, hrest, List.cons_append]⟩
  · intro st k hst hk
    rcases ha.awaits st k (hstate ▸ hst) hk with ⟨n, h⟩ | h | ⟨rsp, h⟩
    · exact .inl ⟨n, by rw [effects, hhsm]; exact h⟩
    · exact .inr (hasked k h)
    · exact .inr (.inr ⟨rsp, by rw [hes]; exact List.mem_append_left es h⟩)

theorem owed_postFifo (c : ℕ) {e : SessionEvent} (hrun : a.running) :
    (a.postFifo e).owed c = a.owed c + e.cb.toList.count c := by
  unfold postFifo
  rw [if_pos hrun]
  cases h : e.cb <;> simp [owed, state, h]
  omega

theorem owed_postFifo_of_none (c : ℕ) {e : SessionEvent} (he : e.cb = none) :
    (a.postFifo e).owed c = a.owed c := by
  unfold postFifo
  split
  · simp [owed, state, he]
  · rfl

theorem postFifo_queue (e : SessionEvent) (a : SessionAO) : ∃ es, (a.postFifo e).queue = a.queue ++ es := by
  unfold postFifo
  split
  · exact ⟨[e], rfl⟩
  · exact ⟨[], (List.append_nil _).symm⟩

theorem Sound.postFifo (ha : a.Sound asked) (e : SessionEvent) : (a.postFifo e).Sound asked :=
  ha.mono (DataSystem.postFifo_keeps e a).2 (postFifo_queue e a) (fun _ h => .inl h)

section Take

variable {st : SessionState} {e : SessionEvent} {rest : List SessionEvent}
  {h' : Hsm SessionState SessionEvent Session}

theorem owed_take (c : ℕ) (hst : a.state = some st) (hleaf : st ≠ .active)
    (hq : a.queue = e :: rest) (hkeep : losesIn st e a.hsm.ext = false)
    (hstate : h'.state = some (react a.profileId st e a.hsm.ext).1)
    (hext : h'.ext = (react a.profileId st e a.hsm.ext).2) :
    owed c { a with hsm := h', queue := rest } = a.owed c := by
  have hreact := @react_owed c a.profileId st e a.hsm.ext hleaf hkeep
  have hq' : (a.queue.filterMap SessionEvent.cb).count c =
      e.cb.toList.count c + (rest.filterMap SessionEvent.cb).count c := by
    rw [hq]
    cases h : e.cb <;> simp [h, List.count_cons, Nat.add_comm]
  simp only [owed, state, hstate, hext, Option.elim_some] at hreact ⊢
  rw [hreact, show a.hsm.state = some st from hst, Option.elim_some]
  omega

theorem Sound.take (ha : a.Sound asked) (hst : a.state = some st) (hleaf : st ≠ .active)
    (heff : a.effects = []) (hq : a.queue = e :: rest) (hkeep : losesIn st e a.hsm.ext = false)
    (hstate : h'.state = some (react a.profileId st e a.hsm.ext).1)
    (hext : h'.ext = (react a.profileId st e a.hsm.ext).2) :
    Sound asked { a with hsm := h', queue := rest } := by
  refine ⟨⟨_, hstate, react_ne_active a.profileId hleaf e _⟩, ?_, ?_, ?_⟩
  · intro hdef
    have hs : a.hsm.ext.deferred ≠ [] → st = .sendingStartReq := by
      intro h
      have hs := ha.deferred h
      rw [hst] at hs
      exact Option.some.inj hs
    have hdef : (react a.profileId st e a.hsm.ext).2.deferred ≠ [] := by rw [← hext]; exact hdef
    rw [state, hstate, react_deferred hs hkeep hdef]
  · intro hidle
    exfalso
    have hidle : (react a.profileId st e a.hsm.ext).1 = .idle := by
      rw [state, hstate] at hidle
      exact Option.some.inj hidle
    by_cases hst' : st = .idle
    · subst hst'
      obtain ⟨rest', hq'⟩ := ha.idle hst
      rw [hq] at hq'
      obtain rfl := (List.cons.inj hq').1
      exact react_start_ne_idle hidle
    · exact react_ne_idle hst' hidle
  · intro st' k hst' hk
    obtain rfl : (react a.profileId st e a.hsm.ext).1 = st' := Option.some.inj (hstate.symm.trans hst')
    rcases react_awaited hk with ⟨n, h⟩ | ⟨hsame, hne⟩
    · exact .inl ⟨n, by rw [effects, hext]; exact h⟩
    · rw [hsame] at hk
      rcases ha.awaits st k hst hk with ⟨n, h⟩ | h | ⟨rsp, h⟩
      · rw [heff] at h
        cases h
      · exact .inr (.inl h)
      · rw [hq] at h
        exact .inr (.inr ⟨rsp, (List.mem_cons.mp h).resolve_left (fun h => hne rsp h.symm)⟩)

end Take

section Effect

variable {f : SessionEffect} {fs : List SessionEffect}

theorem owed_setEffects (c : ℕ) (heff : a.effects = f :: fs) :
    a.owed c = (a.setEffects fs).owed c + f.cb.toList.count c := by
  have heff : a.hsm.ext.effects = f :: fs := heff
  have hcount : ((f :: fs).filterMap SessionEffect.cb).count c =
      (fs.filterMap SessionEffect.cb).count c + f.cb.toList.count c := by
    cases h : f.cb <;> simp [h, List.count_cons]
  cases hst : a.hsm.state with
  | none =>
    simp only [owed, state, setEffects, Session.held, heff, hst, Option.elim_none, hcount]
    omega
  | some st =>
    simp only [owed, state, setEffects, Session.owed, Session.held, heff, hst, Option.elim_some,
      hcount]
    omega

theorem Sound.setEffects (ha : a.Sound asked) (heff : a.effects = f :: fs)
    (hmono : ∀ k, asked k → asked' k) (hf : ∀ k n, f = .rpc k n → asked' k) :
    (a.setEffects fs).Sound asked' := by
  refine ⟨ha.leaf, ha.deferred, ha.idle, ?_⟩
  intro st k hst hk
  rcases ha.awaits st k hst hk with ⟨n, h⟩ | h | h
  · rw [heff] at h
    rcases List.mem_cons.mp h with h | h
    · exact .inr (.inl (hf k n h.symm))
    · exact .inl ⟨n, h⟩
  · exact .inr (.inl (hmono k h))
  · exact .inr (.inr h)

end Effect

end SessionAO

theorem sum_map_modify {α : Type*} (g : α → ℕ) (f : α → α) {l : List α} {i : ℕ} {a : α}
    (ha : l[i]? = some a) : ((l.modify i f).map g).sum + g a = (l.map g).sum + g (f a) := by
  induction l generalizing i with
  | nil => cases ha
  | cons b l ih =>
    cases i with
    | zero =>
      obtain rfl : b = a := by simpa using ha
      simp only [List.modify_zero_cons, List.map_cons, List.sum_cons]
      omega
    | succ i =>
      have hrec := ih (i := i) (by simpa using ha)
      simp only [List.modify_succ_cons, List.map_cons, List.sum_cons]
      omega

namespace Manager

def owed (c : ℕ) (m : Manager) : ℕ := (m.sessions.map (SessionAO.owed c)).sum

theorem owed_modify (c : ℕ) {m : Manager} {sid : ℕ} {a : SessionAO} (f : SessionAO → SessionAO)
    (ha : m.sessions[sid]? = some a) :
    (m.modifySession sid f).owed c + a.owed c = m.owed c + (f a).owed c :=
  sum_map_modify (SessionAO.owed c) f ha

theorem owed_startSession (c : ℕ) (m : Manager) (p : ℤ) (ifname : String) (cb : ℕ) :
    (m.startSession p ifname cb).owed c = m.owed c + [cb].count c := by
  have hnew : (SessionAO.create p ifname cb).owed c = [cb].count c := rfl
  simp [owed, startSession, hnew]

/-- The bridge has not answered a request of this kind of the session yet. -/
def Asked (sid : ℕ) (m : Manager) (k : RpcKind) : Prop := ∃ r ∈ m.rpcs, r.session = sid ∧ r.kind = k

end Manager

namespace DataSystem

structure Owing (d : DataSystem) : Prop where
  manager : ∃ st, d.hsm.state = some st ∧ st ≠ .operating
  nodup : d.accepted.Nodup
  count : ∀ c, d.accepted.count c = (d.calling.filterMap ManagerEvent.cb).count c +
    (d.queue.filterMap ManagerEvent.cb).count c + d.manager.owed c +
    (d.manager.responded.map Prod.fst).count c
  mapped : ∀ p sid, (p, sid) ∈ d.manager.activeSessions →
    ∃ a, d.manager.sessions[sid]? = some a ∧ a.profileId = p ∧ a.running
  sound : ∀ sid (a : SessionAO), d.manager.sessions[sid]? = some a → a.Sound (d.manager.Asked sid)

theorem started_owing : started.Owing where
  manager := ⟨.notReady, rfl, by decide⟩
  nodup := List.nodup_nil
  count _ := rfl
  mapped p sid h := by cases h
  sound sid a h := by simp [started, DataSystem.manager] at h

section Steps

variable {d d' : DataSystem}

/-- A step that leaves the sessions, the map and the requests alone moves callbacks between the
callers, the queue and the record. -/
theorem Owing.of_same (hd : d.Owing) (hmgr : ∃ st, d'.hsm.state = some st ∧ st ≠ .operating)
    (hsessions : d'.manager.sessions = d.manager.sessions)
    (hactive : d'.manager.activeSessions = d.manager.activeSessions)
    (hrpcs : d'.manager.rpcs = d.manager.rpcs) (hnodup : d'.accepted.Nodup)
    (hcount : ∀ c, d'.accepted.count c = (d'.calling.filterMap ManagerEvent.cb).count c +
      (d'.queue.filterMap ManagerEvent.cb).count c + d.manager.owed c +
      (d'.manager.responded.map Prod.fst).count c) : d'.Owing where
  manager := hmgr
  nodup := hnodup
  count c := by rw [hcount, owed, owed, hsessions]
  mapped p sid h := by
    rw [hsessions]
    exact hd.mapped p sid (hactive ▸ h)
  sound sid a h := by
    have hasked : d'.manager.Asked sid = d.manager.Asked sid := by
      funext k
      rw [Asked, Asked, hrpcs]
    rw [hasked]
    exact hd.sound sid a (hsessions ▸ h)

/-- One session moves on, by `f`; the callbacks it lets go of are called or queued. -/
theorem Owing.modify (hd : d.Owing) {sid : ℕ} {a : SessionAO} {f : SessionAO → SessionAO}
    (hmgr : ∃ st, d'.hsm.state = some st ∧ st ≠ .operating)
    (ha : d.manager.sessions[sid]? = some a)
    (hsessions : d'.manager.sessions = d.manager.sessions.modify sid f)
    (hactive : ∀ s ∈ d'.manager.activeSessions, s ∈ d.manager.activeSessions)
    (hprofile : (f a).profileId = a.profileId)
    (hrun : ∀ p, (p, sid) ∈ d'.manager.activeSessions → a.running → (f a).running)
    (hasked : ∀ sid', sid' ≠ sid → ∀ k, d.manager.Asked sid' k → d'.manager.Asked sid' k)
    (hsound : (f a).Sound (d'.manager.Asked sid)) (hcalling : d'.calling = d.calling)
    (haccepted : d'.accepted = d.accepted)
    (hcount : ∀ c, a.owed c + (d.queue.filterMap ManagerEvent.cb).count c +
        (d.manager.responded.map Prod.fst).count c =
      (f a).owed c + (d'.queue.filterMap ManagerEvent.cb).count c +
        (d'.manager.responded.map Prod.fst).count c) : d'.Owing := by
  have hget : ∀ sid', d'.manager.sessions[sid']? =
      if sid' = sid then some (f a) else d.manager.sessions[sid']? := by
    intro sid'
    rw [hsessions, List.getElem?_modify]
    by_cases h : sid' = sid
    · subst h
      simp [ha]
    · simp [h, Ne.symm h]
  refine ⟨hmgr, by rw [haccepted]; exact hd.nodup, ?_, ?_, ?_⟩
  · intro c
    have hsum : d'.manager.owed c + a.owed c = d.manager.owed c + (f a).owed c := by
      rw [owed, hsessions]
      exact owed_modify c f ha
    have hold := hd.count c
    have hnew := hcount c
    rw [hcalling, haccepted]
    omega
  · intro p sid' hmem
    obtain ⟨b, hb, hp, hbrun⟩ := hd.mapped p sid' (hactive _ hmem)
    rw [hget]
    by_cases h : sid' = sid
    · subst h
      obtain rfl : a = b := Option.some.inj (ha.symm.trans hb)
      exact ⟨f a, if_pos rfl, hprofile.trans hp, hrun p hmem hbrun⟩
    · exact ⟨b, by rw [if_neg h, hb], hp, hbrun⟩
  · intro sid' b hb
    rw [hget] at hb
    by_cases h : sid' = sid
    · subst h
      rw [if_pos rfl] at hb
      obtain rfl := Option.some.inj hb
      exact hsound
    · rw [if_neg h] at hb
      exact (hd.sound sid' b hb).mono rfl ⟨[], (List.append_nil _).symm⟩
        (fun k hk => .inl (hasked sid' h k hk))

theorem Owing.postFifo (hd : d.Owing) {e : ManagerEvent} (he : e.cb = none) :
    (d.postFifo e).Owing := by
  refine hd.of_same hd.manager rfl rfl rfl hd.nodup ?_
  intro c
  have hcount := hd.count c
  simp only [DataSystem.postFifo, List.filterMap_append, List.count_append, List.filterMap_cons, he,
    List.filterMap_nil, List.count_nil]
  exact hcount

/-- One session changes in its timers or gets an event without a callback. -/
theorem Owing.modifyPlain (hd : d.Owing) {sid : ℕ} {a : SessionAO} {f : SessionAO → SessionAO}
    (ha : d.manager.sessions[sid]? = some a) (hprofile : (f a).profileId = a.profileId)
    (hhsm : (f a).hsm = a.hsm) (hrun : (f a).running = a.running)
    (hqueue : ∃ es, (f a).queue = a.queue ++ es ∧ es.filterMap SessionEvent.cb = []) :
    (d.setManager (d.manager.modifySession sid f)).Owing := by
  obtain ⟨es, hes, hcb⟩ := hqueue
  refine hd.modify hd.manager ha rfl (fun _ h => h) hprofile (fun _ _ h => by rw [hrun]; exact h)
    (fun _ _ _ h => h) ((hd.sound sid a ha).mono hhsm ⟨es, hes⟩ (fun _ h => .inl h)) rfl rfl ?_
  intro c
  have howed : (f a).owed c = a.owed c := by
    rw [SessionAO.owed, SessionAO.owed, SessionAO.state, SessionAO.state, hhsm, hes,
      List.filterMap_append, hcb, List.append_nil]
  rw [howed]
  rfl

theorem Owing.take (hd : d.Owing) {sid : ℕ} (hstep : d.step (.take sid) = some d')
    (hok : ∀ a e rest st, d.manager.sessions[sid]? = some a → a.queue = e :: rest →
      a.state = some st → losesIn st e a.hsm.ext = false) : d'.Owing := by
  obtain ⟨a, ha⟩ := step_take_session hstep
  have hs := hd.sound sid a ha
  obtain ⟨st, hst, hleaf⟩ := hs.leaf
  obtain ⟨e, rest, h', heff, hq, hstate, hext, rfl⟩ := step_take hstep ha hst hleaf
  have hkeep := hok a e rest st ha hq hst
  refine hd.modify hd.manager ha rfl (fun _ h => h) rfl (fun _ _ h => h) (fun _ _ _ h => h)
    (hs.take hst hleaf heff hq hkeep hstate hext) rfl rfl ?_
  intro c
  rw [SessionAO.owed_take c hst hleaf hq hkeep hstate hext]
  rfl

theorem Owing.effect (hd : d.Owing) {sid : ℕ} (hstep : d.step (.effect sid) = some d')
    (hok : ∀ a e fs, d.manager.sessions[sid]? = some a → a.effects = .repost e :: fs →
      a.running) : d'.Owing := by
  obtain ⟨a, f, fs, ha, heff, rfl⟩ := step_effect hstep
  have hs := hd.sound sid a ha
  have howed := fun c => SessionAO.owed_setEffects c heff
  -- an effect that carries no callback and sends nothing
  have hplain : f.cb = none → (∀ k n, f ≠ .rpc k n) →
      (d.setManager (d.manager.modifySession sid (.setEffects fs))).Owing := by
    intro hcb hrpc
    refine hd.modify hd.manager ha rfl (fun _ h => h) rfl (fun _ _ h => h) (fun _ _ _ h => h)
      (hs.setEffects heff (fun _ h => h) (fun k n h => absurd h (hrpc k n))) rfl rfl ?_
    intro c
    rw [howed c, hcb]
    rfl
  cases f with
  | finished => exact (hplain rfl (fun _ _ h => by cases h)).postFifo rfl
  | notify => exact hplain rfl (fun _ _ h => by cases h)
  | respond cb call code =>
    refine hd.modify hd.manager ha rfl (fun _ h => h) rfl (fun _ _ h => h) (fun _ _ _ h => h)
      (hs.setEffects heff (fun _ h => h) (fun k n h => by cases h)) rfl rfl ?_
    intro c
    have hresp : (((d.manager.responded ++ [(cb, code)]).map Prod.fst).count c) =
        (d.manager.responded.map Prod.fst).count c + [cb].count c := by
      rw [List.map_append, List.count_append]
      rfl
    change _ = _ + (d.queue.filterMap ManagerEvent.cb).count c +
      ((d.manager.responded ++ [(cb, code)]).map Prod.fst).count c
    rw [howed c, hresp]
    change _ + [cb].count c + _ + _ = _
    omega
  | rpc kind ifname =>
    refine hd.modify hd.manager ha rfl (fun _ h => h) rfl (fun _ _ h => h) ?_
      (hs.setEffects heff ?_ ?_) rfl rfl ?_
    · rintro sid' - k ⟨r, hr, hk⟩
      exact ⟨r, List.mem_append_left _ hr, hk⟩
    · rintro k ⟨r, hr, hk⟩
      exact ⟨r, List.mem_append_left _ hr, hk⟩
    · intro k n h
      obtain ⟨rfl, rfl⟩ := SessionEffect.rpc.inj h
      exact ⟨_, List.mem_append_right _ List.mem_cons_self, rfl, rfl⟩
    · intro c
      rw [howed c]
      rfl
  | repost e =>
    have hrun := hok a e fs ha heff
    refine hd.modify hd.manager ha (List.modify_modify_eq _ _ _ _) (fun _ h => h)
      (postFifo_keeps e _).1 ?_ (fun _ _ _ h => h)
      ((hs.setEffects heff (fun _ h => h) (fun k n h => by cases h)).postFifo e) rfl rfl ?_
    · intro _ _ _
      simp [SessionAO.postFifo, SessionAO.setEffects, hrun]
    · intro c
      have hpost := (a.setEffects fs).owed_postFifo c (e := e) hrun
      rw [howed c, Function.comp_apply, hpost]
      rfl
  | arm t =>
    have hp := hplain rfl (fun _ _ h => by cases h)
    obtain ⟨b, hb⟩ : ∃ b, (d.manager.modifySession sid (.setEffects fs)).sessions[sid]? = some b :=
      ⟨a.setEffects fs, by simp [modifySession, ha]⟩
    exact hp.modifyPlain hb rfl rfl rfl ⟨[], (List.append_nil _).symm, rfl⟩
  | disarm t =>
    have hp := hplain rfl (fun _ _ h => by cases h)
    obtain ⟨b, hb⟩ : ∃ b, (d.manager.modifySession sid (.setEffects fs)).sessions[sid]? = some b :=
      ⟨a.setEffects fs, by simp [modifySession, ha]⟩
    exact hp.modifyPlain hb rfl rfl rfl ⟨[], (List.append_nil _).symm, rfl⟩

theorem Owing.erase (hd : d.Owing) (p : ℤ) (poster : ℕ) :
    (d.setManager (d.manager.erase p poster)).Owing := by
  unfold Manager.erase
  split
  · exact hd
  · rename_i sid hfind
    obtain ⟨a, ha, hp, -⟩ := hd.mapped p sid (mem_of_find hfind)
    -- an entry that is left is not that of the session erased
    have hother : ∀ q, (q, sid) ∈ d.manager.activeSessions.filter (fun s => s.1 ≠ p) → False := by
      intro q hq
      obtain ⟨hmem, hne⟩ := List.mem_filter.mp hq
      obtain ⟨b, hb, hq, -⟩ := hd.mapped q sid hmem
      obtain rfl : a = b := Option.some.inj (ha.symm.trans hb)
      simp only [decide_eq_true_eq] at hne
      exact hne (hq.symm.trans hp)
    have hs := hd.sound sid a ha
    dsimp only
    split
    · exact hd.modify (f := id) hd.manager ha (List.modify_id sid _).symm
        (fun _ h => List.mem_of_mem_filter h) rfl (fun q h => absurd h (hother q))
        (fun _ _ _ h => h) hs rfl rfl (fun _ => rfl)
    · exact hd.modify hd.manager ha rfl (fun _ h => List.mem_of_mem_filter h) rfl
        (fun q h => absurd h (hother q)) (fun _ _ _ h => h)
        (hs.mono rfl ⟨[], (List.append_nil _).symm⟩ (fun _ h => .inl h)) rfl rfl (fun _ => rfl)

theorem Owing.startSession (hd : d.Owing) {p : ℤ} {ifname : String} {cb : ℕ}
    (hmgr : ∃ st, d'.hsm.state = some st ∧ st ≠ .operating)
    (hm : d'.manager = d.manager.startSession p ifname cb)
    (hcalling : d'.calling = d.calling) (haccepted : d'.accepted = d.accepted)
    (hqueue : ∀ c, (d.queue.filterMap ManagerEvent.cb).count c =
      [cb].count c + (d'.queue.filterMap ManagerEvent.cb).count c) : d'.Owing := by
  have hget : ∀ sid, d'.manager.sessions[sid]? = if sid = d.manager.sessions.length then
      some (.create p ifname cb) else d.manager.sessions[sid]? := by
    intro sid
    rw [hm, Manager.startSession, List.getElem?_append]
    split
    · rw [if_neg (by omega)]
    · rename_i hlt
      by_cases hsid : sid = d.manager.sessions.length
      · simp [hsid]
      · rw [if_neg hsid, List.getElem?_eq_none (by simp; omega), List.getElem?_eq_none (by omega)]
  have hasked : ∀ sid, d'.manager.Asked sid = d.manager.Asked sid := by
    intro sid
    rw [hm]
    rfl
  refine ⟨hmgr, by rw [haccepted]; exact hd.nodup, ?_, ?_, ?_⟩
  · intro c
    have hcount := hd.count c
    rw [hqueue c] at hcount
    rw [hcalling, haccepted, hm, owed_startSession]
    change _ = _ + _ + _ + (d.manager.responded.map Prod.fst).count c
    omega
  · intro q sid hmem
    rw [hm] at hmem
    rcases List.mem_append.mp hmem with hmem | hmem
    · obtain ⟨a, ha, hq, hrun⟩ := hd.mapped q sid hmem
      refine ⟨a, ?_, hq, hrun⟩
      rw [hget, if_neg, ha]
      rintro rfl
      rw [List.getElem?_eq_none (Nat.le_refl _)] at ha
      cases ha
    · obtain ⟨rfl, rfl⟩ := Prod.mk.inj (List.mem_singleton.mp hmem)
      exact ⟨.create q ifname cb, by rw [hget, if_pos rfl], rfl, rfl⟩
  · intro sid a ha
    rw [hasked]
    rw [hget] at ha
    split at ha
    · obtain rfl := Option.some.inj ha
      refine ⟨⟨.idle, rfl, by decide⟩, fun h => absurd rfl h, fun _ => ⟨[], rfl⟩, ?_⟩
      intro st k hst hk
      obtain rfl : .idle = st := Option.some.inj hst
      cases hk
    · exact hd.sound sid a ha

theorem Owing.manage (hd : d.Owing) (hstep : d.step .manage = some d')
    (hok : d.hsm.state = some .notReady → ∀ e ∈ d.queue.head?, e.cb = none) : d'.Owing := by
  obtain ⟨st, hst, hleaf⟩ := hd.manager
  obtain ⟨e, rest, ⟨st', temp, ignored, m, log⟩, -, hq, hstate, hext, rfl⟩ :=
    step_manage hstep hst hleaf
  have hmgr : ∃ st, st' = some st ∧ st ≠ .operating :=
    ⟨_, hstate, manage_ne_operating hleaf e d.manager⟩
  have hkeep : st = .notReady → e.cb = none := by
    intro h
    apply hok (h ▸ hst)
    rw [hq]
    rfl
  have hqueue : ∀ c, (d.queue.filterMap ManagerEvent.cb).count c =
      e.cb.toList.count c + (rest.filterMap ManagerEvent.cb).count c := by
    intro c
    rw [hq]
    cases h : e.cb <;> simp [h, List.count_cons, Nat.add_comm]
  have hmanaged : Managed st d.manager e m := by
    rw [show m = _ from hext]
    exact manage_managed hleaf e d.manager
  -- nothing changes but that a callback may be called at once
  have hsame : m.sessions = d.manager.sessions →
      m.activeSessions = d.manager.activeSessions → m.rpcs = d.manager.rpcs →
      (∀ c, (m.responded.map Prod.fst).count c =
        (d.manager.responded.map Prod.fst).count c + e.cb.toList.count c) →
      Owing { d with hsm := ⟨st', temp, ignored, m, log⟩, queue := rest } := by
    intro hsessions hactive hrpcs hresp
    refine hd.of_same hmgr hsessions hactive hrpcs hd.nodup ?_
    intro c
    have hcount := hd.count c
    rw [hqueue c] at hcount
    change d.accepted.count c = (d.calling.filterMap ManagerEvent.cb).count c +
      (rest.filterMap ManagerEvent.cb).count c + d.manager.owed c +
      (m.responded.map Prod.fst).count c
    rw [hresp c]
    omega
  -- the event is passed on to a session
  have hpass : ∀ p sid ev, d.manager.find p = some sid → ev.cb = e.cb →
      m = d.manager.modifySession sid (.postFifo ev) →
      Owing { d with hsm := ⟨st', temp, ignored, m, log⟩, queue := rest } := by
    rintro p sid ev hfind hev rfl
    obtain ⟨a, ha, -, hrun⟩ := hd.mapped p sid (mem_of_find hfind)
    refine hd.modify hmgr ha rfl (fun _ h => h) (postFifo_keeps ev a).1 ?_ (fun _ _ _ h => h)
      ((hd.sound sid a ha).postFifo ev) rfl rfl ?_
    · intro _ _ _
      simp [SessionAO.postFifo, hrun]
    · intro c
      rw [hqueue c, SessionAO.owed_postFifo c hrun, hev]
      change _ = _ + (rest.filterMap ManagerEvent.cb).count c +
        (d.manager.responded.map Prod.fst).count c
      omega
  cases hmanaged with
  | readiness r => exact hsame rfl rfl rfl (fun _ => rfl)
  | connectivity up => exact hsame rfl rfl rfl (fun _ => rfl)
  | dropStart p ifname cb hn => cases hkeep hn
  | dropStop p cb hn => cases hkeep hn
  | dropInd data hdata => exact hsame rfl rfl rfl (fun _ => rfl)
  | refuseStart p ifname cb sid code hfind =>
    refine hsame rfl rfl rfl (fun c => ?_)
    simp [Manager.respond, ManagerEvent.cb]
  | refuseStop p cb hfind =>
    refine hsame rfl rfl rfl (fun c => ?_)
    simp [Manager.respond, ManagerEvent.cb]
  | stop p cb sid hfind => exact hpass p sid (.stop cb) hfind rfl rfl
  | ind data sid hfind => exact hpass data.profileId sid (.stateInd (some data)) hfind rfl rfl
  | start p ifname cb hready hfind => exact hd.startSession hmgr rfl rfl rfl hqueue
  | finished p poster =>
    have herase := hd.erase p poster
    refine herase.of_same hmgr rfl rfl rfl herase.nodup ?_
    intro c
    have hcount := herase.count c
    have hnone : (ManagerEvent.sessionFinished p poster).cb.toList.count c = 0 := rfl
    change d.accepted.count c = (d.calling.filterMap ManagerEvent.cb).count c +
      (d.queue.filterMap ManagerEvent.cb).count c + _ + _ at hcount
    rw [hqueue c, hnone, Nat.zero_add] at hcount
    exact hcount

theorem Owing.reply (hd : d.Owing) {i : ℕ} {rsp : Option Rsp}
    (hstep : d.step (.reply i rsp) = some d')
    (hok : ∀ r, d.manager.rpcs[i]? = some r → d.manager.alive r.session) : d'.Owing := by
  obtain ⟨r, hr, -, rfl⟩ := step_reply hstep
  have halive := hok r hr
  have hcase : ∀ r' ∈ d.manager.rpcs, r' = r ∨ r' ∈ d.manager.rpcs.eraseIdx i := by
    intro r' hr'
    obtain ⟨j, hj⟩ := List.mem_iff_getElem?.mp hr'
    by_cases hij : j = i
    · subst hij
      exact .inl (Option.some.inj (hj.symm.trans hr))
    · exact .inr (List.mem_eraseIdx_iff_getElem?.mpr ⟨j, hij, hj⟩)
  obtain ⟨⟨p, sid⟩, hmem, hsid⟩ := List.any_eq_true.mp halive
  simp only [decide_eq_true_eq] at hsid
  subst hsid
  obtain ⟨a, ha, -, hrun⟩ := hd.mapped p r.session hmem
  have hnone : (rspEvent r.kind rsp).cb = none := by cases r.kind <;> rfl
  unfold Manager.answer
  split
  · refine hd.modify hd.manager ha rfl (fun _ h => h) (postFifo_keeps _ a).1 ?_ ?_ ?_ rfl rfl ?_
    · intro _ _ _
      simp [SessionAO.postFifo, hrun]
    · rintro sid' hne k ⟨r', hr', hk⟩
      rcases hcase r' hr' with rfl | hr'
      · exact absurd hk.1.symm hne
      · exact ⟨r', hr', hk⟩
    · refine (hd.sound r.session a ha).mono (postFifo_keeps _ a).2
        (SessionAO.postFifo_queue _ a) ?_
      rintro k ⟨r', hr', hk⟩
      rcases hcase r' hr' with rfl | hr'
      · refine .inr ⟨rsp, ?_⟩
        rw [SessionAO.postFifo, if_pos hrun, hk.2]
        exact List.mem_append_right _ List.mem_cons_self
      · exact .inl ⟨r', hr', hk⟩
    · intro c
      rw [SessionAO.owed_postFifo_of_none c hnone]
      rfl
  · rename_i h
    exact absurd halive h

theorem Owing.release (hd : d.Owing) (hstep : d.step .release = some d') : d'.Owing := by
  obtain ⟨sid, -, rfl⟩ := step_release hstep
  unfold Manager.release
  split
  · exact hd.of_same hd.manager rfl rfl rfl hd.nodup hd.count
  · rename_i halive
    have hgone : ∀ p, (p, sid) ∉ d.manager.activeSessions := by
      intro p hmem
      exact halive (List.any_eq_true.mpr ⟨(p, sid), hmem, by simp⟩)
    cases ha : d.manager.sessions[sid]? with
    | none =>
      have hsame : d.manager.sessions.modify sid .halt = d.manager.sessions :=
        List.modify_eq_self (List.getElem?_eq_none_iff.mp ha)
      exact hd.of_same hd.manager hsame rfl rfl hd.nodup hd.count
    | some a =>
      exact hd.modify hd.manager ha rfl (fun _ h => h) rfl (fun p h => absurd h (hgone p))
        (fun _ _ _ h => h) ((hd.sound sid a ha).mono rfl ⟨[], (List.append_nil _).symm⟩
          (fun _ h => .inl h)) rfl rfl (fun _ => rfl)

end Steps

/-- No step lets go of a callback. -/
def keepsCallbacks (d : DataSystem) : Label → Bool
  -- a call that was queued before the manager degraded
  | .manage => !(d.hsm.state = some .notReady && (d.queue.head?.bind ManagerEvent.cb).isSome)
  -- a stop for a session that has ended, or stops deferred by one whose start fails
  | .take sid => (d.manager.sessions[sid]?).all (fun a => a.queue.head?.all (fun
      | .stop _ => a.state ≠ some .terminal
      | .startRsp rsp =>
        !(a.state = some .sendingStartReq && !rspOk rsp && !a.hsm.ext.deferred.isEmpty)
      | _ => true))
  -- a stop that is recalled by a session being destroyed
  | .effect sid => (d.manager.sessions[sid]?).all (fun a => a.effects.head?.all (fun
      | .repost _ => a.running
      | _ => true))
  -- an answer for a session that was destroyed
  | .reply i _ => (d.manager.rpcs[i]?).all (fun r => d.manager.alive r.session)
  | _ => true

section Runs

variable {d d' : DataSystem}

theorem Owing.losesIn_of_keeps (hd : d.Owing) {sid : ℕ} (hok : d.keepsCallbacks (.take sid))
    {a : SessionAO} {e : SessionEvent} {rest : List SessionEvent} {st : SessionState}
    (ha : d.manager.sessions[sid]? = some a) (hq : a.queue = e :: rest)
    (hst : a.state = some st) : losesIn st e a.hsm.ext = false := by
  simp only [keepsCallbacks, ha, hq, Option.all_some, List.head?_cons] at hok
  cases e with
  | stop cb =>
    -- Idle has Start in front of its queue
    have hidle : st ≠ .idle := by
      rintro rfl
      obtain ⟨rest', hrest⟩ := (hd.sound sid a ha).idle hst
      rw [hq] at hrest
      cases hrest
    simpa [losesIn, hst, hidle] using hok
  | startRsp rsp => simpa only [losesIn, hst, Option.some.injEq, Bool.not_eq_true'] using hok
  | _ => rfl

theorem step_owing {l : Label} (hd : d.Owing) (hok : d.keepsCallbacks l)
    (hstep : d.step l = some d') : d'.Owing := by
  cases l with
  | call e =>
    obtain ⟨cb, hcb, -, hnew, rfl⟩ := step_call hstep
    refine hd.of_same hd.manager rfl rfl rfl ?_ ?_
    · simpa [List.nodup_append] using ⟨hd.nodup, fun x hx h => hnew (h ▸ hx)⟩
    · intro c
      have hcount := hd.count c
      simp only [List.count_append, List.filterMap_append, List.filterMap_cons, hcb,
        List.filterMap_nil]
      change _ = _ + _ + _ + (d.manager.responded.map Prod.fst).count c
      omega
  | submit i =>
    obtain ⟨e, he, rfl⟩ := step_submit hstep
    refine hd.of_same hd.manager rfl rfl rfl hd.nodup ?_
    intro c
    have hcount := hd.count c
    obtain ⟨hi, rfl⟩ := List.getElem?_eq_some_iff.mp he
    have hperm := ((List.getElem_cons_eraseIdx_perm hi).filterMap ManagerEvent.cb).count_eq c
    simp only [DataSystem.postFifo, List.filterMap_append, List.count_append]
    change _ = _ + _ + _ + (d.manager.responded.map Prod.fst).count c
    cases hcb : d.calling[i].cb <;> simp [hcb, List.count_cons] at hperm ⊢ <;> omega
  | post e =>
    obtain ⟨hfrom, -, rfl⟩ := step_post hstep
    apply hd.postFifo
    cases e <;> first | rfl | cases hfrom
  | manage =>
    apply hd.manage hstep
    intro hst e he
    have he : d.queue.head? = some e := he
    simpa [keepsCallbacks, hst, he] using hok
  | managerJoined =>
    obtain ⟨sid, -, -, rfl⟩ := step_managerJoined hstep
    exact hd.of_same hd.manager rfl rfl rfl hd.nodup hd.count
  | take sid => exact hd.take hstep (fun a e rest st ha hq hst => hd.losesIn_of_keeps hok ha hq hst)
  | effect sid =>
    apply hd.effect hstep
    intro a e fs ha heff
    simpa [keepsCallbacks, ha, heff] using hok
  | pick sid t =>
    obtain ⟨a, ha, -, rfl⟩ := step_pick hstep
    exact hd.modifyPlain ha rfl rfl rfl ⟨[], (List.append_nil _).symm, rfl⟩
  | fire sid t =>
    obtain ⟨a, ha, -, rfl⟩ := step_fire hstep
    have hnone : (timeoutEvent t).cb = none := by cases t <;> rfl
    have hkeeps := postFifo_keeps (timeoutEvent t) { a with firing := a.firing.erase t }
    refine hd.modifyPlain ha hkeeps.1 hkeeps.2 ?_ ?_
    · unfold SessionAO.postFifo
      split <;> rfl
    · unfold SessionAO.postFifo
      split
      · exact ⟨[timeoutEvent t], rfl, by simp [hnone]⟩
      · exact ⟨[], (List.append_nil _).symm, rfl⟩
  | reply i rsp =>
    apply hd.reply hstep
    intro r hr
    simpa [keepsCallbacks, hr] using hok
  | release => exact hd.release hstep
  | bridgeJoined =>
    obtain ⟨sid, -, -, rfl⟩ := step_bridgeJoined hstep
    exact hd.of_same hd.manager rfl rfl rfl hd.nodup hd.count

/-- The queues have run empty and the bridge has answered every request. -/
structure Quiet (d : DataSystem) : Prop where
  queue : d.queue = []
  rpcs : d.manager.rpcs = []
  sessions : ∀ a ∈ d.manager.sessions, a.queue = [] ∧ a.effects = []

theorem Owing.owed_of_quiet (hd : d.Owing) (hquiet : d.Quiet) {sid : ℕ} {a : SessionAO}
    (ha : d.manager.sessions[sid]? = some a) (c : ℕ) : a.owed c = 0 := by
  have hs := hd.sound sid a ha
  obtain ⟨hq, heff⟩ := hquiet.sessions a (List.mem_of_getElem? ha)
  obtain ⟨st, hst, -⟩ := hs.leaf
  -- nothing is left that could end a wait
  have hwait : awaited st = none := by
    cases hk : awaited st with
    | none => rfl
    | some k =>
      rcases hs.awaits st k hst hk with ⟨n, h⟩ | ⟨r, hr, -⟩ | ⟨rsp, h⟩
      · rw [heff] at h
        cases h
      · rw [hquiet.rpcs] at hr
        cases hr
      · rw [hq] at h
        cases h
  have hidle : st ≠ .idle := by
    rintro rfl
    obtain ⟨rest, h⟩ := hs.idle hst
    rw [hq] at h
    cases h
  have hdef : a.hsm.ext.deferred = [] := by
    by_contra h
    have hsend := hs.deferred h
    rw [hst] at hsend
    obtain rfl := Option.some.inj hsend
    cases hwait
  have hheld : a.hsm.ext.held c = 0 := by
    rw [Session.held, hdef, show a.hsm.ext.effects = [] from heff]
    rfl
  have howed : a.hsm.ext.owed c st = 0 := by
    rw [Session.owed, hheld]
    cases st <;> first | rfl | exact absurd rfl hidle | cases hwait
  rw [SessionAO.owed, hst, Option.elim_some, howed, hq]
  rfl

end Runs

variable {l : List Label} {d : DataSystem}

/-- While no step lets go of a callback, none is called twice, and when the queues have run empty
and the bridge has answered every request, that of every call that returned was called once. -/
theorem responded_once (hok : Trace.AllSteps step (fun d l => d.keepsCallbacks l) started l)
    (hrun : Trace.run step started l = some d) :
    (d.manager.responded.map Prod.fst).Nodup ∧
      (d.Quiet → ∀ c ∈ d.accepted, c ∉ d.calling.filterMap ManagerEvent.cb →
        (d.manager.responded.map Prod.fst).count c = 1) := by
  have hd := Trace.run_invariant_of (fun _ _ _ hd hok hstep => step_owing hd hok hstep) hok hrun
    started_owing
  have hone := List.nodup_iff_count_le_one.mp hd.nodup
  refine ⟨?_, ?_⟩
  · apply List.nodup_iff_count_le_one.mpr
    intro c
    have hcount := hd.count c
    have hle := hone c
    omega
  · intro hquiet c hc hreturned
    have hcount := hd.count c
    have hle := hone c
    have hpos := List.count_pos_iff.mpr hc
    have howed : d.manager.owed c = 0 := by
      apply List.sum_eq_zero
      intro x hx
      obtain ⟨a, ha, rfl⟩ := List.mem_map.mp hx
      obtain ⟨sid, hsid⟩ := List.mem_iff_getElem?.mp ha
      exact hd.owed_of_quiet hquiet hsid c
    rw [hquiet.queue, howed, List.count_eq_zero.mpr hreturned] at hcount
    simp only [List.filterMap_nil, List.count_nil] at hcount
    omega

instance (d : DataSystem) : Decidable d.Quiet :=
  decidable_of_iff (d.queue = [] ∧ d.manager.rpcs = [] ∧
      ∀ a ∈ d.manager.sessions, a.queue = [] ∧ a.effects = [])
    ⟨fun h => ⟨h.1, h.2.1, h.2.2⟩, fun h => ⟨h.queue, h.rpcs, h.sessions⟩⟩

/-- A call is started and comes up, a stop fails and is reconciled, and a second stop succeeds. -/
def reconciledRun : List Label :=
  [.post (.readiness .available), .manage,
    .call (.startDataCall 1 "" 10), .submit 0, .manage, .take 0, .effect 0,
    .call (.stopDataCall 1 11), .submit 0, .manage, .take 0,
    .reply 0 (some (.ok ⟨"rmnet_data0", []⟩)), .release, .take 0, .effect 0, .effect 0, .effect 0,
    .take 0, .effect 0, .effect 0, .reply 0 none, .release, .take 0, .effect 0,
    .reply 0 (some (.ok ⟨"", [⟨1, .connected, "rmnet_data0", none⟩]⟩)), .release, .take 0,
    .effect 0, .effect 0, .call (.stopDataCall 1 12), .submit 0, .manage, .take 0, .effect 0,
    .reply 0 (some (.ok ⟨"", []⟩)), .release, .take 0, .effect 0, .effect 0,
    .post (.stateInd (some ⟨1, .noNet, "rmnet_data0", none⟩)), .manage, .take 0, .effect 0,
    .effect 0, .effect 0, .manage, .managerJoined]

theorem responded_once_reconciledRun :
    ∃ d, Trace.run step started reconciledRun = some d ∧ d.Quiet ∧ d.accepted = [10, 11, 12] ∧
      ∀ c ∈ d.accepted, (d.manager.responded.map Prod.fst).count c = 1 := by
  have hrun : (Trace.run step started reconciledRun).map
      (fun d => (decide d.Quiet, d.accepted, d.calling)) = some (true, [10, 11, 12], []) := by
    decide +kernel
  obtain ⟨d, hd, heq⟩ := Option.map_eq_some_iff.mp hrun
  obtain ⟨hquiet, heq⟩ := Prod.mk.inj heq
  obtain ⟨hacc, hcall⟩ := Prod.mk.inj heq
  refine ⟨d, hd, of_decide_eq_true hquiet, hacc, ?_⟩
  intro c hc
  apply (responded_once (by decide +kernel) hd).2 (of_decide_eq_true hquiet) c hc
  rw [hcall]
  exact List.not_mem_nil

/-- A stop is deferred while the start is in flight, and the start fails. -/
def deferredRun : List Label :=
  [.post (.readiness .available), .manage,
    .call (.startDataCall 1 "" 10), .submit 0, .manage, .take 0, .effect 0,
    .call (.stopDataCall 1 11), .submit 0, .manage, .take 0,
    .reply 0 (some (.error "NO_RESOURCES")), .release, .take 0, .effect 0, .effect 0, .effect 0,
    .manage, .managerJoined, .manage]

/-- The callback of the deferred stop is never called. -/
theorem deferred_stop_never_answered :
    ∃ d, Trace.run step started deferredRun = some d ∧ d.Quiet ∧ 11 ∈ d.accepted ∧
      (d.manager.responded.map Prod.fst).count 11 = 0 := by
  have hrun : (Trace.run step started deferredRun).map
      (fun d => (decide d.Quiet, d.accepted, d.manager.responded.map Prod.fst)) =
        some (true, [10, 11], [10]) := by
    decide +kernel
  obtain ⟨d, hd, heq⟩ := Option.map_eq_some_iff.mp hrun
  obtain ⟨hquiet, heq⟩ := Prod.mk.inj heq
  obtain ⟨hacc, hresp⟩ := Prod.mk.inj heq
  refine ⟨d, hd, of_decide_eq_true hquiet, ?_, ?_⟩
  · rw [hacc]
    decide
  · rw [hresp]
    decide

end DataSystem

end TelafSim.Data
