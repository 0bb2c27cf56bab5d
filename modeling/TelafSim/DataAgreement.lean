import TelafSim.DataNet
import TelafSim.CallPool

/-!
# Agreement of the PA and the modem on data calls

Every step of the two ends and of the network between them is a step of the view of a profile's
call, or leaves it alone. So what a step of the view keeps holds in every run whose steps meet
`keepsAgreement`, and when nothing is on its way any more both ends have the call or none has. A
CONNECTED indication that is lost while the link is down leaves the modem with a call the PA has
given up.
-/

namespace TelafSim.Data

open Mpss Manager

namespace DataSystem

variable {d d' : DataSystem}

/-- A step issues at most one request, under the next id, and forgets others. -/
theorem step_rpcs (hd : d.Fitting) {l : Label} (hstep : d.step l = some d') :
    (d'.manager.rpcs.Sublist d.manager.rpcs ∧ d'.manager.issued = d.manager.issued ∧
        d.sent l = []) ∨
      ∃ r : Rpc, d'.manager.rpcs = d.manager.rpcs ++ [r] ∧ r.corrId = d.manager.issued ∧
        d'.manager.issued = d.manager.issued + 1 ∧ d.sent l = [r.toRequest] := by
  cases l with
  | call e =>
    obtain ⟨cb, -, -, -, rfl⟩ := step_call hstep
    exact .inl ⟨List.Sublist.refl _, rfl, rfl⟩
  | submit i =>
    obtain ⟨e, -, rfl⟩ := step_submit hstep
    exact .inl ⟨List.Sublist.refl _, rfl, rfl⟩
  | post e =>
    obtain ⟨-, -, rfl⟩ := step_post hstep
    exact .inl ⟨List.Sublist.refl _, rfl, rfl⟩
  | manage =>
    obtain ⟨st, hst, hleaf⟩ := hd.manager
    obtain ⟨e, rest, h', -, -, -, hext, rfl⟩ := step_manage hstep hst hleaf
    have hmanaged := manage_managed hleaf e d.manager
    rw [← hext] at hmanaged
    have hsame : h'.ext.rpcs = d.manager.rpcs ∧ h'.ext.issued = d.manager.issued := by
      generalize h'.ext = m at hmanaged
      cases hmanaged with
      | finished p poster =>
        unfold Manager.erase
        split
        · exact ⟨rfl, rfl⟩
        · dsimp only
          split <;> exact ⟨rfl, rfl⟩
      | _ => exact ⟨rfl, rfl⟩
    exact .inl ⟨by rw [DataSystem.manager, hsame.1], hsame.2, rfl⟩
  | managerJoined =>
    obtain ⟨sid, -, -, rfl⟩ := step_managerJoined hstep
    exact .inl ⟨List.Sublist.refl _, rfl, rfl⟩
  | take sid =>
    obtain ⟨a, ha⟩ := step_take_session hstep
    obtain ⟨st, hst, hleaf⟩ := (hd.fit sid a ha).leaf
    obtain ⟨e, rest, h', -, -, -, -, rfl⟩ := step_take hstep ha hst hleaf
    exact .inl ⟨List.Sublist.refl _, rfl, rfl⟩
  | effect sid =>
    obtain ⟨a, f, fs, ha, heff, rfl⟩ := step_effect hstep
    cases f with
    | rpc k n => exact .inr ⟨_, rfl, rfl, rfl, by simp only [sent, ha, heff]; rfl⟩
    | _ => exact .inl ⟨List.Sublist.refl _, rfl, by simp [sent, ha, heff]⟩
  | pick sid t =>
    obtain ⟨a, -, -, rfl⟩ := step_pick hstep
    exact .inl ⟨List.Sublist.refl _, rfl, rfl⟩
  | fire sid t =>
    obtain ⟨a, -, -, rfl⟩ := step_fire hstep
    exact .inl ⟨List.Sublist.refl _, rfl, rfl⟩
  | reply i rsp =>
    obtain ⟨r, -, -, rfl⟩ := step_reply hstep
    unfold Manager.answer
    split <;> exact .inl ⟨List.eraseIdx_sublist _ _, rfl, rfl⟩
  | release =>
    obtain ⟨sid, -, rfl⟩ := step_release hstep
    unfold Manager.release
    split <;> exact .inl ⟨List.Sublist.refl _, rfl, rfl⟩
  | bridgeJoined =>
    obtain ⟨sid, -, -, rfl⟩ := step_bridgeJoined hstep
    exact .inl ⟨List.Sublist.refl _, rfl, rfl⟩

/-- What the bridge hears is a step of its own, or dropped. -/
theorem receive_cases {msg : Message} (h : d.receive msg = some d') :
    d' = d ∨ ∃ l, d.step l = some d' ∧ d.sent l = [] := by
  cases msg with
  | ind data => exact .inr ⟨.post (.stateInd (some data)), h, rfl⟩
  | rsp corrId rsp =>
    simp only [receive] at h
    split at h
    · exact .inl (Option.some.inj h).symm
    · exact .inr ⟨_, h, rfl⟩

end DataSystem

namespace DataNet

/-- The messages between the two ends match the requests the bridge waits for. -/
structure Sound (d : DataNet) : Prop where
  pa : d.pa.Fitting
  requests : ∀ q, q ∈ d.toMpss ∨ .messageReceived q ∈ d.mpss.fifo →
    q.corrId < d.pa.manager.issued ∧
      ∀ r ∈ d.pa.manager.rpcs, r.corrId = q.corrId → r.toRequest = q
  responses : ∀ c rsp, .rsp c rsp ∈ d.toPa → c < d.pa.manager.issued

theorem started_sound {timing : CallTimingPreset} {stem : String} {poolSize : ℕ}
    {addrInfo : String → Option String} :
    (started (.start timing stem poolSize addrInfo)).Sound where
  pa := DataSystem.started_fitting
  requests q h := by
    rcases h with h | h
    · cases h
    · cases h
  responses c rsp h := by cases h

section Steps

variable {d d' : DataNet}

theorem Sound.of_same (hd : d.Sound) (hpa : d'.pa.Fitting)
    (hrpcs : d'.pa.manager.rpcs.Sublist d.pa.manager.rpcs)
    (hissued : d'.pa.manager.issued = d.pa.manager.issued)
    (hrequests : ∀ q, q ∈ d'.toMpss ∨ .messageReceived q ∈ d'.mpss.fifo →
      q ∈ d.toMpss ∨ .messageReceived q ∈ d.mpss.fifo)
    (hresponses : ∀ c rsp, .rsp c rsp ∈ d'.toPa → .rsp c rsp ∈ d.toPa ∨
      ∃ q, .messageReceived q ∈ d.mpss.fifo ∧ c = q.corrId) : d'.Sound where
  pa := hpa
  requests q h := by
    obtain ⟨hlt, hmatch⟩ := hd.requests q (hrequests q h)
    exact ⟨by rw [hissued]; exact hlt, fun r hr => hmatch r (hrpcs.subset hr)⟩
  responses c rsp h := by
    rw [hissued]
    rcases hresponses c rsp h with h | ⟨q, hq, rfl⟩
    · exact hd.responses c rsp h
    · exact (hd.requests q (.inr hq)).1

theorem Sound.pa_step (hd : d.Sound) {l : DataSystem.Label} {pa : DataSystem}
    (hstep : d.pa.step l = some pa) :
    Sound { d with pa := pa, toMpss := d.toMpss ++ if d.link then d.pa.sent l else [] } := by
  have hpa := DataSystem.step_fitting hd.pa hstep
  rcases DataSystem.step_rpcs hd.pa hstep with ⟨hrpcs, hissued, hsent⟩ | ⟨r, hrpcs, hr, hissued, hsent⟩
  · refine hd.of_same hpa hrpcs hissued ?_ (fun _ _ h => .inl h)
    simp [hsent]
  · refine ⟨hpa, ?_, ?_⟩
    · intro q hq
      have hcase : q = r.toRequest ∨ q ∈ d.toMpss ∨ .messageReceived q ∈ d.mpss.fifo := by
        rcases hq with hq | hq
        · rcases List.mem_append.mp hq with hq | hq
          · exact .inr (.inl hq)
          · left
            split at hq
            · rw [hsent] at hq
              exact List.mem_singleton.mp hq
            · cases hq
        · exact .inr (.inr hq)
      change q.corrId < pa.manager.issued ∧ ∀ r ∈ pa.manager.rpcs, _
      rw [hissued, hrpcs]
      rcases hcase with rfl | hq
      · refine ⟨by rw [hr]; exact Nat.lt_succ_self _, ?_⟩
        intro r' hr' heq
        rcases List.mem_append.mp hr' with hr' | hr'
        · have hlt := (hd.pa.rpcs r' hr').1
          rw [heq, hr] at hlt
          exact absurd hlt (Nat.lt_irrefl _)
        · rw [List.mem_singleton.mp hr']
      · obtain ⟨hlt, hmatch⟩ := hd.requests q hq
        refine ⟨Nat.lt_succ_of_lt hlt, ?_⟩
        intro r' hr' heq
        rcases List.mem_append.mp hr' with hr' | hr'
        · exact hmatch r' hr' heq
        · rw [List.mem_singleton.mp hr', hr] at heq
          exact absurd heq (Nat.ne_of_gt hlt)
    · intro c rsp h
      change c < pa.manager.issued
      rw [hissued]
      exact Nat.lt_succ_of_lt (hd.responses c rsp h)

theorem step_sound {l : Label} (hd : d.Sound) (hstep : d.step l = some d') : d'.Sound := by
  cases l with
  | pa l =>
    obtain ⟨-, pa, hpa, rfl⟩ := step_pa hstep
    exact hd.pa_step hpa
  | link up =>
    obtain rfl := Option.some.inj hstep
    exact ⟨hd.pa, hd.requests, hd.responses⟩
  | arrive =>
    obtain ⟨q, rest, hq, rfl⟩ := step_arrive hstep
    refine hd.of_same hd.pa (List.Sublist.refl _) rfl ?_ (fun _ _ h => .inl h)
    intro q' h
    rw [hq]
    rcases h with h | h
    · exact .inl (List.mem_cons_of_mem _ h)
    · rcases List.mem_append.mp h with h | h
      · exact .inr h
      · obtain rfl := MpssEvent.messageReceived.inj (List.mem_singleton.mp h)
        exact .inl List.mem_cons_self
  | loseRequest i =>
    obtain rfl := step_loseRequest hstep
    exact hd.of_same hd.pa (List.Sublist.refl _) rfl
      (fun _ h => h.imp_left List.mem_of_mem_eraseIdx) (fun _ _ h => .inl h)
  | forceCallDrop p =>
    obtain rfl := Option.some.inj hstep
    refine hd.of_same hd.pa (List.Sublist.refl _) rfl ?_ (fun _ _ h => .inl h)
    simp [DataConnectionAO.postFifo]
  | elapse p =>
    obtain ⟨m, hm, rfl⟩ := step_elapse hstep
    exact hd.of_same hd.pa (List.Sublist.refl _) rfl
      (fun q h => h.imp_right ((DataConnectionAO.elapse_frame hm p).2.2 q)) (fun _ _ h => .inl h)
  | handle =>
    obtain ⟨e, rest, hfifo, rfl⟩ := step_handle hstep
    obtain ⟨hreq, hrsp⟩ := DataConnectionAO.answers_dispatch e { d.mpss with fifo := rest }
    refine hd.of_same hd.pa (List.Sublist.refl _) rfl ?_ ?_
    · intro q h
      refine h.imp_right (fun h => ?_)
      rw [hfifo]
      exact List.mem_cons_of_mem _ (hreq q h)
    · intro c rsp h
      rcases List.mem_append.mp h with h | h
      · exact .inl h
      · have hc := hrsp c rsp h
        cases e with
        | messageReceived q =>
          exact .inr ⟨q, by rw [hfifo]; exact List.mem_cons_self, Option.some.inj hc⟩
        | _ => cases hc
  | deliver =>
    obtain ⟨msg, rest, pa, hmsg, hpa, rfl⟩ := step_deliver hstep
    have hrest : ∀ c rsp, .rsp c rsp ∈ rest → .rsp c rsp ∈ d.toPa := by
      intro c rsp h
      rw [hmsg]
      exact List.mem_cons_of_mem _ h
    rcases DataSystem.receive_cases hpa with rfl | ⟨l, hl, hsent⟩
    · exact hd.of_same hd.pa (List.Sublist.refl _) rfl (fun _ h => h)
        (fun c rsp h => .inl (hrest c rsp h))
    · rcases DataSystem.step_rpcs hd.pa hl with ⟨hrpcs, hissued, -⟩ | ⟨r, -, -, -, hsent'⟩
      · exact hd.of_same (DataSystem.step_fitting hd.pa hl) hrpcs hissued (fun _ h => h)
          (fun c rsp h => .inl (hrest c rsp h))
      · rw [hsent] at hsent'
        cases hsent'
  | lose i =>
    obtain ⟨msg, -, rfl⟩ := step_lose hstep
    exact hd.of_same hd.pa (List.Sublist.refl _) rfl (fun _ h => h)
      (fun c rsp h => .inl (List.mem_of_mem_eraseIdx h))

theorem step_pooled {l : Label} (hm : d.mpss.Pooled) (hstep : d.step l = some d') :
    d'.mpss.Pooled := by
  cases l with
  | pa l =>
    obtain ⟨-, pa, -, rfl⟩ := step_pa hstep
    exact hm
  | link up =>
    obtain rfl := Option.some.inj hstep
    exact hm
  | arrive =>
    obtain ⟨q, rest, -, rfl⟩ := step_arrive hstep
    exact hm.of_same rfl rfl
  | loseRequest i =>
    obtain rfl := step_loseRequest hstep
    exact hm
  | forceCallDrop p =>
    obtain rfl := Option.some.inj hstep
    exact hm.of_same rfl rfl
  | elapse p =>
    obtain ⟨m, hm', rfl⟩ := step_elapse hstep
    exact hm.elapse hm'
  | handle =>
    obtain ⟨e, rest, -, rfl⟩ := step_handle hstep
    have htail : ({ d.mpss with fifo := rest } : DataConnectionAO).Pooled := hm.of_same rfl rfl
    exact htail.dispatch e
  | deliver =>
    obtain ⟨msg, rest, pa, -, -, rfl⟩ := step_deliver hstep
    exact hm
  | lose i =>
    obtain ⟨msg, -, rfl⟩ := step_lose hstep
    exact hm

end Steps

end DataNet

namespace Manager

variable {m : Manager} {p : ℤ} {sid : ℕ} {a : SessionAO}

theorem current_of_find (hfind : m.find p = some sid) (ha : m.sessions[sid]? = some a) :
    m.current p = some a := by
  rw [current, hfind, Option.bind_some, ha]

theorem current_modifySession (p : ℤ) (sid : ℕ) (f : SessionAO → SessionAO) (m : Manager) :
    (m.modifySession sid f).current p =
      if m.find p = some sid then (m.current p).map f else m.current p := by
  simp only [current]
  change (m.find p).bind (fun sid' => (m.sessions.modify sid f)[sid']?) = _
  cases m.find p with
  | none => rfl
  | some sid' =>
    simp only [Option.bind_some, List.getElem?_modify, Option.some.injEq]
    by_cases h : sid' = sid
    · simp [h]
    · simp [h, Ne.symm h]

theorem current_modifySession_ne {f : SessionAO → SessionAO} (h : m.find p ≠ some sid) :
    (m.modifySession sid f).current p = m.current p := by
  rw [current_modifySession, if_neg h]

theorem mem_own {r : Rpc} : r ∈ m.own p ↔ r ∈ m.rpcs ∧ m.find p = some r.session := by
  simp [own]

end Manager

theorem indSignal_some (data : CallState) : indSignal (some data) = statusSignal data.status := by
  cases hs : data.status <;> simp [indSignal, statusSignal, hs]

theorem tells_noNet {p : ℤ} {data : Option CallState}
    (h : ManagerEvent.tells p (.stateInd data) = some .noNetInd) :
    ∃ cs, data = some cs ∧ cs.profileId = p ∧ cs.status = .noNet := by
  cases data with
  | none => cases h
  | some cs =>
    simp only [ManagerEvent.tells, Option.ite_none_right_eq_some, Option.some.injEq] at h
    refine ⟨cs, rfl, h.1, ?_⟩
    cases hs : cs.status <;> simp [hs, statusSignal] at h
    rfl

theorem eraseIdx_split {α : Type*} {l : List α} {i : ℕ} {x : α} (h : l[i]? = some x) :
    ∃ l₁ l₂, l = l₁ ++ x :: l₂ ∧ l.eraseIdx i = l₁ ++ l₂ := by
  obtain ⟨hi, rfl⟩ := List.getElem?_eq_some_iff.mp h
  refine ⟨l.take i, l.drop (i + 1), ?_, List.eraseIdx_eq_take_drop_succ l i⟩
  rw [← List.drop_eq_getElem_cons hi, List.take_append_drop]

theorem hears_filter (p : ℤ) (own : List Rpc) (msgs : List Message) :
    (msgs.filterMap (hears p own)).filter (fun sg => sg.answers = none) =
      msgs.filterMap (hears p []) := by
  rw [List.filter_filterMap]
  congr 1
  funext msg
  cases msg with
  | ind data =>
    simp only [hears]
    split
    · have hno : (statusSignal data.status).answers = none := by cases data.status <;> rfl
      simp [hno]
    · rfl
  | rsp corrId rsp =>
    simp only [hears, List.find?_nil, Option.map_none]
    cases own.find? (fun r => r.corrId = corrId) with
    | none => rfl
    | some r => cases hk : r.kind <;> simp [hk, rspEvent, SessionEvent.signal, SessionSignal.answers]

theorem hears_append {p : ℤ} {own : List Rpc} {r : Rpc} {msgs : List Message}
    (h : ∀ c rsp, .rsp c rsp ∈ msgs → c ≠ r.corrId) :
    msgs.filterMap (hears p (own ++ [r])) = msgs.filterMap (hears p own) := by
  apply List.filterMap_congr
  intro msg hmsg
  cases msg with
  | ind data => rfl
  | rsp c rsp =>
    have hne := h c rsp hmsg
    simp [hears, Ne.symm hne]

@[simp] theorem asks_repost (es : List SessionEvent) :
    (es.map SessionEffect.repost).filterMap SessionEffect.asks = [] := by
  simp [SessionEffect.asks]

@[simp] theorem asks_respond (call : Bool) (code : ErrorCode) (cbs : List ℕ) :
    (cbs.map (SessionEffect.respond · call code)).filterMap SessionEffect.asks = [] := by
  simp [SessionEffect.asks]

/-- What a session sends follows from its state and the signal of the event. -/
theorem react_asks {profileId : ℤ} {st : SessionState} {e : SessionEvent} {s : Session}
    (hst : st ≠ .active) (hs : s.effects = []) :
    (react profileId st e s).2.effects.filterMap SessionEffect.asks =
      sends st (e.signal profileId) := by
  have hpath : (react profileId st e s).1 = (sessionPath st (e.signal profileId)).1 := by
    rw [react_eq profileId hst]
  rw [sends, ← hpath]
  clear hpath
  fun_cases react profileId st e s
  case case9 =>
    simp only [hs, Session.emit, List.nil_append]
    rfl
  case case11 data _ =>
    obtain ⟨-, -, -, heff | heff⟩ := connectedSt_stateInd data s <;>
      simp [heff, hs, SessionEffect.asks]
  all_goals
    simp [hs, Session.emit, Session.recallAll, Session.respondStart, Session.respondStop,
      Session.setStatus, Session.applyAddrInfo, Session.goDown, SessionEffect.asks, awaited]

namespace DataNet

section View

variable {d d' : DataNet} {p : ℤ} {a a' : SessionAO}

theorem view_same (hcur : d'.pa.manager.current p = d.pa.manager.current p)
    (hown : d'.pa.manager.own p = d.pa.manager.own p)
    (hqueued : d'.pa.queue.filterMap (ManagerEvent.tells p) =
      d.pa.queue.filterMap (ManagerEvent.tells p))
    (hwire : d'.toPa = d.toPa) (hmpss : d'.mpss = d.mpss) : d'.view p = d.view p := by
  simp only [view, hcur, hown, hqueued, hwire, hmpss]

theorem view_session (hcur : d'.pa.manager.current p = some a)
    (hown : d'.pa.manager.own p = d.pa.manager.own p)
    (hqueued : d'.pa.queue.filterMap (ManagerEvent.tells p) =
      d.pa.queue.filterMap (ManagerEvent.tells p))
    (hwire : d'.toPa = d.toPa) (hmpss : d'.mpss = d.mpss) :
    d'.view p = { d.view p with st := a.state, queue := a.queue.map (SessionEvent.signal p),
                                unsent := a.effects.filterMap SessionEffect.asks } := by
  simp only [view, hcur, hown, hqueued, hwire, hmpss, Option.bind_some, Option.elim_some]

theorem view_of_current (hcur : d.pa.manager.current p = some a) :
    (d.view p).st = a.state ∧ (d.view p).queue = a.queue.map (SessionEvent.signal p) ∧
      (d.view p).unsent = a.effects.filterMap SessionEffect.asks := by
  simp [view, hcur]

/-- The step is one of the view, or the view does not see it. -/
def Simulates (p : ℤ) (d d' : DataNet) : Prop :=
  d'.view p = d.view p ∨ (d.view p).Step (d'.view p)

/-- The session of the profile gets an event that says nothing about the modem. -/
theorem simulates_post (hcur : d.pa.manager.current p = some a) {e : SessionEvent}
    (hcur' : d'.pa.manager.current p = some a')
    (hstate : a'.state = a.state) (hqueue : a'.queue = a.queue ++ [e])
    (hasks : a'.effects.filterMap SessionEffect.asks = a.effects.filterMap SessionEffect.asks)
    (hsg : (e.signal p).neutral) (hno : (e.signal p).answers = none)
    (hown : d'.pa.manager.own p = d.pa.manager.own p)
    (hqueued : d'.pa.queue.filterMap (ManagerEvent.tells p) =
      d.pa.queue.filterMap (ManagerEvent.tells p))
    (hwire : d'.toPa = d.toPa) (hmpss : d'.mpss = d.mpss) : Simulates p d d' := by
  obtain ⟨hst, hq, hunsent⟩ := view_of_current hcur
  right
  rw [view_session hcur' hown hqueued hwire hmpss, hstate, hqueue, hasks, ← hst, ← hunsent,
    List.map_append, ← hq]
  exact .post hsg hno

theorem simulates_take (hd : d.Sound) {sid : ℕ} (hok : d.keepsAgreement p (.pa (.take sid)))
    (hstep : d.pa.step (.take sid) = some d'.pa) (hwire : d'.toPa = d.toPa)
    (hmpss : d'.mpss = d.mpss) : Simulates p d d' := by
  obtain ⟨a, ha⟩ := DataSystem.step_take_session hstep
  obtain ⟨st, hst, hleaf⟩ := (hd.pa.fit sid a ha).leaf
  obtain ⟨e, rest, h', heff, hq, hstate, hext, hpa⟩ := DataSystem.step_take hstep ha hst hleaf
  have hown : d'.pa.manager.own p = d.pa.manager.own p := by rw [hpa]; rfl
  have hqueued : d'.pa.queue = d.pa.queue := by rw [hpa]; rfl
  by_cases hfind : d.pa.manager.find p = some sid
  · have hcur := current_of_find hfind ha
    obtain ⟨hst', hq', hunsent⟩ := view_of_current hcur
    obtain ⟨b, hb, rfl, -⟩ := hd.pa.mapped p sid hfind
    obtain rfl : a = b := Option.some.inj (ha.symm.trans hb)
    have hcur' : d'.pa.manager.current a.profileId =
        some { a with hsm := h', queue := rest } := by
      rw [hpa]
      change (d.pa.manager.modifySession sid _).current _ = _
      rw [current_modifySession, if_pos hfind, hcur]
      rfl
    have hpath : h'.state = some (sessionPath st (e.signal a.profileId)).1 := by
      rw [hstate, react_eq a.profileId hleaf]
    have hasks : h'.ext.effects.filterMap SessionEffect.asks =
        sends st (e.signal a.profileId) := by
      rw [hext]
      exact react_asks hleaf heff
    right
    rw [view_session hcur' hown (by rw [hqueued]) hwire hmpss, SessionAO.state, SessionAO.effects,
      hpath, hasks]
    refine .take (hst'.trans hst) hleaf (by rw [hq', hq]; rfl) (by rw [hunsent, heff]; rfl) ?_
    intro hgive
    simpa [keepsAgreement, hst', hst, hq', hq, hfind, hgive] using hok
  · refine .inl (view_same ?_ hown (by rw [hqueued]) hwire hmpss)
    rw [hpa]
    exact current_modifySession_ne hfind

theorem simulates_effect (hd : d.Sound) {sid : ℕ} (hstep : d.pa.step (.effect sid) = some d'.pa)
    (hwire : d'.toPa = d.toPa) (hmpss : d'.mpss = d.mpss) : Simulates p d d' := by
  obtain ⟨a, f, fs, ha, heff, hpa⟩ := DataSystem.step_effect hstep
  obtain ⟨hrpcs, hactive⟩ := DataSystem.perform_rpcs sid a.profileId f
    (d.pa.setManager (d.pa.manager.modifySession sid (.setEffects fs)))
  have hsessions := DataSystem.perform_sessions sid a.profileId f fs d.pa
  rw [← hpa] at hrpcs hactive hsessions
  have hfind : d'.pa.manager.find p = d.pa.manager.find p := by
    rw [find, hactive]
    rfl
  have hqueued : d'.pa.queue.filterMap (ManagerEvent.tells p) =
      d.pa.queue.filterMap (ManagerEvent.tells p) := by
    rw [hpa]
    cases f with
    | finished => simp [DataSystem.perform, DataSystem.postFifo, ManagerEvent.tells,
        DataSystem.setManager]
    | _ => rfl
  have hcur' : d'.pa.manager.current p =
      (d.pa.manager.modifySession sid (.performed f fs)).current p := by
    rw [current, current, hfind, hsessions]
    rfl
  have hown : (∀ k n, f ≠ .rpc k n) ∨ d.pa.manager.find p ≠ some sid →
      d'.pa.manager.own p = d.pa.manager.own p := by
    intro hor
    rw [own, own, hfind]
    rcases hrpcs with ⟨k, n, rfl, hrpcs, -⟩ | ⟨-, hrpcs, -⟩
    · have hne := hor.resolve_left (fun h => h k n rfl)
      rw [hrpcs, List.filter_append]
      change d.pa.manager.rpcs.filter _ ++ _ = _
      simp [hne]
    · rw [hrpcs]
      rfl
  by_cases hsid : d.pa.manager.find p = some sid
  · have hcur := current_of_find hsid ha
    rw [current_modifySession, if_pos hsid, hcur, Option.map_some] at hcur'
    obtain ⟨hst, hq, hunsent⟩ := view_of_current hcur
    obtain ⟨-, -, hstate, heff'⟩ := SessionAO.performed_keeps f fs a
    -- an effect that sends nothing and posts nothing to the session
    have hplain : (∀ k n, f ≠ .rpc k n) → (a.performed f fs).queue = a.queue → Simulates p d d' := by
      intro hne hqueue
      have hasks : f.asks = none := by
        cases f with
        | rpc k n => exact absurd rfl (hne k n)
        | _ => rfl
      rw [heff, List.filterMap_cons_none hasks] at hunsent
      refine .inl ?_
      rw [view_session hcur' (hown (.inl hne)) hqueued hwire hmpss, hstate, heff', hqueue, ← hst,
        ← hq, ← hunsent]
    cases f with
    | rpc k n =>
      right
      obtain ⟨k', n', hf, hrpcs, -⟩ | ⟨hne, -⟩ := hrpcs
      · obtain ⟨rfl, rfl⟩ := SessionEffect.rpc.inj hf
        have hown' : d'.pa.manager.own p = d.pa.manager.own p ++
            [⟨⟨d.pa.manager.issued, k, a.profileId, n⟩, sid⟩] := by
          rw [own, own, hfind, hrpcs, List.filter_append]
          change d.pa.manager.rpcs.filter _ ++ _ = _
          simp [hsid]
          rfl
        have hhears : d'.toPa.filterMap (hears p (d'.pa.manager.own p)) = (d.view p).wire := by
          rw [hown', hwire]
          apply hears_append
          intro c rsp h
          exact Nat.ne_of_lt (hd.responses c rsp h)
        have hview : d'.view p = { d.view p with
            unsent := fs.filterMap SessionEffect.asks, asked := (d.view p).asked ++ [k] } := by
          simp only [view, hcur', hqueued, hmpss, Option.bind_some, Option.elim_some, hstate, heff',
            hhears]
          simp only [hcur, Option.bind_some, Option.elim_some, hown', List.map_append]
          rfl
        rw [hview]
        exact .send (by rw [hunsent, heff]; rfl)
      · exact absurd rfl (hne k n)
    | repost e =>
      obtain ⟨b, hb, -, hrun⟩ := hd.pa.mapped p sid hsid
      obtain rfl : a = b := Option.some.inj (ha.symm.trans hb)
      have hstop := (hd.pa.fit sid a ha).reposts e (by rw [heff]; exact List.mem_cons_self)
      obtain ⟨cb, rfl⟩ : ∃ cb, e = .stop cb := by
        cases e with
        | stop cb => exact ⟨cb, rfl⟩
        | _ => cases hstop
      refine simulates_post (e := .stop cb) hcur hcur' hstate ?_ ?_ rfl rfl
        (hown (.inl (fun _ _ h => by cases h))) hqueued hwire hmpss
      · simp [SessionAO.performed, SessionAO.postFifo, SessionAO.setEffects, hrun]
      · rw [heff', heff]
        rfl
    | respond _ _ _ => exact hplain (fun _ _ h => by cases h) rfl
    | finished => exact hplain (fun _ _ h => by cases h) rfl
    | notify => exact hplain (fun _ _ h => by cases h) rfl
    | arm t => exact hplain (fun _ _ h => by cases h) rfl
    | disarm t => exact hplain (fun _ _ h => by cases h) rfl
  · rw [current_modifySession_ne hsid] at hcur'
    exact .inl (view_same hcur' (hown (.inr hsid)) hqueued hwire hmpss)

/-- The session of `sid` changes, but not in what the view shows. -/
theorem simulates_hidden (sid : ℕ) {f : SessionAO → SessionAO}
    (hf : d.pa.manager.find p = some sid → ∀ a, d.pa.manager.current p = some a →
      (f a).state = a.state ∧ (f a).queue = a.queue ∧ (f a).effects = a.effects)
    (hcur : d'.pa.manager.current p = (d.pa.manager.modifySession sid f).current p)
    (hown : d'.pa.manager.own p = d.pa.manager.own p)
    (hqueued : d'.pa.queue.filterMap (ManagerEvent.tells p) =
      d.pa.queue.filterMap (ManagerEvent.tells p))
    (hwire : d'.toPa = d.toPa) (hmpss : d'.mpss = d.mpss) : Simulates p d d' := by
  left
  by_cases hsid : d.pa.manager.find p = some sid
  · rw [current_modifySession, if_pos hsid] at hcur
    cases ha : d.pa.manager.current p with
    | none =>
      rw [ha] at hcur
      exact view_same (hcur.trans ha.symm) hown hqueued hwire hmpss
    | some a =>
      rw [ha, Option.map_some] at hcur
      obtain ⟨hst, hq, hunsent⟩ := view_of_current ha
      obtain ⟨hst', hq', heff'⟩ := hf hsid a ha
      rw [view_session hcur hown hqueued hwire hmpss, hst', hq', heff', ← hst, ← hq, ← hunsent]
  · rw [current_modifySession_ne hsid] at hcur
    exact view_same hcur hown hqueued hwire hmpss

/-- The session of `sid` gets an event that says nothing about the modem. -/
theorem simulates_posted (hd : d.Sound) (sid : ℕ) {f : SessionAO → SessionAO} {e : SessionEvent}
    (hf : ∀ a, a.running → (f a).state = a.state ∧ (f a).queue = a.queue ++ [e] ∧
      (f a).effects = a.effects)
    (hsg : (e.signal p).neutral) (hno : (e.signal p).answers = none)
    (hcur : d'.pa.manager.current p = (d.pa.manager.modifySession sid f).current p)
    (hown : d'.pa.manager.own p = d.pa.manager.own p)
    (hqueued : d'.pa.queue.filterMap (ManagerEvent.tells p) =
      d.pa.queue.filterMap (ManagerEvent.tells p))
    (hwire : d'.toPa = d.toPa) (hmpss : d'.mpss = d.mpss) : Simulates p d d' := by
  by_cases hsid : d.pa.manager.find p = some sid
  · obtain ⟨a, ha, -, hrun⟩ := hd.pa.mapped p sid hsid
    have hcura := current_of_find hsid ha
    rw [current_modifySession, if_pos hsid, hcura, Option.map_some] at hcur
    obtain ⟨hstate, hqueue, heff⟩ := hf a hrun
    exact simulates_post hcura hcur hstate hqueue (by rw [heff]) hsg hno hown hqueued hwire hmpss
  · rw [current_modifySession_ne hsid] at hcur
    exact .inl (view_same hcur hown hqueued hwire hmpss)

theorem simulates_fire (hd : d.Sound) {sid : ℕ} {t : TimerKind}
    (hstep : d.pa.step (.fire sid t) = some d'.pa) (hwire : d'.toPa = d.toPa)
    (hmpss : d'.mpss = d.mpss) : Simulates p d d' := by
  obtain ⟨a, -, -, hpa⟩ := DataSystem.step_fire hstep
  refine simulates_posted hd sid (e := timeoutEvent t)
    (f := fun a => { a with firing := a.firing.erase t }.postFifo (timeoutEvent t)) ?_
    (by cases t <;> rfl) (by cases t <;> rfl) ?_ ?_ ?_ hwire hmpss
  · intro a hrun
    dsimp only [SessionAO.postFifo]
    rw [if_pos hrun]
    exact ⟨rfl, rfl, rfl⟩
  · rw [hpa]
    rfl
  · rw [hpa]
    rfl
  · rw [hpa]
    rfl

theorem simulates_pick {sid : ℕ} {t : TimerKind} (hstep : d.pa.step (.pick sid t) = some d'.pa)
    (hwire : d'.toPa = d.toPa) (hmpss : d'.mpss = d.mpss) : Simulates p d d' := by
  obtain ⟨a, -, -, hpa⟩ := DataSystem.step_pick hstep
  refine simulates_hidden sid
    (f := fun a => { a with armed := a.armed.erase t, firing := a.firing ++ [t] })
    (fun _ _ _ => ⟨rfl, rfl, rfl⟩) ?_ ?_ ?_ hwire hmpss
  · rw [hpa]
    rfl
  · rw [hpa]
    rfl
  · rw [hpa]
    rfl

theorem simulates_release (hstep : d.pa.step .release = some d'.pa)
    (hwire : d'.toPa = d.toPa) (hmpss : d'.mpss = d.mpss) : Simulates p d d' := by
  obtain ⟨sid, -, hpa⟩ := DataSystem.step_release hstep
  have hqueued : d'.pa.queue = d.pa.queue := by rw [hpa]; rfl
  unfold Manager.release at hpa
  split at hpa
  · refine .inl (view_same ?_ ?_ (by rw [hqueued]) hwire hmpss)
    · rw [hpa]
      rfl
    · rw [hpa]
      rfl
  · refine simulates_hidden sid (f := .halt) (fun _ _ _ => ⟨rfl, rfl, rfl⟩) ?_ ?_
      (by rw [hqueued]) hwire hmpss
    · rw [hpa]
      rfl
    · rw [hpa]
      rfl

theorem own_answered {i : ℕ} {r : Rpc} (hr : d.pa.manager.rpcs[i]? = some r)
    (hne : d.pa.manager.find p ≠ some r.session) :
    (d.pa.manager.rpcs.eraseIdx i).filter (fun r => d.pa.manager.find p = some r.session) =
      d.pa.manager.own p := by
  obtain ⟨l, l', hl, hl'⟩ := eraseIdx_split hr
  rw [hl', own, hl, List.filter_append, List.filter_append, List.filter_cons_of_neg]
  simpa using hne

/-- The session's own request is answered: it had no other. -/
theorem own_closed (hv : (d.view p).Agreed) {i : ℕ} {r : Rpc}
    (hr : d.pa.manager.rpcs[i]? = some r) (hfind : d.pa.manager.find p = some r.session) :
    d.pa.manager.own p = [r] ∧
      (d.pa.manager.rpcs.eraseIdx i).filter (fun r => d.pa.manager.find p = some r.session) = [] := by
  have hmem : r ∈ d.pa.manager.own p := mem_own.mpr ⟨List.mem_of_getElem? hr, hfind⟩
  obtain ⟨-, hasked, -, -⟩ := hv.of_asked (List.mem_map_of_mem hmem)
  have hlen : (d.pa.manager.own p).length = 1 := by
    have hlen := congrArg List.length hasked
    simpa [view] using hlen
  obtain ⟨r', hr'⟩ := List.length_eq_one_iff.mp hlen
  rw [hr'] at hmem
  obtain rfl := List.mem_singleton.mp hmem
  refine ⟨hr', ?_⟩
  obtain ⟨l, l', hl, hl'⟩ := eraseIdx_split hr
  rw [own, hl, List.filter_append, List.filter_cons_of_pos (by simpa using hfind)] at hr'
  rw [hl', List.filter_append]
  have hlen' := congrArg List.length hr'
  simp only [List.length_append, List.length_cons, List.length_nil] at hlen'
  rw [List.append_eq_nil_iff]
  exact ⟨List.eq_nil_of_length_eq_zero (by omega), List.eq_nil_of_length_eq_zero (by omega)⟩

/-- A request is answered: by the modem, or by the bridge for it. -/
theorem view_reply (hd : d.Sound) (hv : (d.view p).Agreed) {i : ℕ} {rsp : Option Rsp}
    (hstep : d.pa.step (.reply i rsp) = some d'.pa) (hmpss : d'.mpss = d.mpss) :
    ∃ r, d.pa.manager.rpcs[i]? = some r ∧
      ((d.pa.manager.find p ≠ some r.session ∧ d'.pa.manager.own p = d.pa.manager.own p ∧
          d'.view p = { d.view p with
            wire := d'.toPa.filterMap (hears p (d.pa.manager.own p)) }) ∨
        (r.kind ∈ (d.view p).asked ∧ d.pa.manager.own p = [r] ∧
          d'.view p = { d.view p with
            queue := (d.view p).queue ++ [(rspEvent r.kind rsp).signal p]
            asked := []
            wire := d'.toPa.filterMap (hears p []) })) := by
  obtain ⟨r, hr, -, hpa⟩ := DataSystem.step_reply hstep
  refine ⟨r, hr, ?_⟩
  have hqueued : d'.pa.queue = d.pa.queue := by rw [hpa]; rfl
  have hown' : d'.pa.manager.own p =
      (d.pa.manager.rpcs.eraseIdx i).filter (fun r => d.pa.manager.find p = some r.session) := by
    rw [hpa]
    unfold Manager.answer
    split <;> rfl
  by_cases hfind : d.pa.manager.find p = some r.session
  · right
    obtain ⟨hown, hnil⟩ := own_closed hv hr hfind
    obtain ⟨a, ha, -, hrun⟩ := hd.pa.mapped p r.session hfind
    have hcur := current_of_find hfind ha
    have hcur' : d'.pa.manager.current p = some (a.postFifo (rspEvent r.kind rsp)) := by
      have halive : ({ d.pa.manager with
          rpcs := d.pa.manager.rpcs.eraseIdx i } : Manager).alive r.session :=
        alive_of_find hfind
      rw [hpa, Manager.answer, if_pos halive]
      change (d.pa.manager.modifySession r.session _).current p = _
      rw [current_modifySession, if_pos hfind, hcur]
      rfl
    rw [SessionAO.postFifo, if_pos hrun] at hcur'
    refine ⟨?_, hown, ?_⟩
    · simp [view, hown]
    · simp only [view, hcur', hcur, hown', hnil, hqueued, hmpss, Option.bind_some, Option.elim_some,
        List.map_append, List.map_cons, List.map_nil]
      rfl
  · left
    rw [own_answered hr hfind] at hown'
    have hcur' : d'.pa.manager.current p = d.pa.manager.current p := by
      rw [hpa]
      unfold Manager.answer
      split
      · exact current_modifySession_ne (m := d.pa.manager) hfind
      · rfl
    refine ⟨hfind, hown', ?_⟩
    simp only [view, hcur', hown', hqueued, hmpss]

theorem simulates_giveUp (hd : d.Sound) (hv : (d.view p).Agreed) {i : ℕ}
    (hstep : d.pa.step (.reply i none) = some d'.pa) (hwire : d'.toPa = d.toPa)
    (hmpss : d'.mpss = d.mpss) : Simulates p d d' := by
  obtain ⟨r, -, ⟨-, -, hview⟩ | ⟨hk, -, hview⟩⟩ := view_reply hd hv hstep hmpss
  · left
    rw [hview, hwire]
    rfl
  · right
    have hsg : (rspEvent r.kind none).signal p = rspSignal r.kind false := by
      cases r.kind <;> rfl
    rw [hview, hwire, hsg, ← hears_filter p (d.pa.manager.own p)]
    exact .timeout hk

theorem Sound.find_ne (hd : d.Sound) {q : ℤ} {sid : ℕ} (hq : d.pa.manager.find q = some sid)
    (hne : q ≠ p) : d.pa.manager.find p ≠ some sid := by
  intro hp
  obtain ⟨a, ha, haq, -⟩ := hd.pa.mapped q sid hq
  obtain ⟨b, hb, hbp, -⟩ := hd.pa.mapped p sid hp
  obtain rfl : a = b := Option.some.inj (ha.symm.trans hb)
  exact hne (haq.symm.trans hbp)

theorem own_of_find_none {m : Manager} (h : m.find p = none) : m.own p = [] := by
  simp [own, h]

theorem not_believes_of_find (hv : (d.view p).Agreed) (hfind : d.pa.manager.find p = none) :
    (d.view p).believes = false := by
  have hst : (d.view p).st = none := by simp [view, current, hfind]
  have hno := hv.no_answers (by rw [hst]; rfl)
  simpa using CallView.not_believes (.inl hst) hno

theorem simulates_create (hd : d.Sound) {q : ℤ} {ifname : String} {cb : ℕ}
    (hfind : d.pa.manager.find q = none)
    (hm : d'.pa.manager = d.pa.manager.startSession q ifname cb)
    (hqueued : d'.pa.queue.filterMap (ManagerEvent.tells p) =
      d.pa.queue.filterMap (ManagerEvent.tells p))
    (hwire : d'.toPa = d.toPa) (hmpss : d'.mpss = d.mpss) : Simulates p d d' := by
  have hfind' := fun p => @find_startSession d.pa.manager q p ifname cb hfind
  by_cases hp : p = q
  · subst hp
    have hcur' : d'.pa.manager.current p = some (.create p ifname cb) := by
      rw [hm, current, hfind', if_pos rfl, Option.bind_some, Manager.startSession]
      simp
    have hown' : d'.pa.manager.own p = [] := by
      rw [hm, own, hfind', if_pos rfl, List.filter_eq_nil_iff]
      intro r hr
      obtain ⟨-, a, ha, -⟩ := hd.pa.rpcs r hr
      have hlt := (List.getElem?_eq_some_iff.mp ha).1
      simp only [decide_eq_true_eq, Option.some.injEq]
      omega
    have hview : d'.view p = { d.view p with
        st := some .idle, queue := [.start], unsent := [], asked := [] } := by
      simp only [view, hcur', hown', hqueued, hwire, hmpss, own_of_find_none hfind]
      rfl
    right
    rw [hview]
    exact .create (by simp [view, current, hfind])
  · refine .inl (view_same ?_ ?_ hqueued hwire hmpss)
    · rw [hm, current, hfind', if_neg hp, current]
      cases hsid : d.pa.manager.find p with
      | none => rfl
      | some sid =>
        obtain ⟨a, ha, -, -⟩ := hd.pa.mapped p sid hsid
        have hlt := (List.getElem?_eq_some_iff.mp ha).1
        rw [Option.bind_some, Option.bind_some, Manager.startSession,
          List.getElem?_append_left hlt]
    · rw [hm, own, hfind', if_neg hp]
      rfl

theorem simulates_erase (hd : d.Sound) {q : ℤ} {poster : ℕ}
    (hok : q = p → (d.view p).st ≠ some .terminal → (d.view p).held = false)
    (hm : d'.pa.manager = d.pa.manager.erase q poster)
    (hqueued : d'.pa.queue.filterMap (ManagerEvent.tells p) =
      d.pa.queue.filterMap (ManagerEvent.tells p))
    (hwire : d'.toPa = d.toPa) (hmpss : d'.mpss = d.mpss) : Simulates p d d' := by
  have hfind' := fun p => @find_erase d.pa.manager q p poster
  by_cases hp : p = q
  · subst hp
    have hnone : d'.pa.manager.find p = none := by rw [hm, hfind', if_pos rfl]
    have hview : d'.view p = { d.view p with
        st := none, queue := [], unsent := [], asked := []
        wire := (d.view p).wire.filter (fun sg => sg.answers = none) } := by
      simp only [view, current, hnone, own_of_find_none hnone, hqueued, hwire, hmpss, hears_filter]
      rfl
    right
    rw [hview]
    exact .erase (hok rfl)
  · have hsame : (d.pa.manager.erase q poster).rpcs = d.pa.manager.rpcs ∧
        (d.pa.manager.erase q poster).current p = d.pa.manager.current p := by
      rw [current, hfind', if_neg hp]
      cases hsid : d.pa.manager.find q with
      | none =>
        rw [DataSystem.erase_of_find_none hsid]
        exact ⟨rfl, rfl⟩
      | some sid =>
        simp only [Manager.erase, hsid]
        split
        · exact ⟨rfl, rfl⟩
        · exact ⟨rfl, current_modifySession_ne (f := .halt) (hd.find_ne hsid (Ne.symm hp))⟩
    refine .inl (view_same (by rw [hm, hsame.2]) ?_ hqueued hwire hmpss)
    rw [hm, own, hfind', if_neg hp, hsame.1]
    rfl

theorem simulates_manage (hd : d.Sound) (hv : (d.view p).Agreed)
    (hok : d.keepsAgreement p (.pa .manage)) (hstep : d.pa.step .manage = some d'.pa)
    (hwire : d'.toPa = d.toPa) (hmpss : d'.mpss = d.mpss) : Simulates p d d' := by
  obtain ⟨st, hst, hleaf⟩ := hd.pa.manager
  obtain ⟨e, rest, h', -, hq, hstate, hext, hpa⟩ := DataSystem.step_manage hstep hst hleaf
  have hmanaged := manage_managed hleaf e d.pa.manager
  rw [← hext, show h'.ext = d'.pa.manager by rw [hpa]; rfl] at hmanaged
  have hrest : d'.pa.queue = rest := by rw [hpa]
  -- an event that is no indication for the session leaves the queue of indications alone
  have hqueued : e.tells p = none → d'.pa.queue.filterMap (ManagerEvent.tells p) =
      d.pa.queue.filterMap (ManagerEvent.tells p) := by
    intro h
    rw [hrest, hq, List.filterMap_cons_none h]
  have hsame : e.tells p = none → d'.pa.manager = d.pa.manager → Simulates p d d' := by
    intro h hm
    exact .inl (view_same (by rw [hm]) (by rw [hm]) (hqueued h) hwire hmpss)
  have hpost : ∀ sid ev, e.tells p = none → (ev.signal p).neutral → (ev.signal p).answers = none →
      d'.pa.manager = d.pa.manager.modifySession sid (.postFifo ev) → Simulates p d d' := by
    intro sid ev h hsg hno hm
    refine simulates_posted hd sid (f := .postFifo ev) ?_ hsg hno (by rw [hm]) (by rw [hm]; rfl)
      (hqueued h) hwire hmpss
    intro a hrun
    rw [SessionAO.postFifo, if_pos hrun]
    exact ⟨rfl, rfl, rfl⟩
  generalize hm : d'.pa.manager = m at hmanaged hsame hpost
  cases hmanaged with
  | readiness r => exact hsame rfl rfl
  | connectivity up => exact hsame rfl rfl
  | dropStart q ifname cb hn => exact hsame rfl rfl
  | dropStop q cb hn => exact hsame rfl rfl
  | refuseStart q ifname cb sid code hfind =>
    exact .inl (view_same (by rw [hm]; rfl) (by rw [hm]; rfl) (hqueued rfl) hwire hmpss)
  | refuseStop q cb hfind =>
    exact .inl (view_same (by rw [hm]; rfl) (by rw [hm]; rfl) (hqueued rfl) hwire hmpss)
  | stop q cb sid hfind => exact hpost sid (.stop cb) rfl rfl rfl rfl
  | dropInd data hdata =>
    cases htells : ManagerEvent.tells p (.stateInd data) with
    | none => exact hsame htells rfl
    | some sg =>
      right
      have hcons : (d.view p).queued = sg :: rest.filterMap (ManagerEvent.tells p) := by
        simp only [view, hq, List.filterMap_cons_some htells]
      have hview : d'.view p =
          { d.view p with queued := rest.filterMap (ManagerEvent.tells p) } := by
        simp only [view, hm, hrest, hwire, hmpss]
      rw [hview]
      refine .ignore hcons ?_
      rintro rfl
      obtain ⟨cs, rfl, rfl, hstatus⟩ := tells_noNet htells
      rcases hdata cs rfl with hst' | hnone
      · subst hst'
        simpa [keepsAgreement, hq, hst, hstatus] using hok
      · exact not_believes_of_find hv hnone
  | ind data sid hfind =>
    by_cases hp : data.profileId = p
    · subst hp
      obtain ⟨a, ha, -, hrun⟩ := hd.pa.mapped _ sid hfind
      have hcur := current_of_find hfind ha
      have hcur' : d'.pa.manager.current data.profileId =
          some { a with queue := a.queue ++ [.stateInd (some data)] } := by
        rw [hm, current_modifySession, if_pos hfind, hcur, Option.map_some, SessionAO.postFifo,
          if_pos hrun]
      have hcons : (d.view data.profileId).queued = statusSignal data.status ::
          rest.filterMap (ManagerEvent.tells data.profileId) := by
        simp [view, hq, ManagerEvent.tells]
      have hview : d'.view data.profileId = { d.view data.profileId with
          queue := (d.view data.profileId).queue ++ [statusSignal data.status]
          queued := rest.filterMap (ManagerEvent.tells data.profileId) } := by
        simp only [view, hcur', hcur, hrest, hwire, hmpss, Option.bind_some, Option.elim_some,
          List.map_append, List.map_cons, List.map_nil, SessionEvent.signal, indSignal_some]
        rw [hm]
        rfl
      right
      rw [hview]
      exact .pass hcons
    · refine .inl (view_same ?_ (by rw [hm]; rfl) (hqueued ?_) hwire hmpss)
      · rw [hm]
        exact current_modifySession_ne (hd.find_ne hfind hp)
      · simp [ManagerEvent.tells, hp]
  | start q ifname cb hready hfind =>
    exact simulates_create hd hfind hm (hqueued rfl) hwire hmpss
  | finished q poster =>
    refine simulates_erase hd ?_ hm (hqueued rfl) hwire hmpss
    rintro rfl hterm
    simpa [keepsAgreement, hq, hterm] using hok

theorem simulates_pa (hd : d.Sound) (hv : (d.view p).Agreed) {l : DataSystem.Label}
    (hok : d.keepsAgreement p (.pa l)) (hl : l.fromModem = false)
    (hstep : d.pa.step l = some d'.pa) (hwire : d'.toPa = d.toPa) (hmpss : d'.mpss = d.mpss) :
    Simulates p d d' := by
  -- the manager's queue may get an event that is no indication
  have hsame : ∀ es, d'.pa.manager.sessions = d.pa.manager.sessions →
      d'.pa.manager.activeSessions = d.pa.manager.activeSessions →
      d'.pa.manager.rpcs = d.pa.manager.rpcs → d'.pa.queue = d.pa.queue ++ es →
      (∀ e ∈ es, e.tells p = none) → Simulates p d d' := by
    intro es hsessions hactive hrpcs hqueue hes
    refine .inl (view_same ?_ ?_ ?_ hwire hmpss)
    · rw [current, current, find, find, hactive, hsessions]
    · rw [own, own, find, find, hactive, hrpcs]
    · rw [hqueue, List.filterMap_append, List.filterMap_eq_nil_iff.mpr hes, List.append_nil]
  cases l with
  | call e =>
    obtain ⟨cb, -, -, -, hpa⟩ := DataSystem.step_call hstep
    rw [hpa] at hsame
    exact hsame [] rfl rfl rfl (List.append_nil _).symm (fun _ h => by cases h)
  | submit i =>
    obtain ⟨e, he, hpa⟩ := DataSystem.step_submit hstep
    rw [hpa] at hsame
    refine hsame [e] rfl rfl rfl rfl ?_
    intro e' he'
    rw [List.mem_singleton.mp he']
    have hcb := hd.pa.calls e (List.mem_of_getElem? he)
    cases e with
    | startDataCall _ _ _ => rfl
    | stopDataCall _ _ => rfl
    | _ => cases hcb
  | post e =>
    obtain ⟨hfrom, -, hpa⟩ := DataSystem.step_post hstep
    rw [hpa] at hsame
    refine hsame [e] rfl rfl rfl rfl ?_
    intro e' he'
    rw [List.mem_singleton.mp he']
    cases e with
    | stateInd data => cases hl
    | _ => rfl
  | manage => exact simulates_manage hd hv hok hstep hwire hmpss
  | managerJoined =>
    obtain ⟨sid, -, -, hpa⟩ := DataSystem.step_managerJoined hstep
    rw [hpa] at hsame
    exact hsame [] rfl rfl rfl (List.append_nil _).symm (fun _ h => by cases h)
  | take sid => exact simulates_take hd hok hstep hwire hmpss
  | effect sid => exact simulates_effect hd hstep hwire hmpss
  | pick sid t => exact simulates_pick hstep hwire hmpss
  | fire sid t => exact simulates_fire hd hstep hwire hmpss
  | reply i rsp =>
    cases rsp with
    | none => exact simulates_giveUp hd hv hstep hwire hmpss
    | some rsp => cases hl
  | release => exact simulates_release hstep hwire hmpss
  | bridgeJoined =>
    obtain ⟨sid, -, -, hpa⟩ := DataSystem.step_bridgeJoined hstep
    rw [hpa] at hsame
    exact hsame [] rfl rfl rfl (List.append_nil _).symm (fun _ h => by cases h)

theorem simulates_deliver (hd : d.Sound) (hv : (d.view p).Agreed) {msg : Message}
    {rest : List Message} (hmsg : d.toPa = msg :: rest) (hpa : d.pa.receive msg = some d'.pa)
    (hrest : d'.toPa = rest) (hmpss : d'.mpss = d.mpss) : Simulates p d d' := by
  have hwire : ∀ sg, hears p (d.pa.manager.own p) msg = some sg →
      (d.view p).wire = sg :: rest.filterMap (hears p (d.pa.manager.own p)) := by
    intro sg h
    simp only [view, hmsg, List.filterMap_cons_some h]
  have hdeaf : hears p (d.pa.manager.own p) msg = none →
      (d.view p).wire = rest.filterMap (hears p (d.pa.manager.own p)) := by
    intro h
    simp only [view, hmsg, List.filterMap_cons_none h]
  cases msg with
  | ind data =>
    obtain ⟨-, -, hpa⟩ := DataSystem.step_post hpa
    by_cases hp : data.profileId = p
    · have hhears : hears p (d.pa.manager.own p) (.ind data) = some (statusSignal data.status) := by
        simp [hears, hp]
      have hview : d'.view p = { d.view p with
          queued := (d.view p).queued ++ [statusSignal data.status]
          wire := rest.filterMap (hears p (d.pa.manager.own p)) } := by
        simp only [view, hpa, hrest, hmpss, DataSystem.postFifo, List.filterMap_append]
        simp [ManagerEvent.tells, hp, DataSystem.manager]
      right
      rw [hview]
      exact .receive (hwire _ hhears) (by cases data.status <;> rfl)
    · have hhears : hears p (d.pa.manager.own p) (.ind data) = none := by simp [hears, hp]
      have hview : d'.view p = { d.view p with
          wire := rest.filterMap (hears p (d.pa.manager.own p)) } := by
        simp only [view, hpa, hrest, hmpss, DataSystem.postFifo, List.filterMap_append]
        simp [ManagerEvent.tells, hp, DataSystem.manager]
      left
      rw [hview, ← hdeaf hhears]
  | rsp corrId rsp =>
    simp only [DataSystem.receive] at hpa
    split at hpa
    · rename_i hnone
      have hpa := Option.some.inj hpa
      have hhears : hears p (d.pa.manager.own p) (.rsp corrId rsp) = none := by
        simp only [hears, Option.map_eq_none_iff, List.find?_eq_none, Bool.not_eq_true]
        intro r hr
        exact List.findIdx?_eq_none_iff.mp hnone r (mem_own.mp hr).1
      have hview : d'.view p = { d.view p with
          wire := rest.filterMap (hears p (d.pa.manager.own p)) } := by
        simp only [view, ← hpa, hrest, hmpss]
      left
      rw [hview, ← hdeaf hhears]
    · rename_i i hi
      obtain ⟨hlt, hc, -⟩ := List.findIdx?_eq_some_iff_getElem.mp hi
      obtain ⟨r, hr, hcases⟩ := view_reply hd hv hpa hmpss
      obtain rfl : d.pa.manager.rpcs[i] = r :=
        Option.some.inj ((List.getElem?_eq_getElem hlt).symm.trans hr)
      simp only [decide_eq_true_eq] at hc
      rw [hrest] at hcases
      rcases hcases with ⟨hne, -, hview⟩ | ⟨-, hown, hview⟩
      · have hhears : hears p (d.pa.manager.own p) (.rsp corrId rsp) = none := by
          simp only [hears, Option.map_eq_none_iff, List.find?_eq_none, decide_eq_true_eq]
          intro r' hr' hc'
          obtain ⟨hmem, hfind⟩ := mem_own.mp hr'
          obtain rfl := List.inj_on_of_nodup_map hd.pa.nodup hmem (List.getElem_mem hlt)
            (hc'.trans hc.symm)
          exact hne hfind
        left
        rw [hview, ← hdeaf hhears]
      · have hhears : hears p (d.pa.manager.own p) (.rsp corrId rsp) =
            some ((rspEvent d.pa.manager.rpcs[i].kind (some rsp)).signal p) := by
          simp [hears, hown, hc]
        right
        rw [hview, ← hears_filter p (d.pa.manager.own p)]
        refine .answer (hwire _ hhears) ?_
        cases d.pa.manager.rpcs[i].kind <;> simp [rspEvent, SessionEvent.signal, SessionSignal.answers]

theorem simulates_lose {i : ℕ} {msg : Message} (hok : d.keepsAgreement p (.lose i))
    (hmsg : d.toPa[i]? = some msg) (hpa : d'.pa = d.pa) (hwire : d'.toPa = d.toPa.eraseIdx i)
    (hmpss : d'.mpss = d.mpss) : Simulates p d d' := by
  obtain ⟨l, l', hl, hl'⟩ := eraseIdx_split hmsg
  have hview : d'.view p = { d.view p with
      wire := l.filterMap (hears p (d.pa.manager.own p)) ++
        l'.filterMap (hears p (d.pa.manager.own p)) } := by
    simp only [view, hpa, hwire, hl', hmpss, List.filterMap_append]
  rw [Simulates, hview]
  cases hhears : hears p (d.pa.manager.own p) msg with
  | none =>
    left
    simp only [view, hl, List.filterMap_append, List.filterMap_cons_none hhears]
  | some sg =>
    right
    refine .lose (?_ : _ = _ ++ sg :: _) ?_
    · simp only [view, hl, List.filterMap_append, List.filterMap_cons_some hhears]
    · rintro rfl
      cases msg with
      | ind data =>
        have htells : ManagerEvent.tells p (.stateInd (some data)) = some .noNetInd := hhears
        obtain ⟨cs, hcs, hp, hstatus⟩ := tells_noNet htells
        obtain rfl := Option.some.inj hcs
        simpa [keepsAgreement, hmsg, hp, hstatus] using hok
      | rsp corrId rsp =>
        obtain ⟨r, -, hr⟩ := Option.map_eq_some_iff.mp hhears
        cases hk : r.kind <;> simp [hk, rspEvent, SessionEvent.signal] at hr

/-- The session waits for the response to a request of its own, or does not hear it. -/
theorem Sound.hears_response (hd : d.Sound) {q : Request}
    (hq : .messageReceived q ∈ d.mpss.fifo) (rsp : Rsp) :
    (hears p (d.pa.manager.own p) (.rsp q.corrId rsp) = none ∧
        (d.pa.manager.own p).any (fun r => r.corrId = q.corrId) = false) ∨
      (q.profileId = p ∧ q.kind ∈ (d.view p).asked ∧
        hears p (d.pa.manager.own p) (.rsp q.corrId rsp) =
          some ((rspEvent q.kind (some rsp)).signal p)) := by
  simp only [hears]
  cases hfind : (d.pa.manager.own p).find? (fun r => r.corrId = q.corrId) with
  | none =>
    refine .inl ⟨rfl, ?_⟩
    rw [List.any_eq_false]
    exact List.find?_eq_none.mp hfind
  | some r =>
    right
    have hown := List.mem_of_find?_eq_some hfind
    obtain ⟨hmem, hsession⟩ := mem_own.mp hown
    have hc : r.corrId = q.corrId := by simpa using List.find?_some hfind
    obtain rfl := (hd.requests q (.inr hq)).2 r hmem hc
    obtain ⟨-, a, ha, hap⟩ := hd.pa.rpcs r hmem
    obtain ⟨b, hb, hbp, -⟩ := hd.pa.mapped p r.session hsession
    obtain rfl : a = b := Option.some.inj (ha.symm.trans hb)
    exact ⟨hap.symm.trans hbp, List.mem_map_of_mem hown, rfl⟩

section Handle

variable {e : MpssEvent} {rest : List MpssEvent}

theorem view_handle (hpa : d'.pa = d.pa)
    (htoPa : d'.toPa = d.toPa ++ ({ d.mpss with fifo := rest }.dispatch e).2) :
    d'.view p = { d.view p with
      status := d'.mpss.status p
      doomed := d'.mpss.doomed p
      wire := (d.view p).wire ++ ({ d.mpss with fifo := rest }.dispatch e).2.filterMap
        (hears p (d.pa.manager.own p)) } := by
  simp only [view, hpa, htoPa, List.filterMap_append]

theorem doomed_tail (hfifo : d.mpss.fifo = e :: rest) (he : e ≠ .timeout .disconnect p) :
    ({ d.mpss with fifo := rest } : DataConnectionAO).doomed p = d.mpss.doomed p := by
  refine (@DataConnectionAO.frame p d.mpss { d.mpss with fifo := rest } rfl ?_).2
  simp [hfifo, Ne.symm he]

theorem simulates_elsewhere (hd : d.Sound) (hkeyed : d.mpss.Keyed)
    (hfifo : d.mpss.fifo = e :: rest) (hp : e.profileId ≠ p) (hpa : d'.pa = d.pa)
    (hmpss : d'.mpss = ({ d.mpss with fifo := rest }.dispatch e).1)
    (htoPa : d'.toPa = d.toPa ++ ({ d.mpss with fifo := rest }.dispatch e).2) :
    Simulates p d d' := by
  obtain ⟨hstatus, hdoomed, hind⟩ :=
    @DataConnectionAO.elsewhere_dispatch p { d.mpss with fifo := rest } e hkeyed hp
  have hout : ({ d.mpss with fifo := rest }.dispatch e).2.filterMap
      (hears p (d.pa.manager.own p)) = [] := by
    rw [List.filterMap_eq_nil_iff]
    intro msg hmsg
    cases msg with
    | ind data => simp [hears, hind data hmsg]
    | rsp corrId rsp =>
      have hc := (DataConnectionAO.answers_dispatch e _).2 corrId rsp hmsg
      cases e with
      | messageReceived q =>
        obtain rfl := Option.some.inj hc
        rcases hd.hears_response (q := q) (by rw [hfifo]; exact List.mem_cons_self) rsp with h | h
        · exact h.1
        · exact absurd h.1 hp
      | _ => cases hc
  have hdoom := doomed_tail (p := p) hfifo (by rintro rfl; exact hp rfl)
  left
  rw [view_handle hpa htoPa, hout, List.append_nil, hmpss, hstatus, hdoomed, hdoom]
  rfl

/-- The modem answers a request and leaves its calls alone. -/
theorem simulates_respond (hd : d.Sound) {q : Request} (hq : .messageReceived q ∈ d.mpss.fifo)
    {rsp : Rsp} (hok : rspSignal q.kind true = (rspEvent q.kind (some rsp)).signal p →
      q.kind ≠ .stopDataCall ∧ d.mpss.status p = some .connected)
    (hview : d'.view p = { d.view p with
      wire := (d.view p).wire ++ [.rsp q.corrId rsp].filterMap (hears p (d.pa.manager.own p)) }) :
    Simulates p d d' := by
  rcases hd.hears_response (p := p) hq rsp with ⟨hnone, -⟩ | ⟨-, hk, hsome⟩
  · left
    rw [hview, List.filterMap_cons_none hnone]
    simp
  · right
    obtain ⟨ok, hsg⟩ : ∃ ok, (rspEvent q.kind (some rsp)).signal p = rspSignal q.kind ok := by
      cases q.kind <;> exact ⟨_, rfl⟩
    rw [hview, List.filterMap_cons_some hsome, List.filterMap_nil, hsg]
    refine .respond hk ?_
    rintro rfl
    exact hok hsg.symm

theorem simulates_start (hd : d.Sound) (hv : (d.view p).Agreed)
    (hok : d.keepsAgreement p .handle) {q : Request}
    (hfifo : d.mpss.fifo = .messageReceived q :: rest) (hkind : q.kind = .startDataCall)
    (hp : q.profileId = p) (hpa : d'.pa = d.pa)
    (hmpss : d'.mpss = ({ d.mpss with fifo := rest }.dispatch (.messageReceived q)).1)
    (htoPa : d'.toPa = d.toPa ++ ({ d.mpss with fifo := rest }.dispatch (.messageReceived q)).2) :
    Simulates p d d' := by
  subst hp
  have hview := view_handle (p := q.profileId) hpa htoPa
  have hdoom := doomed_tail (p := q.profileId) hfifo (by simp)
  have hq : .messageReceived q ∈ d.mpss.fifo := by rw [hfifo]; exact List.mem_cons_self
  simp only [DataConnectionAO.dispatch, hkind] at hmpss hview
  rcases @DataConnectionAO.handleStart_cases { d.mpss with fifo := rest } q hv.live with
    ⟨code, h⟩ | ⟨hup, data, h⟩ | ⟨hopens, hstatus, hdoomed, data, cs, hcs, hcs', hout⟩
  · rw [h] at hmpss hview
    rw [hmpss, hdoom] at hview
    exact simulates_respond hd hq (by rw [hkind]; exact fun h => by cases h) hview
  · rw [h] at hmpss hview
    rw [hmpss, hdoom] at hview
    exact simulates_respond hd hq (fun _ => ⟨by rw [hkind]; decide, hup⟩) hview
  · rw [hmpss, hstatus, hdoomed, hdoom, hout] at hview
    have hok' : (d.pa.manager.own q.profileId).any (fun r => r.corrId = q.corrId) ∧
        .noNetInd ∉ (d.view q.profileId).coming ∧ .connectedInd ∉ (d.view q.profileId).coming := by
      have hopens' : d.mpss.opens q := hopens
      simpa [keepsAgreement, hfifo, hkind, hopens', and_assoc] using hok
    obtain ⟨hheard, hnoNet, hconn⟩ := hok'
    rcases hd.hears_response (p := q.profileId) hq (.ok data) with ⟨-, hnone⟩ | ⟨-, hk, hsome⟩
    · rw [hnone] at hheard
      cases hheard
    · have hind : hears q.profileId (d.pa.manager.own q.profileId) (.ind cs) = some .otherInd := by
        simp [hears, hcs, hcs', statusSignal]
      rw [List.filterMap_cons_some hsome, List.filterMap_cons_some hind, List.filterMap_nil,
        hkind] at hview
      rw [hkind] at hk
      right
      rw [hview]
      refine .openCall ?_ hk hnoNet hconn
      simp only [DataConnectionAO.opens, Bool.and_eq_true, Option.isNone_iff_eq_none] at hopens
      exact hopens.1.1

theorem simulates_stop (hd : d.Sound) (hkeyed : d.mpss.Keyed) {q : Request}
    (hfifo : d.mpss.fifo = .messageReceived q :: rest) (hkind : q.kind = .stopDataCall)
    (hp : q.profileId = p) (hpa : d'.pa = d.pa)
    (hmpss : d'.mpss = ({ d.mpss with fifo := rest }.dispatch (.messageReceived q)).1)
    (htoPa : d'.toPa = d.toPa ++ ({ d.mpss with fifo := rest }.dispatch (.messageReceived q)).2) :
    Simulates p d d' := by
  subst hp
  have hview := view_handle (p := q.profileId) hpa htoPa
  have hdoom := doomed_tail (p := q.profileId) hfifo (by simp)
  have hq : .messageReceived q ∈ d.mpss.fifo := by rw [hfifo]; exact List.mem_cons_self
  simp only [DataConnectionAO.dispatch, hkind] at hmpss hview
  rcases @DataConnectionAO.handleStop_cases { d.mpss with fifo := rest } q hkeyed with
    ⟨code, h⟩ | ⟨s, data, cs, hs, hstatus, hdoomed, hcs, hcs', hout⟩
  · rw [h] at hmpss hview
    rw [hmpss, hdoom] at hview
    exact simulates_respond hd hq (by rw [hkind]; exact fun h => by cases h) hview
  · have hind : hears q.profileId (d.pa.manager.own q.profileId) (.ind cs) =
        some (statusSignal (CallSession.chart s .disconnect)) := by
      simp [hears, hcs, hcs']
    right
    rw [hview, hmpss, hstatus, hdoomed, hout]
    rcases hd.hears_response (p := q.profileId) hq (.ok data) with ⟨hnone, -⟩ | ⟨-, hk, hsome⟩
    · rw [List.filterMap_cons_none hnone, List.filterMap_cons_some hind, List.filterMap_nil]
      have hstep := CallView.Step.stop (v := d.view q.profileId) hs (.inl rfl)
      rwa [List.append_nil] at hstep
    · rw [List.filterMap_cons_some hsome, List.filterMap_cons_some hind, List.filterMap_nil, hkind]
      rw [hkind] at hk
      have hstep := CallView.Step.stop (v := d.view q.profileId) hs (.inr ⟨rfl, hk⟩)
      rwa [List.append_assoc] at hstep

theorem simulates_list (hd : d.Sound) (hkeyed : d.mpss.Keyed) {q : Request}
    (hfifo : d.mpss.fifo = .messageReceived q :: rest) (hkind : q.kind = .listDataCall)
    (hpa : d'.pa = d.pa)
    (hmpss : d'.mpss = ({ d.mpss with fifo := rest }.dispatch (.messageReceived q)).1)
    (htoPa : d'.toPa = d.toPa ++ ({ d.mpss with fifo := rest }.dispatch (.messageReceived q)).2) :
    Simulates p d d' := by
  have hview := view_handle (p := p) hpa htoPa
  have hdoom := doomed_tail (p := p) hfifo (by simp)
  have hq : .messageReceived q ∈ d.mpss.fifo := by rw [hfifo]; exact List.mem_cons_self
  simp only [DataConnectionAO.dispatch, hkind] at hmpss hview
  rw [hmpss] at hview
  simp only [DataConnectionAO.handleList, hdoom] at hview
  refine simulates_respond hd hq ?_ hview
  intro hup
  rw [hkind] at hup ⊢
  refine ⟨by decide, ?_⟩
  have hstill : stillUp p ⟨"", DataConnectionAO.calls { d.mpss with fifo := rest }⟩ = true :=
    (SessionSignal.listRsp.inj hup).symm
  rw [@DataConnectionAO.stillUp_calls { d.mpss with fifo := rest } p "" hkeyed] at hstill
  exact of_decide_eq_true hstill

theorem simulates_timeout (hkeyed : d.mpss.Keyed) (hok : d.keepsAgreement p .handle) {t : CallTimer}
    (hfifo : d.mpss.fifo = .timeout t p :: rest) (hpa : d'.pa = d.pa)
    (hmpss : d'.mpss = ({ d.mpss with fifo := rest }.dispatch (.timeout t p)).1)
    (htoPa : d'.toPa = d.toPa ++ ({ d.mpss with fifo := rest }.dispatch (.timeout t p)).2) :
    Simulates p d d' := by
  have hview := view_handle (p := p) hpa htoPa
  cases t with
  | connect =>
    have hdoom := doomed_tail (p := p) hfifo (by simp)
    dsimp only [DataConnectionAO.dispatch] at hmpss hview
    rcases @DataConnectionAO.onConnectTimer_cases { d.mpss with fifo := rest } p hkeyed with
      ⟨-, h⟩ | ⟨hs, hstatus, hdoomed, cs, hcs, hcs', hout⟩
    · left
      rw [hview, hmpss, h, hdoom]
      simp only [List.filterMap_nil, List.append_nil]
      rfl
    · have hs : d.mpss.status p = some .connecting := hs
      have hfree : d.mpss.doomed p = false := by simpa [keepsAgreement, hfifo, hs] using hok
      have hfree' : rest.contains (.timeout .disconnect p) = false := by
        rw [← hdoom, DataConnectionAO.doomed, Bool.or_eq_false_iff] at hfree
        exact hfree.2
      have hind : hears p (d.pa.manager.own p) (.ind cs) = some .connectedInd := by
        simp [hears, hcs, hcs', statusSignal]
      right
      rw [hview, hmpss, hstatus, hdoomed, hout, List.filterMap_cons_some hind, List.filterMap_nil,
        hfree', ← hfree]
      exact .connect hs hfree
  | disconnect =>
    dsimp only [DataConnectionAO.dispatch] at hmpss hview
    rcases @DataConnectionAO.onDisconnectTimer_cases { d.mpss with fifo := rest } p hkeyed with
      ⟨hs, h⟩ | ⟨s, cs, hs, hstatus, hcs, hcs', hout⟩
    · right
      rw [hview, hmpss, h]
      simp only [List.filterMap_nil, List.append_nil]
      exact .tick hs
    · have hind : hears p (d.pa.manager.own p) (.ind cs) =
          some (statusSignal (CallSession.chart s .terminate)) := by
        simp [hears, hcs, hcs']
      right
      rw [hview, hmpss, hstatus, hout, List.filterMap_cons_some hind, List.filterMap_nil]
      refine .disconnect hs ?_
      simp [view, DataConnectionAO.doomed, hfifo]

theorem simulates_drop (hkeyed : d.mpss.Keyed) (hv : (d.view p).Agreed)
    (hfifo : d.mpss.fifo = .forceCallDrop p :: rest) (hpa : d'.pa = d.pa)
    (hmpss : d'.mpss = ({ d.mpss with fifo := rest }.dispatch (.forceCallDrop p)).1)
    (htoPa : d'.toPa = d.toPa ++ ({ d.mpss with fifo := rest }.dispatch (.forceCallDrop p)).2) :
    Simulates p d d' := by
  have hview := view_handle (p := p) hpa htoPa
  have hdoom := doomed_tail (p := p) hfifo (by simp)
  dsimp only [DataConnectionAO.dispatch] at hmpss hview
  rcases @DataConnectionAO.applyForceCallDrop_cases { d.mpss with fifo := rest } p hkeyed hv.live with
    ⟨-, h⟩ | ⟨s, cs, hs, hstatus, hcs, hcs', hout⟩
  · left
    rw [hview, hmpss, h, hdoom]
    simp only [List.filterMap_nil, List.append_nil]
    rfl
  · have hind : hears p (d.pa.manager.own p) (.ind cs) =
        some (statusSignal (CallSession.chart s .forceDrop)) := by
      simp [hears, hcs, hcs']
    right
    rw [hview, hmpss, hstatus, hout, List.filterMap_cons_some hind, List.filterMap_nil]
    exact .drop hs

theorem simulates_handle (hd : d.Sound) (hkeyed : d.mpss.Keyed) (hv : (d.view p).Agreed)
    (hok : d.keepsAgreement p .handle) (hfifo : d.mpss.fifo = e :: rest) (hpa : d'.pa = d.pa)
    (hmpss : d'.mpss = ({ d.mpss with fifo := rest }.dispatch e).1)
    (htoPa : d'.toPa = d.toPa ++ ({ d.mpss with fifo := rest }.dispatch e).2) :
    Simulates p d d' := by
  by_cases hp : e.profileId = p
  · cases e with
    | messageReceived q =>
      cases hkind : q.kind with
      | startDataCall => exact simulates_start hd hv hok hfifo hkind hp hpa hmpss htoPa
      | stopDataCall => exact simulates_stop hd hkeyed hfifo hkind hp hpa hmpss htoPa
      | listDataCall => exact simulates_list hd hkeyed hfifo hkind hpa hmpss htoPa
    | timeout t q =>
      obtain rfl : q = p := hp
      exact simulates_timeout hkeyed hok hfifo hpa hmpss htoPa
    | forceCallDrop q =>
      obtain rfl : q = p := hp
      exact simulates_drop hkeyed hv hfifo hpa hmpss htoPa
  · exact simulates_elsewhere hd hkeyed hfifo hp hpa hmpss htoPa

end Handle

/-- Every step is one of the view, or the view does not see it. -/
theorem step_simulates (hd : d.Sound) (hkeyed : d.mpss.Keyed) (hv : (d.view p).Agreed) {l : Label}
    (hok : d.keepsAgreement p l) (hstep : d.step l = some d') : Simulates p d d' := by
  -- a step of the network or of the modem's fifo
  have hmodem : ∀ {m : DataConnectionAO}, m.status p = d.mpss.status p →
      m.doomed p = d.mpss.doomed p → d'.pa = d.pa → d'.toPa = d.toPa → d'.mpss = m →
      Simulates p d d' := by
    intro m hstatus hdoomed hpa hwire hm
    left
    simp only [view, hpa, hwire, hm, hstatus, hdoomed]
  have hfifo : ∀ e, e ≠ .timeout .disconnect p → (d.mpss.postFifo e).status p = d.mpss.status p ∧
      (d.mpss.postFifo e).doomed p = d.mpss.doomed p := by
    intro e he
    refine @DataConnectionAO.frame p d.mpss (d.mpss.postFifo e) rfl ?_
    simp [DataConnectionAO.postFifo, Ne.symm he]
  cases l with
  | pa l =>
    obtain ⟨hl, pa, hpa, rfl⟩ := step_pa hstep
    exact simulates_pa hd hv hok hl hpa rfl rfl
  | link up =>
    obtain rfl := Option.some.inj hstep
    exact .inl rfl
  | arrive =>
    obtain ⟨q, rest, -, rfl⟩ := step_arrive hstep
    obtain ⟨hstatus, hdoomed⟩ := hfifo (.messageReceived q) (by simp)
    exact hmodem hstatus hdoomed rfl rfl rfl
  | loseRequest i =>
    obtain rfl := step_loseRequest hstep
    exact .inl rfl
  | forceCallDrop q =>
    obtain rfl := Option.some.inj hstep
    obtain ⟨hstatus, hdoomed⟩ := hfifo (.forceCallDrop q) (by simp)
    exact hmodem hstatus hdoomed rfl rfl rfl
  | elapse q =>
    obtain ⟨m, hm, rfl⟩ := step_elapse hstep
    obtain ⟨hstatus, hdoomed, -⟩ := DataConnectionAO.elapse_frame hm p
    exact hmodem hstatus hdoomed rfl rfl rfl
  | handle =>
    obtain ⟨e, rest, hhead, rfl⟩ := step_handle hstep
    exact simulates_handle hd hkeyed hv hok hhead rfl rfl rfl
  | deliver =>
    obtain ⟨msg, rest, pa, hmsg, hpa, rfl⟩ := step_deliver hstep
    exact simulates_deliver hd hv hmsg hpa rfl rfl
  | lose i =>
    obtain ⟨msg, hmsg, rfl⟩ := step_lose hstep
    exact simulates_lose hok hmsg rfl rfl rfl

theorem step_agreed (hd : d.Sound) (hkeyed : d.mpss.Keyed) (hv : (d.view p).Agreed) {l : Label}
    (hok : d.keepsAgreement p l) (hstep : d.step l = some d') : (d'.view p).Agreed := by
  rcases step_simulates hd hkeyed hv hok hstep with h | h
  · rw [h]
    exact hv
  · exact h.agreed hv

end View

section Runs

variable {d : DataNet} {p : ℤ}

theorem started_agreed {timing : CallTimingPreset} {stem : String} {poolSize : ℕ}
    {addrInfo : String → Option String} :
    ((started (.start timing stem poolSize addrInfo)).view p).Agreed := by
  have hview : (started (.start timing stem poolSize addrInfo)).view p =
      ⟨none, [], [], [], [], [], none, false⟩ := rfl
  rw [hview]
  exact ⟨rfl, by simp, by simp, by simp, by simp, by simp, by simp [CallView.held],
    by simp, by simp, by simp [CallView.coming], by simp [CallView.believes, CallView.coming],
    List.Pairwise.nil⟩

theorem Quiet.coming (hquiet : d.Quiet) : (d.view p).coming = [] := by
  have hqueue : (d.view p).queue = [] := by
    cases hcur : d.pa.manager.current p with
    | none => simp [view, hcur]
    | some a =>
      obtain ⟨sid, -, ha⟩ := Option.bind_eq_some_iff.mp hcur
      rw [(view_of_current hcur).2.1, (hquiet.pa.sessions a (List.mem_of_getElem? ha)).1]
      rfl
  rw [CallView.coming, hqueue]
  simp [view, hquiet.pa.queue, hquiet.toPa]

theorem Quiet.doomed (hquiet : d.Quiet) : d.mpss.doomed p = false := by
  rw [DataConnectionAO.doomed, hquiet.fifo]
  cases hc : d.mpss.sessions.lookup p with
  | none => rfl
  | some c =>
    have htimer : c.timer = none := hquiet.callTimers _ (AList.mem_lookup_iff.mp hc)
    simp [htimer]

theorem Quiet.mpss_of_pa (hquiet : d.Quiet) (hv : (d.view p).Agreed) (h : d.paConnected p) :
    d.mpssConnected p := by
  have hst : (d.view p).st = some .connected := by
    cases hcur : d.pa.manager.current p with
    | none => simp [paConnected, hcur] at h
    | some a =>
      rw [(view_of_current hcur).1]
      simpa [paConnected, hcur] using h
  rcases hv.believed (CallView.believes_iff.mpr (.inl hst)) with h' | h' | h'
  · exact decide_eq_true h'
  · have hdoomed := hv.disconnecting h'
    change d.mpss.doomed p = true at hdoomed
    rw [hquiet.doomed] at hdoomed
    cases hdoomed
  · rw [hquiet.coming] at h'
    cases h'

theorem Quiet.pa_of_mpss (hquiet : d.Quiet) (hd : d.Sound) (hv : (d.view p).Agreed)
    (h : d.mpssConnected p) : d.paConnected p := by
  have hstatus : d.mpss.status p = some .connected := by simpa [mpssConnected] using h
  have hheld : (d.view p).held := by
    refine CallView.held_iff.mpr ⟨?_, hquiet.doomed⟩
    change d.mpss.status p ≠ none
    simp [hstatus]
  have hholds := hv.holds hheld
  cases hfind : d.pa.manager.find p with
  | none => simp [view, current, hfind] at hholds
  | some sid =>
    obtain ⟨a, ha, -, hrun⟩ := hd.pa.mapped p sid hfind
    have hcur := current_of_find hfind ha
    obtain ⟨hst, hq, hunsent⟩ := view_of_current hcur
    obtain ⟨hqueue, heff⟩ := hquiet.pa.sessions a (List.mem_of_getElem? ha)
    obtain ⟨harmed, hfiring⟩ := hquiet.timers a (List.mem_of_getElem? ha)
    have hfit := hd.pa.fit sid a ha
    obtain ⟨st, hast, -⟩ := hfit.leaf
    -- nothing is awaited
    have hawait := hv.awaits
    have hasked : (d.view p).asked = [] := by simp [view, own, hquiet.pa.rpcs]
    rw [hunsent, hasked, hq, hqueue, heff, hst, hast] at hawait
    have hwait : awaited st = none := by
      cases hw : awaited st with
      | none => rfl
      | some k => simp [hw] at hawait
    have hup : st ≠ .waitingForUp := by
      rintro rfl
      obtain ⟨-, h | h | h | h⟩ := hfit.bringup hrun hast
      · rw [heff] at h
        cases h
      · rw [harmed] at h
        cases h
      · rw [hfiring] at h
        cases h
      · rw [hqueue] at h
        cases h
    rw [hst, hast] at hholds
    have hconn := connected_of_mayHold st hholds hwait hup
    simp [paConnected, hcur, hast, hconn]

/-- While no step loses the agreement on the call of `p`, the PA has a session for `p` in Connected
if and only if the modem has its call CONNECTED, whenever nothing is on its way, queued or armed. -/
theorem agree_of_quiet {timing : CallTimingPreset} {stem : String} {poolSize : ℕ}
    {addrInfo : String → Option String} {l : List Label}
    (hok : Trace.AllSteps step (fun d l => d.keepsAgreement p l)
      (started (.start timing stem poolSize addrInfo)) l)
    (hrun : Trace.run step (started (.start timing stem poolSize addrInfo)) l = some d)
    (hquiet : d.Quiet) : d.paConnected p ↔ d.mpssConnected p := by
  obtain ⟨hd, -, hv⟩ := Trace.run_invariant_of
    (I := fun d => d.Sound ∧ d.mpss.Pooled ∧ (d.view p).Agreed)
    (fun _ _ _ h hok hstep => ⟨step_sound h.1 hstep, step_pooled h.2.1 hstep,
      step_agreed h.1 h.2.1.keyed h.2.2 hok hstep⟩) hok hrun
    ⟨started_sound, DataConnectionAO.pooled_start timing stem poolSize addrInfo, started_agreed⟩
  exact ⟨hquiet.mpss_of_pa hv, hquiet.pa_of_mpss hd hv⟩

end Runs

/-- A modem with a delay before it connects and one interface. -/
def modem : DataConnectionAO := .start ⟨100, 100⟩ "rmnet_data" 1 (fun _ => none)

/-- A start is answered and the call is on its way up. -/
def startRun : List Label :=
  [.pa (.post (.readiness .available)), .pa .manage, .pa (.call (.startDataCall 1 "" 10)),
    .pa (.submit 0), .pa .manage, .pa (.take 0), .pa (.effect 0), .arrive, .handle, .deliver,
    .pa .release, .pa (.take 0), .pa (.effect 0), .pa (.effect 0), .deliver, .pa .manage,
    .pa (.take 0)]

/-- The call comes up. -/
def connectedRun : List Label :=
  startRun ++ [.elapse 1, .handle, .deliver, .pa .manage, .pa (.take 0), .pa (.effect 0),
    .pa (.effect 0)]

theorem agree_of_quiet_connectedRun :
    ∃ d, Trace.run step (started modem) connectedRun = some d ∧ d.Quiet ∧ d.mpssConnected 1 ∧
      (d.paConnected 1 ↔ d.mpssConnected 1) := by
  have hrun : (Trace.run step (started modem) connectedRun).map
      (fun d => (decide d.Quiet, d.mpssConnected 1)) = some (true, true) := by
    decide +kernel
  obtain ⟨d, hd, heq⟩ := Option.map_eq_some_iff.mp hrun
  obtain ⟨hquiet, hup⟩ := Prod.mk.inj heq
  have hquiet := of_decide_eq_true hquiet
  exact ⟨d, hd, hquiet, hup, agree_of_quiet (by decide +kernel) hd hquiet⟩

/-- The link is down when the call comes up, so that CONNECTED is lost; the bring-up timer fires. -/
def flapRun : List Label :=
  startRun ++ [.link false, .pa (.post (.connectivity false)), .pa .manage, .elapse 1, .handle,
    .lose 0, .link true, .pa (.post (.readiness .available)), .pa .manage,
    .pa (.pick 0 .bringup), .pa (.fire 0 .bringup), .pa (.take 0), .pa (.effect 0),
    .pa (.effect 0), .pa (.effect 0), .pa .manage, .pa .managerJoined]

/-- The modem keeps a call the PA has given up. -/
theorem flap_disagrees :
    ∃ d, Trace.run step (started modem) flapRun = some d ∧ d.Quiet ∧ d.mpssConnected 1 ∧
      ¬ d.paConnected 1 := by
  have hrun : (Trace.run step (started modem) flapRun).map
      (fun d => (decide d.Quiet, d.mpssConnected 1, d.paConnected 1)) =
        some (true, true, false) := by
    decide +kernel
  obtain ⟨d, hd, heq⟩ := Option.map_eq_some_iff.mp hrun
  obtain ⟨hquiet, heq⟩ := Prod.mk.inj heq
  obtain ⟨hup, hpa⟩ := Prod.mk.inj heq
  exact ⟨d, hd, of_decide_eq_true hquiet, hup, by simp [hpa]⟩

end DataNet

end TelafSim.Data
