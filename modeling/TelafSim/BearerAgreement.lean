import TelafSim.BearerTech

/-!
# The bearer of a call is that of the network

When nothing is left to do, every call that is up has the bearer of the RAT that the serving system
has now, and has said so last. On the way a call may have read the RAT before or after a change
whose event is still queued; but the last change to be told is the RAT itself, and as long as one is
on its way nothing needs to be right.
-/

namespace TelafSim.Mpss

open Data DataConnectionAO StartUp

namespace BearerConnections

variable {c : BearerConnections} {r : DataConnectionAO × List Message} {p : ℤ}
  {bearerTech : ℤ → Option String}

@[simp] theorem publishCallState_ao (msg : Message) (c : BearerConnections) :
    (c.publishCallState msg).ao = c.ao := by
  cases msg <;> rfl

theorem foldl_publishCallState (out : List Message) (c : BearerConnections) : ∃ announced,
    out.foldl publishCallState c = { c with announced := announced } ∧
      ∀ p, (∃ a, announced p = some a ∧ a.bearerTech = c.bearerTech p) ∨
        announced p = c.announced p ∧ ∀ data, .ind data ∈ out → data.profileId ≠ p := by
  induction out generalizing c with
  | nil => exact ⟨c.announced, rfl, fun p => .inr ⟨rfl, by simp⟩⟩
  | cons msg out ih =>
    rw [List.foldl_cons]
    cases msg with
    | rsp corrId rsp =>
      obtain ⟨announced, heq, h⟩ := ih c
      refine ⟨announced, heq, ?_⟩
      intro p
      refine (h p).imp_right ?_
      rintro ⟨hsame, hnot⟩
      exact ⟨hsame, by simpa using hnot⟩
    | ind data =>
      obtain ⟨announced, heq, h⟩ := ih (c.publishCallState (.ind data))
      refine ⟨announced, heq, ?_⟩
      intro p
      obtain h | ⟨hsame, hnot⟩ := h p
      · exact .inl h
      · by_cases hp : data.profileId = p
        · subst hp
          refine .inl ⟨⟨data, c.bearerTech data.profileId⟩, hsame.trans ?_, rfl⟩
          simp [publishCallState]
        · refine .inr ⟨hsame.trans ?_, ?_⟩
          · simp [publishCallState, Function.update_of_ne (Ne.symm hp)]
          · intro data' hmem
            rcases List.mem_cons.mp hmem with h | h
            · cases h
              exact hp
            · exact hnot data' h

theorem settle_spec (r : DataConnectionAO × List Message) (bearerTech : ℤ → Option String)
    (c : BearerConnections) : ∃ announced,
      c.settle r bearerTech = { c with
        ao := { r.1 with fifo := [] }
        bearerTech := bearerTech
        fifo := c.fifo ++ r.1.fifo.map .call
        announced := announced } ∧
      ∀ p, (∃ a, announced p = some a ∧ a.bearerTech = bearerTech p) ∨
        announced p = c.announced p ∧ ∀ data, .ind data ∈ r.2 → data.profileId ≠ p := by
  obtain ⟨announced, heq, h⟩ := foldl_publishCallState r.2 { c with
    ao := { r.1 with fifo := [] }
    bearerTech := bearerTech
    fifo := c.fifo ++ r.1.fifo.map .call }
  exact ⟨announced, heq, h⟩

end BearerConnections

section Dispatch

variable {m : DataConnectionAO} {p q : ℤ} {c : CallSession} {rat : String}
  {bearerTech : ℤ → Option String}

theorem chart_disconnect_ne (s : CallStatus) : CallSession.chart s .disconnect ≠ .connected := by
  cases s <;> decide

/-- The event brings the call up, with the bearer of `rat`. -/
def Connects (rat : String) (m : DataConnectionAO) (bearerTech : ℤ → Option String)
    (e : MpssEvent) (out : List Message) (p : ℤ) : Prop :=
  BearerConnections.bearerAfter rat m bearerTech e p = some (ratToBearerTech rat) ∧
    e = .timeout .connect p ∧ ∃ data, .ind data ∈ out ∧ data.profileId = p

/-- The call was up before the event, which does not change its bearer. -/
def Remains (rat : String) (m : DataConnectionAO) (bearerTech : ℤ → Option String)
    (e : MpssEvent) (p : ℤ) : Prop :=
  m.status p = some .connected ∧
    BearerConnections.bearerAfter rat m bearerTech e p = bearerTech p

/-- A call that is up after an event has come up with it, or was up before. -/
theorem connected_reaction (rat : String) (bearerTech : ℤ → Option String) {e : MpssEvent}
    {r : DataConnectionAO × List Message} (hm : m.Keyed) (h : m.Reaction e r)
    (hup : r.1.status p = some .connected) :
    Connects rat m bearerTech e r.2 p ∨ Remains rat m bearerTech e p := by
  cases h with
  | @refused q code hstart hstop =>
    refine .inr ⟨hup, ?_⟩
    rw [BearerConnections.bearerAfter, if_neg]
    rintro ⟨hkind, hopens⟩
    rw [hstart hkind] at hopens
    cases hopens
  | @answered q data hkind hstart =>
    refine .inr ⟨hup, ?_⟩
    rw [BearerConnections.bearerAfter, if_neg]
    rintro ⟨hkind', hopens⟩
    rw [hstart hkind'] at hopens
    cases hopens
  | @opened q assigned pool hkind hopens halloc =>
    by_cases hp : p = q.profileId
    · subst hp
      rw [scheduleCallConnect, status_schedule] at hup
      cases hup
    · rw [scheduleCallConnect, (frame_schedule hp).1] at hup
      refine .inr ⟨hup, ?_⟩
      rw [BearerConnections.bearerAfter, if_pos ⟨hkind, hopens⟩, Function.update_of_ne hp]
  | @stopped q c hkind hc =>
    by_cases hp : p = q.profileId
    · subst hp
      rw [scheduleCallDisconnect, status_schedule] at hup
      exact absurd (Option.some.inj hup) (chart_disconnect_ne _)
    · rw [scheduleCallDisconnect, (frame_schedule hp).1] at hup
      refine .inr ⟨hup, ?_⟩
      rw [BearerConnections.bearerAfter, if_neg]
      rintro ⟨hkind', -⟩
      rw [hkind] at hkind'
      cases hkind'
  | @stale t q hc hgone =>
    refine .inr ⟨hup, ?_⟩
    cases t with
    | connect => rw [BearerConnections.bearerAfter, if_neg hc]
    | disconnect => rw [BearerConnections.bearerAfter, if_pos (hgone rfl)]
  | @connected q c hc hconnecting =>
    have hst : m.status q = some .connecting := by
      rw [status, hc, Option.map_some, hconnecting]
    by_cases hp : p = q
    · subst hp
      refine .inl ⟨?_, rfl, _, List.mem_singleton_self _, hm p c hc⟩
      rw [BearerConnections.bearerAfter, if_pos hst, Function.update_self]
    · have hold := (congrFun (status_setSession q _ m) p).symm.trans hup
      rw [Function.update_of_ne hp] at hold
      refine .inr ⟨hold, ?_⟩
      rw [BearerConnections.bearerAfter, if_pos hst, Function.update_of_ne hp]
  | @terminated q c hc =>
    have hold := (congrFun (status_dropped q _ m) p).symm.trans hup
    by_cases hp : p = q
    · subst hp
      rw [Function.update_self] at hold
      cases hold
    · rw [Function.update_of_ne hp] at hold
      refine .inr ⟨hold, ?_⟩
      rw [BearerConnections.bearerAfter]
      split
      · rfl
      · exact Function.update_of_ne hp _ _
  | @missing q hgone =>
    refine .inr ⟨hup, ?_⟩
    rw [BearerConnections.bearerAfter, if_pos hgone]
  | @dropped q c hc =>
    have hold := (congrFun (status_dropped q _ m) p).symm.trans hup
    by_cases hp : p = q
    · subst hp
      rw [Function.update_self] at hold
      cases hold
    · rw [Function.update_of_ne hp] at hold
      refine .inr ⟨hold, ?_⟩
      rw [BearerConnections.bearerAfter]
      split
      · rfl
      · exact Function.update_of_ne hp _ _

theorem status_applyForceDns (p q : ℤ) (patch : Option (String → String))
    (m : DataConnectionAO) : (m.applyForceDns q patch).1.status p = m.status p := by
  unfold applyForceDns
  split
  · rfl
  · rename_i c hc
    split
    · rfl
    · split
      · rfl
      · rename_i f
        refine (congrFun (status_setSession q { c with addr := c.addr.map f }
          { m with addrInfo := fun ifname => (m.addrInfo ifname).map f }) p).trans ?_
        by_cases hp : p = q
        · subst hp
          rw [Function.update_self, status, hc]
          rfl
        · rw [Function.update_of_ne hp]
          rfl

/-- A change of the RAT is announced for every call that is up. -/
theorem mem_applyNetworkRatChanged (hm : m.Keyed) (hup : m.status p = some .connected) :
    ∃ data, .ind data ∈ m.applyNetworkRatChanged.2 ∧ data.profileId = p := by
  obtain ⟨c, hc, hst⟩ := status_eq_some.mp hup
  refine ⟨c.toDataCallState, ?_, hm p c hc⟩
  refine List.mem_map.mpr ⟨⟨p, c⟩, List.mem_filter.mpr ⟨AList.mem_lookup_iff.mp hc, ?_⟩, rfl⟩
  simpa using hst

end Dispatch

/-- The RATs that the connections have been told of and have not taken. -/
def rats (fifo : List ConnEvent) : List String :=
  fifo.filterMap (fun e => match e with
    | .networkRatChanged rat => some rat
    | _ => none)

theorem rats_append (l l' : List ConnEvent) : rats (l ++ l') = rats l ++ rats l' :=
  List.filterMap_append

@[simp] theorem rats_map_call (l : List MpssEvent) : rats (l.map .call) = [] := by
  unfold rats
  rw [List.filterMap_map]
  simp

namespace BearerConnections

/-- What holds of the connections by themselves. -/
structure Sound (c : BearerConnections) : Prop where
  idle : c.phase ≠ .ready → (∀ p, c.ao.status p = none) ∧ c.connecting = none
  pooled : c.phase ≠ .stopping → c.ao.Pooled
  /-- The last indication of a call that is up carries its bearer. -/
  tells : ∀ p, c.ao.status p = some .connected →
    ∃ a, c.announced p = some a ∧ a.bearerTech = c.bearerTech p

variable {c c' : BearerConnections} {r : DataConnectionAO × List Message} {p : ℤ} {rat : String}
  {bearerTech : ℤ → Option String} {e : MpssEvent}

theorem sound_initial (timing : CallTimingPreset) (stem : String) (poolSize : ℕ)
    (addrInfo : String → Option String) : (initial timing stem poolSize addrInfo).Sound := by
  refine ⟨fun _ => ⟨fun _ => rfl, rfl⟩, fun _ => pooled_start timing stem poolSize addrInfo, ?_⟩
  intro p hup
  cases hup

theorem Sound.settle (hc : c.Sound) (r : DataConnectionAO × List Message)
    (bearerTech : ℤ → Option String) (hready : c.phase = .ready) (hpooled : r.1.Pooled)
    (hup : ∀ p, r.1.status p = some .connected →
      (∃ data, .ind data ∈ r.2 ∧ data.profileId = p) ∨
        c.ao.status p = some .connected ∧ bearerTech p = c.bearerTech p) :
    (c.settle r bearerTech).Sound ∧ (c.settle r bearerTech).phase = c.phase ∧
      (c.settle r bearerTech).connecting = c.connecting ∧
      rats (c.settle r bearerTech).fifo = rats c.fifo ∧
      (c.settle r bearerTech).bearerTech = bearerTech ∧
      ∀ p, (c.settle r bearerTech).ao.status p = r.1.status p := by
  obtain ⟨announced, heq, hannounced⟩ := settle_spec r bearerTech c
  rw [heq]
  refine ⟨⟨fun h => absurd hready h, fun _ => hpooled.of_same rfl rfl, ?_⟩, rfl, rfl, ?_, rfl,
    fun _ => rfl⟩
  · intro p hst
    obtain h | ⟨hsame, hnot⟩ := hannounced p
    · exact h
    · obtain ⟨data, hmem, hp⟩ | ⟨hold, hbearer⟩ := hup p hst
      · exact absurd hp (hnot data hmem)
      · obtain ⟨a, ha, hbearer'⟩ := hc.tells p hold
        exact ⟨a, hsame.trans ha, hbearer'.trans hbearer.symm⟩
  · rw [rats_append, rats_map_call, List.append_nil]

end BearerConnections

section Follows

open BearerConnections

/-- The changes that the serving system has made and the connections have not taken. -/
def toTell (s : RatSystem) : List String :=
  rats s.connections.fifo ++ s.serving.telling.toList

/-- The last change to be told is the RAT; when none is, the RAT is where it belongs. -/
structure Follows (s : RatSystem) : Prop where
  sound : s.connections.Sound
  last : ∀ rat, (toTell s).getLast? = some rat → rat = s.serving.state.networkRat
  bearer : toTell s = [] → ∀ p, s.connections.ao.status p = some .connected →
    s.connections.bearerTech p = some (ratToBearerTech s.serving.state.networkRat)
  read : toTell s = [] → ∀ p rat, s.connections.connecting = some (p, rat) →
    rat = s.serving.state.networkRat

variable {s s' : RatSystem} {e : ConnEvent} {rest : List ConnEvent}

theorem follows_initial (timing : CallTimingPreset) (stem : String) (poolSize : ℕ)
    (addrInfo : String → Option String) :
    Follows (RatSystem.initial timing stem poolSize addrInfo) := by
  refine ⟨sound_initial timing stem poolSize addrInfo, ?_, ?_, ?_⟩
  · intro rat h
    cases h
  · intro _ p hup
    cases hup
  · intro _ p rat h
    cases h

theorem Follows.of_same (hs : Follows s) (hsound : s'.connections.Sound)
    (htell : toTell s' = toTell s)
    (hrat : s'.serving.state.networkRat = s.serving.state.networkRat)
    (hstatus : ∀ p, s'.connections.ao.status p = some .connected →
      s.connections.ao.status p = some .connected ∧
        s'.connections.bearerTech p = s.connections.bearerTech p)
    (hread : ∀ p rat, s'.connections.connecting = some (p, rat) →
      s.connections.connecting = some (p, rat)) : Follows s' := by
  refine ⟨hsound, ?_, ?_, ?_⟩
  · rw [htell, hrat]
    exact hs.last
  · rw [htell, hrat]
    intro hnone p hup
    obtain ⟨hold, hbearer⟩ := hstatus p hup
    rw [hbearer]
    exact hs.bearer hnone p hold
  · rw [htell, hrat]
    intro hnone p rat h
    exact hs.read hnone p rat (hread p rat h)

theorem Follows.postConnections (hs : Follows s) (he : rats [e] = []) :
    Follows (s.postConnections e) := by
  refine hs.of_same ⟨hs.sound.idle, hs.sound.pooled, hs.sound.tells⟩ ?_ rfl
    (fun _ h => ⟨h, rfl⟩) (fun _ _ h => h)
  unfold toTell RatSystem.postConnections BearerConnections.postFifo
  rw [rats_append, he, List.append_nil]

theorem handle_serving (e : ServEvent) (v : DataServingSystemAO) (htelling : v.telling = none) :
    (v.handle e).telling = none ∧ (v.handle e).state.networkRat = v.state.networkRat ∨
      (v.handle e).telling = some (v.handle e).state.networkRat := by
  unfold DataServingSystemAO.handle
  split
  · exact .inl ⟨htelling, rfl⟩
  · exact .inl ⟨htelling, rfl⟩
  · exact .inl ⟨htelling, rfl⟩
  · rename_i data _
    unfold DataServingSystemAO.applyForceServState DataServingSystemAO.publishServState
    dsimp only
    cases hrat : data.networkRat with
    | none => exact .inl ⟨rfl, rfl⟩
    | some rat =>
      by_cases heq : rat = v.state.networkRat
      · exact .inl ⟨by simp [heq], heq⟩
      · exact .inr (by simp [heq])
  · exact .inl ⟨htelling, rfl⟩
  · exact .inl ⟨htelling, rfl⟩

theorem Follows.stepServing (hs : Follows s) (h : s.stepServing = some s') : Follows s' := by
  unfold RatSystem.stepServing at h
  split at h
  · -- the change is told
    rename_i rat htelling
    obtain rfl := Option.some.inj h
    refine hs.of_same ⟨hs.sound.idle, hs.sound.pooled, hs.sound.tells⟩ ?_ rfl
      (fun _ h => ⟨h, rfl⟩) (fun _ _ h => h)
    unfold toTell RatSystem.postConnections BearerConnections.postFifo
    rw [rats_append, htelling]
    simp [rats]
  · rename_i htelling
    split at h
    · cases h
    · rename_i e rest _
      obtain rfl := Option.some.inj h
      obtain ⟨hnone, hrat⟩ | hsome :=
        handle_serving e { s.serving with fifo := rest } htelling
      · refine hs.of_same hs.sound ?_ hrat (fun _ h => ⟨h, rfl⟩) (fun _ _ h => h)
        unfold toTell
        dsimp only
        rw [hnone, htelling]
      · have htell : toTell { s with
            serving := { s.serving with fifo := rest }.handle e } =
              rats s.connections.fifo ++
                [({ s.serving with fifo := rest }.handle e).state.networkRat] := by
          unfold toTell
          rw [hsome]
          rfl
        refine ⟨hs.sound, ?_, ?_, ?_⟩
        · rw [htell]
          intro rat hlast
          rw [List.getLast?_concat] at hlast
          exact (Option.some.inj hlast).symm
        · rw [htell]
          intro hnil
          simp at hnil
        · rw [htell]
          intro hnil
          simp at hnil

/-- A handler of the sessions that leaves alone what the network was told, or brings a call up with
the RAT of the network. -/
theorem Follows.settle {c : BearerConnections} {r : DataConnectionAO × List Message}
    {bearerTech : ℤ → Option String} {told : List String} (hc : c.Sound)
    (hready : c.phase = .ready) (hidle : c.connecting = none) (hpooled : r.1.Pooled)
    (htold : rats c.fifo ++ s.serving.telling.toList = told)
    (hlast : ∀ rat, told.getLast? = some rat → rat = s.serving.state.networkRat)
    (hup : ∀ p, r.1.status p = some .connected →
      (∃ data, .ind data ∈ r.2 ∧ data.profileId = p) ∨
        c.ao.status p = some .connected ∧ bearerTech p = c.bearerTech p)
    (hbearer : told = [] → ∀ p, r.1.status p = some .connected →
      bearerTech p = some (ratToBearerTech s.serving.state.networkRat)) :
    Follows { s with connections := c.settle r bearerTech } := by
  obtain ⟨hsound, -, hconnecting, hrats, hset, hstatus⟩ := hc.settle r bearerTech hready hpooled hup
  have htell : toTell { s with connections := c.settle r bearerTech } = told := by
    unfold toTell
    dsimp only
    rw [hrats, htold]
  refine ⟨hsound, ?_, ?_, ?_⟩
  · rw [htell]
    exact hlast
  · rw [htell]
    intro hnone p hst
    dsimp only at hst ⊢
    rw [hstatus] at hst
    rw [hset]
    exact hbearer hnone p hst
  · rw [htell]
    intro _ p rat h
    dsimp only at h
    rw [hconnecting, hidle] at h
    cases h

theorem Follows.handleCall {c : BearerConnections} {rat : String} {told : List String}
    (hc : c.Sound) (hready : c.phase = .ready) (hidle : c.connecting = none)
    (htold : rats c.fifo ++ s.serving.telling.toList = told)
    (hlast : ∀ rat, told.getLast? = some rat → rat = s.serving.state.networkRat)
    (hbearer : told = [] → ∀ p, c.ao.status p = some .connected →
      c.bearerTech p = some (ratToBearerTech s.serving.state.networkRat)) (e : MpssEvent)
    (hrat : told = [] → ∀ p, e = .timeout .connect p → rat = s.serving.state.networkRat) :
    Follows { s with connections := c.handleCall rat e } := by
  have hpooled : c.ao.Pooled := hc.pooled (by rw [hready]; simp)
  have hcases := fun p (hup : (c.ao.dispatch e).1.status p = some .connected) =>
    connected_reaction rat c.bearerTech hpooled.keyed (reaction_dispatch hpooled.live e) hup
  refine Follows.settle hc hready hidle (hpooled.dispatch e) htold hlast ?_ ?_
  · intro p hup
    exact (hcases p hup).imp (fun h => h.2.2) (fun h => h)
  · intro hnone p hup
    obtain ⟨hnew, he, -⟩ | ⟨hold, hsame⟩ := hcases p hup
    · rw [hnew, hrat hnone p he]
    · rw [hsame]
      exact hbearer hnone p hold

theorem Sound.of_same {c c' : BearerConnections} (hc : c.Sound) (hphase : c'.phase = c.phase)
    (hao : c'.ao = c.ao) (hconnecting : c'.connecting = c.connecting)
    (hannounced : c'.announced = c.announced) (hbearer : c'.bearerTech = c.bearerTech) :
    c'.Sound := by
  refine ⟨?_, ?_, ?_⟩
  · rw [hphase, hao, hconnecting]
    exact hc.idle
  · rw [hphase, hao]
    exact hc.pooled
  · rw [hao, hannounced, hbearer]
    exact hc.tells

theorem Follows.of_idle {c : BearerConnections} (hnone : ∀ p, c.ao.status p = none)
    (hconnecting : c.connecting = none) (hpooled : c.phase ≠ .stopping → c.ao.Pooled)
    (hlast : ∀ rat, (rats c.fifo ++ s.serving.telling.toList).getLast? = some rat →
      rat = s.serving.state.networkRat) : Follows { s with connections := c } := by
  refine ⟨⟨fun _ => ⟨hnone, hconnecting⟩, hpooled, ?_⟩, hlast, ?_, ?_⟩
  · intro p hup
    dsimp only at hup
    rw [hnone] at hup
    cases hup
  · intro _ p hup
    dsimp only at hup
    rw [hnone] at hup
    cases hup
  · intro _ p rat h
    dsimp only at h
    rw [hconnecting] at h
    cases h

/-- Taking an event that is not a change leaves what is to be told. -/
theorem rats_cons (e : ConnEvent) (rest : List ConnEvent) :
    rats (e :: rest) = rats [e] ++ rats rest := rats_append [e] rest

theorem getLast?_of_cons {α : Type*} {l l' : List α} {a : α} (h : l'.getLast? = some a) :
    (l ++ l').getLast? = some a := by
  rw [List.getLast?_append, h]
  rfl

theorem Follows.handleReady (hs : Follows s) (hready : s.connections.phase = .ready)
    (hfifo : s.connections.fifo = e :: rest) (hidle : s.connections.connecting = none) :
    Follows { s with connections :=
      { s.connections with fifo := rest }.handleReady s.serving.state.networkRat e } := by
  have hsound : ({ s.connections with fifo := rest } : BearerConnections).Sound :=
    Sound.of_same hs.sound rfl rfl rfl rfl rfl
  have hlast : ∀ rat, (rats rest ++ s.serving.telling.toList).getLast? = some rat →
      rat = s.serving.state.networkRat := by
    intro rat h
    refine hs.last rat ?_
    unfold toTell
    rw [hfifo, rats_cons, List.append_assoc]
    exact getLast?_of_cons h
  have hpooled : s.connections.ao.Pooled := hs.sound.pooled (by rw [hready]; simp)
  -- an event that tells of no change
  have hsame : rats [e] = [] → rats rest ++ s.serving.telling.toList = toTell s := by
    intro he
    unfold toTell
    rw [hfifo, rats_cons, he, List.nil_append]
  have hbearer : rats [e] = [] → rats rest ++ s.serving.telling.toList = [] →
      ∀ p, s.connections.ao.status p = some .connected →
        s.connections.bearerTech p = some (ratToBearerTech s.serving.state.networkRat) := by
    intro he hnone
    rw [hsame he] at hnone
    exact hs.bearer hnone
  have hother : ∀ e' : MpssEvent, e = .call e' → (∀ p, e' ≠ .timeout .connect p) →
      Follows { s with
        connections := ({ s.connections with fifo := rest } : BearerConnections).handleCall
          s.serving.state.networkRat e' } := by
    rintro e' rfl hnot
    exact Follows.handleCall hsound hready hidle rfl hlast (hbearer rfl) e'
      (fun _ p he => absurd he (hnot p))
  have hskip : rats [e] = [] →
      Follows { s with connections := { s.connections with fifo := rest } } := by
    intro he
    refine hs.of_same hsound ?_ rfl (fun _ h => ⟨h, rfl⟩) (fun _ _ h => h)
    exact hsame he
  cases e with
  | call e' =>
    cases e' with
    | messageReceived q => exact hother _ rfl (by simp)
    | timeout t p =>
      cases t with
      | connect =>
        unfold BearerConnections.handleReady
        dsimp only
        split
        · -- the RAT is read
          refine ⟨⟨fun h => absurd hready h, hsound.pooled, hsound.tells⟩, hlast, hbearer rfl, ?_⟩
          intro _ p' rat h
          cases h
          rfl
        · exact hskip rfl
      | disconnect => exact hother _ rfl (by simp)
    | forceCallDrop p => exact hother _ rfl (by simp)
  | networkRatChanged rat =>
    refine Follows.settle hsound hready hidle hpooled rfl hlast ?_ ?_
    · intro p hup
      exact .inl (mem_applyNetworkRatChanged hpooled.keyed hup)
    · intro hnone p hup
      dsimp only
      have hst : s.connections.ao.status p = some .connected := hup
      rw [if_pos hst, hs.last rat ?_]
      unfold toTell
      rw [hfifo, rats_cons, List.append_assoc, hnone]
      rfl
  | forceDns p patch =>
    refine Follows.settle hsound hready hidle (hpooled.forceDns p patch) rfl hlast ?_ ?_
    · intro q hup
      rw [status_applyForceDns] at hup
      exact .inr ⟨hup, rfl⟩
    · intro hnone q hup
      rw [status_applyForceDns] at hup
      exact hbearer rfl hnone q hup
  | stop => exact Follows.of_idle (fun _ => rfl) hidle (fun h => absurd rfl h) hlast
  | start => exact hskip rfl
  | startingDone => exact hskip rfl

theorem Follows.handle_idle {c : BearerConnections} (hready : c.phase ≠ .ready)
    (hnone : ∀ p, c.ao.status p = none) (hidle : c.connecting = none)
    (hpooled : c.phase ≠ .stopping → c.ao.Pooled)
    (hlast : ∀ rat, (rats c.fifo ++ s.serving.telling.toList).getLast? = some rat →
      rat = s.serving.state.networkRat) (rat : String) (e : ConnEvent) :
    Follows { s with connections := c.handle rat e } := by
  have hskip : Follows { s with connections := c } :=
    Follows.of_idle hnone hidle hpooled hlast
  -- an event that is posted tells of no change
  have hpost : ∀ e : ConnEvent, rats [e] = [] →
      ∀ rat, (rats (c.fifo ++ [e]) ++ s.serving.telling.toList).getLast? = some rat →
        rat = s.serving.state.networkRat := by
    intro e he
    rw [rats_append, he, List.append_nil]
    exact hlast
  unfold BearerConnections.handle
  cases hphase : c.phase with
  | ready => exact absurd hphase hready
  | stopping => exact hskip
  | off =>
    have hpool := hpooled (by rw [hphase]; simp)
    cases e with
    | start => exact Follows.of_idle hnone hidle (fun _ => hpool) (hpost _ rfl)
    | _ => exact hskip
  | starting =>
    have hpool := hpooled (by rw [hphase]; simp)
    cases e with
    | startingDone =>
      unfold BearerConnections.handleStarting BearerConnections.recallOldest
      dsimp only
      split
      · exact Follows.of_idle hnone hidle (fun _ => hpool) hlast
      · exact Follows.of_idle hnone hidle (fun _ => hpool) (hpost _ rfl)
    | stop => exact Follows.of_idle (fun _ => rfl) hidle (fun h => absurd rfl h) hlast
    | call e =>
      cases e with
      | messageReceived q => exact Follows.of_idle hnone hidle (fun _ => hpool) hlast
      | _ => exact hskip
    | _ => exact hskip

theorem handle_ready {c : BearerConnections} (hready : c.phase = .ready) (rat : String)
    (e : ConnEvent) : c.handle rat e = c.handleReady rat e := by
  unfold BearerConnections.handle
  rw [hready]

theorem Follows.stepConnections (hs : Follows s) (h : s.stepConnections = some s') :
    Follows s' := by
  unfold RatSystem.stepConnections at h
  split at h
  · rename_i p rat hconnecting
    obtain rfl := Option.some.inj h
    have hready : s.connections.phase = .ready := by
      by_contra hnot
      rw [(hs.sound.idle hnot).2] at hconnecting
      cases hconnecting
    have hsound : ({ s.connections with connecting := none } : BearerConnections).Sound :=
      ⟨fun h => absurd hready h, hs.sound.pooled, hs.sound.tells⟩
    exact Follows.handleCall hsound hready rfl rfl hs.last hs.bearer _
      (fun hnone _ _ => hs.read hnone p rat hconnecting)
  · rename_i hidle
    split at h
    · cases h
    · rename_i e rest hfifo
      obtain rfl := Option.some.inj h
      have hlast : ∀ rat, (rats rest ++ s.serving.telling.toList).getLast? = some rat →
          rat = s.serving.state.networkRat := by
        intro rat h
        refine hs.last rat ?_
        unfold toTell
        rw [hfifo, rats_cons, List.append_assoc]
        exact getLast?_of_cons h
      by_cases hready : s.connections.phase = .ready
      · rw [handle_ready (c := { s.connections with fifo := rest }) hready]
        exact hs.handleReady hready hfifo hidle
      · exact Follows.handle_idle (c := { s.connections with fifo := rest }) hready
          (hs.sound.idle hready).1 hidle hs.sound.pooled hlast _ e

theorem Follows.step {l : RatSystem.Label} (hs : Follows s) (h : s.step l = some s') :
    Follows s' := by
  cases l with
  | startServing =>
    obtain rfl := Option.some.inj h
    exact hs.of_same hs.sound rfl rfl (fun _ h => ⟨h, rfl⟩) (fun _ _ h => h)
  | stopServing =>
    obtain rfl := Option.some.inj h
    exact hs.of_same hs.sound rfl rfl (fun _ h => ⟨h, rfl⟩) (fun _ _ h => h)
  | forceServState data =>
    obtain rfl := Option.some.inj h
    exact hs.of_same hs.sound rfl rfl (fun _ h => ⟨h, rfl⟩) (fun _ _ h => h)
  | startConnections =>
    obtain rfl := Option.some.inj h
    exact hs.postConnections rfl
  | stopConnections =>
    obtain rfl := Option.some.inj h
    exact hs.postConnections rfl
  | handleMessage q =>
    obtain rfl := Option.some.inj h
    exact hs.postConnections rfl
  | forceCallDrop p =>
    obtain rfl := Option.some.inj h
    exact hs.postConnections rfl
  | forceDns p patch =>
    obtain rfl := Option.some.inj h
    exact hs.postConnections rfl
  | elapse p =>
    obtain ⟨m, hm, rfl⟩ := Option.map_eq_some_iff.mp h
    have hstatus : ∀ q, m.status q = s.connections.ao.status q := fun q =>
      (elapse_frame hm q).1
    by_cases hready : s.connections.phase = .ready
    · have hpooled := (hs.sound.pooled (by rw [hready]; simp)).elapse hm
      obtain ⟨hsound, -, hconnecting, hrats, hset, hstatus'⟩ :=
        hs.sound.settle (m, []) s.connections.bearerTech hready hpooled
          (fun q hup => .inr ⟨(hstatus q).symm.trans hup, rfl⟩)
      refine hs.of_same hsound ?_ rfl ?_ ?_
      · unfold toTell
        rw [hrats]
      · intro q hup
        rw [hstatus'] at hup
        exact ⟨(hstatus q).symm.trans hup, congrFun hset q⟩
      · intro q rat h
        exact hconnecting.symm.trans h
    · -- there is no session to have a timer
      have hnone := (hs.sound.idle hready).1 p
      unfold DataConnectionAO.elapse at hm
      rw [Option.map_eq_none_iff.mp hnone] at hm
      cases hm
  | serving => exact hs.stepServing h
  | connections => exact hs.stepConnections h

/-- In every run, when nothing is left to do, a call that is up has the bearer of the RAT that the
serving system has, and its last indication carries it. -/
theorem bearerTech_of_quiet (timing : CallTimingPreset) (stem : String) (poolSize : ℕ)
    (addrInfo : String → Option String) (ls : List RatSystem.Label) (s : RatSystem)
    (hrun : Trace.run RatSystem.step (.initial timing stem poolSize addrInfo) ls = some s)
    (hquiet : s.Quiet) (p : ℤ) (c : CallSession)
    (hc : s.connections.ao.sessions.lookup p = some c) (hup : c.status = .connected) :
    s.connections.bearerTech p = some (ratToBearerTech s.serving.state.networkRat) ∧
      ∃ a, s.connections.announced p = some a ∧
        a.bearerTech = some (ratToBearerTech s.serving.state.networkRat) := by
  have hs : Follows s := Trace.run_invariant (fun _ _ _ hs h => Follows.step hs h) hrun
    (follows_initial timing stem poolSize addrInfo)
  obtain ⟨-, htelling, hfifo, -⟩ := hquiet
  have hnone : toTell s = [] := by
    unfold toTell
    rw [hfifo, htelling]
    rfl
  have hst : s.connections.ao.status p = some .connected := by
    rw [status, hc, Option.map_some, hup]
  have hbearer := hs.bearer hnone p hst
  obtain ⟨a, ha, hsame⟩ := hs.sound.tells p hst
  exact ⟨hbearer, a, ha, hsame.trans hbearer⟩

/-- The network goes to NR5G and on to GSM while a call comes up: it reads the first change before
it is told of it. -/
def crossingRun : List RatSystem.Label :=
  [.startServing, .startConnections, .serving, .serving, .connections, .connections,
    .handleMessage ⟨0, .startDataCall, 1, ""⟩, .connections,
    .forceServState ⟨none, some "NR5G", none⟩, .forceServState ⟨none, some "GSM", none⟩,
    .serving, .connections, .serving, .connections, .serving, .serving, .connections, .connections]

theorem bearerTech_crossingRun : ∃ s,
    Trace.run RatSystem.step (.initial ⟨0, 0⟩ "rmnet_data" 1 (fun _ => none)) crossingRun = some s ∧
      s.serving.phase = .ready ∧ s.connections.phase = .ready ∧ s.Quiet ∧
      s.connections.bearerTech 1 = some "GSM" := by
  have hrun : (Trace.run RatSystem.step (.initial ⟨0, 0⟩ "rmnet_data" 1 (fun _ => none))
      crossingRun).any (fun s => s.serving.phase = .ready ∧ s.connections.phase = .ready ∧
        (s.serving.fifo = [] ∧ s.serving.telling = none ∧ s.connections.fifo.isEmpty ∧
          s.connections.connecting = none) ∧
        (s.connections.ao.sessions.lookup 1).any (fun c => c.status = .connected) ∧
        s.serving.state.networkRat = "GSM") = true := by
    decide +kernel
  simp only [Option.any_eq_true, decide_eq_true_eq] at hrun
  obtain ⟨s, hs, hserving, hready, ⟨hfifo, htelling, hempty, hidle⟩, ⟨c, hc, hup⟩, hrat⟩ := hrun
  have hquiet : s.Quiet := ⟨hfifo, htelling, List.isEmpty_iff.mp hempty, hidle⟩
  have hbearer := (bearerTech_of_quiet ⟨0, 0⟩ "rmnet_data" 1 (fun _ => none) crossingRun s hs hquiet
    1 c hc hup).1
  rw [hrat] at hbearer
  exact ⟨s, hs, hserving, hready, hquiet, hbearer⟩

end Follows

end TelafSim.Mpss
