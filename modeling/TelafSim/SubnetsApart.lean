import TelafSim.BearerSubnet

/-!
# Subnets that are kept apart

The addresses of a call that is up are the preset shifted by the index of its interface. Two such
calls share a subnet or a gateway exactly when their indexes count the same, so that the subnets
stay apart in a run exactly when every call that is brought up has an index of its own.
-/

namespace TelafSim.Mpss

open Data StartUp DataConnectionAO

section Shift

variable {n host : ℕ} {μ : Type}

/-- A shift by whole subnets moves an address by the index that counts. -/
theorem offsetIp_eq (addr : IpAddress n) (idx : ℤ) :
    ((offsetIp addr (idx * 2 ^ host) : IpAddress n) : ℤ) =
      addr + effectiveIndex host addr idx * 2 ^ host := by
  unfold offsetIp effectiveIndex
  split
  · rename_i h
    exact Int.toNat_of_nonneg h.1
  · rw [zero_mul, add_zero]

theorem network_offsetIp (addr : IpAddress n) (idx : ℤ) :
    (network host (offsetIp addr (idx * 2 ^ host)) : ℤ) =
      network host addr + effectiveIndex host addr idx := by
  have hpos : (2 : ℤ) ^ host ≠ 0 := by positivity
  unfold network
  push_cast
  rw [offsetIp_eq, Int.add_mul_ediv_right _ _ hpos]

theorem offsetIp_inj {addr : IpAddress n} {i j : ℤ} :
    offsetIp addr (i * 2 ^ host) = offsetIp addr (j * 2 ^ host) ↔
      effectiveIndex host addr i = effectiveIndex host addr j := by
  have hpos : (2 : ℤ) ^ host ≠ 0 := by positivity
  constructor
  · intro h
    have hval := congrArg (fun a : IpAddress n => (a : ℤ)) h
    simp only [offsetIp_eq, add_right_inj] at hval
    exact mul_right_cancel₀ hpos hval
  · intro h
    have hval : ((offsetIp addr (i * 2 ^ host) : IpAddress n) : ℤ) =
        (offsetIp addr (j * 2 ^ host) : IpAddress n) := by
      rw [offsetIp_eq, offsetIp_eq, h]
    exact Fin.ext (by exact_mod_cast hval)

/-- Two shifts of one preset are apart exactly when their indexes differ. -/
theorem apart_offset_iff (b : IpBlock n μ) (i j : ℤ) :
    (b.offset (i * 2 ^ host)).Apart host (b.offset (j * 2 ^ host)) ↔ b.IndexesDiffer host i j := by
  unfold IpBlock.Apart IpBlock.IndexesDiffer IpBlock.offset
  dsimp only
  rw [Ne, Ne, offsetIp_inj]
  refine and_congr (not_congr ?_) Iff.rfl
  rw [← Int.natCast_inj, network_offsetIp, network_offsetIp, add_right_inj]

end Shift

/-! ### The calls that are up -/

namespace DataConnectionAO

variable {m m' : DataConnectionAO} {p q : ℤ} {s : CallSession} {name : String}

theorem connectedIfname_eq_some : m.connectedIfname p = some name ↔
    ∃ s, m.sessions.lookup p = some s ∧ s.status = .connected ∧ s.ifname = name := by
  unfold connectedIfname
  simp only [Option.map_eq_some_iff, Option.filter_eq_some_iff, decide_eq_true_eq, and_assoc]

theorem connectedIfname_isSome : (∃ name, m.connectedIfname p = some name) ↔
    m.status p = some .connected := by
  simp only [connectedIfname_eq_some, status_eq_some]
  constructor
  · rintro ⟨name, s, hs, hst, -⟩
    exact ⟨s, hs, hst⟩
  · rintro ⟨s, hs, hst⟩
    exact ⟨s.ifname, s, hs, hst, rfl⟩

theorem connectedIfname_setSession (p : ℤ) (s : CallSession) (m : DataConnectionAO) :
    (m.setSession p s).connectedIfname = Function.update m.connectedIfname p
      (if s.status = .connected then some s.ifname else none) := by
  funext q
  rw [connectedIfname, lookup_setSession, Function.update_apply]
  split
  · by_cases hst : s.status = .connected
    · simp [hst]
    · simp [hst]
  · rfl

theorem connectedIfname_schedule (t : CallTimer) (delayMs : ℕ) (p : ℤ) (s : CallSession)
    (m : DataConnectionAO) : (m.schedule t delayMs p s).connectedIfname =
      Function.update m.connectedIfname p
        (if s.status = .connected then some s.ifname else none) := by
  unfold schedule
  split
  · exact connectedIfname_setSession p (s.setTimer none) m
  · exact connectedIfname_setSession p (s.setTimer (some t)) m

theorem connectedIfname_dropSession (p : ℤ) (s : CallSession) (m : DataConnectionAO) :
    (m.dropSession p s).connectedIfname = Function.update m.connectedIfname p none := by
  funext q
  rw [connectedIfname, lookup_dropSession, Function.update_apply]
  split <;> rfl

theorem update_none_eq_some {f : ℤ → Option String}
    (h : Function.update f p none q = some name) : f q = some name := by
  rw [Function.update_apply] at h
  split at h
  · cases h
  · exact h

/-- An event brings one call up and leaves the others as they are, or brings none up. -/
theorem connectedIfname_reaction {e : MpssEvent} {r : DataConnectionAO × List Message}
    (h : m.Reaction e r) :
    (∃ p name, m.BringsUp e p name ∧
        r.1.connectedIfname = Function.update m.connectedIfname p (some name)) ∨
      (∀ p name, ¬ m.BringsUp e p name) ∧
        ∀ p name, r.1.connectedIfname p = some name → m.connectedIfname p = some name := by
  cases h with
  | refused | answered =>
    refine .inr ⟨?_, fun _ _ h => h⟩
    rintro p name ⟨he, -⟩
    cases he
  | @opened q assigned pool hkind hopens halloc =>
    refine .inr ⟨?_, ?_⟩
    · rintro p name ⟨he, -⟩
      cases he
    · intro p name h
      rw [scheduleCallConnect, connectedIfname_schedule] at h
      exact update_none_eq_some (p := q.profileId) h
  | @stopped q c hkind hc =>
    refine .inr ⟨?_, ?_⟩
    · rintro p name ⟨he, -⟩
      cases he
    · intro p name h
      have hne : (c.dispatch .disconnect).status ≠ .connected := by
        cases hst : c.status <;> simp [CallSession.dispatch, CallSession.chart, hst]
      rw [scheduleCallDisconnect, connectedIfname_schedule, if_neg hne] at h
      exact update_none_eq_some h
  | @stale t q hc hgone =>
    refine .inr ⟨?_, fun _ _ h => h⟩
    rintro p name ⟨he, s, hs, hst, -⟩
    cases he
    rw [status, hs, Option.map_some, hst] at hc
    exact hc rfl
  | @connected q c hc hconnecting =>
    refine .inl ⟨q, c.ifname, ⟨rfl, c, hc, hconnecting, rfl⟩, ?_⟩
    rw [connectedIfname_setSession, if_pos]
    · rfl
    · simp [CallSession.dispatch, CallSession.chart, hconnecting]
  | terminated hc =>
    refine .inr ⟨?_, ?_⟩
    · rintro p name ⟨he, -⟩
      cases he
    · intro p name h
      rw [connectedIfname_dropSession] at h
      exact update_none_eq_some h
  | missing =>
    refine .inr ⟨?_, fun _ _ h => h⟩
    rintro p name ⟨he, -⟩
    cases he
  | dropped hc =>
    refine .inr ⟨?_, ?_⟩
    · rintro p name ⟨he, -⟩
      cases he
    · intro p name h
      rw [connectedIfname_dropSession] at h
      exact update_none_eq_some h

theorem connectedIfname_elapse (h : m.elapse p = some m') :
    m'.connectedIfname = m.connectedIfname := by
  unfold elapse at h
  split at h
  · cases h
  · rename_i s hs
    obtain ⟨t, ht, rfl⟩ := Option.map_eq_some_iff.mp h
    refine (connectedIfname_setSession p (s.setTimer none) m).trans ?_
    rw [Function.update_eq_self_iff]
    change (if s.status = .connected then some s.ifname else none) = _
    rw [connectedIfname, hs]
    by_cases hst : s.status = .connected
    · simp [hst]
    · simp [hst]

end DataConnectionAO

/-! ### Address blocks -/

/-- New DNS servers leave these alone. -/
def IpBlock.addresses {n : ℕ} {μ : Type} (b : IpBlock n μ) : IpAddress n × IpAddress n :=
  (b.ifAddress, b.gwAddress)

@[simp] theorem IpBlock.addresses_setDns {n : ℕ} {μ : Type} (primary secondary : Option String)
    (b : IpBlock n μ) : (b.setDns primary secondary).addresses = b.addresses := rfl

theorem IpBlock.addresses_offset {n : ℕ} {μ : Type} {b b' : IpBlock n μ}
    (h : b.addresses = b'.addresses) (offset : ℤ) :
    (b.offset offset).addresses = (b'.offset offset).addresses := by
  obtain ⟨hif, hgw⟩ := Prod.mk.inj h
  unfold addresses IpBlock.offset
  dsimp only
  rw [hif, hgw]

theorem IpBlock.apart_congr {n host : ℕ} {μ : Type} {a a' b b' : IpBlock n μ}
    (ha : a.addresses = a'.addresses) (hb : b.addresses = b'.addresses) :
    a.Apart host b ↔ a'.Apart host b' := by
  obtain ⟨haif, hagw⟩ := Prod.mk.inj ha
  obtain ⟨hbif, hbgw⟩ := Prod.mk.inj hb
  unfold Apart
  rw [haif, hagw, hbif, hbgw]

theorem IpBlock.Apart.symm {n host : ℕ} {μ : Type} {a b : IpBlock n μ} (h : a.Apart host b) :
    b.Apart host a := ⟨Ne.symm h.1, Ne.symm h.2⟩

namespace Bearer

structure SameAddresses (b b' : Bearer) : Prop where
  ipFamily : b.ipFamily = b'.ipFamily
  ipv4 : b.ipv4.map IpBlock.addresses = b'.ipv4.map IpBlock.addresses
  ipv6 : b.ipv6.map IpBlock.addresses = b'.ipv6.map IpBlock.addresses

variable {a a' b b' : Bearer}

@[refl] theorem SameAddresses.refl (b : Bearer) : b.SameAddresses b := ⟨rfl, rfl, rfl⟩

theorem SameAddresses.trans {c : Bearer} (h : a.SameAddresses b) (h' : b.SameAddresses c) :
    a.SameAddresses c :=
  ⟨h.ipFamily.trans h'.ipFamily, h.ipv4.trans h'.ipv4, h.ipv6.trans h'.ipv6⟩

theorem SameAddresses.symm (h : a.SameAddresses b) : b.SameAddresses a :=
  ⟨h.ipFamily.symm, h.ipv4.symm, h.ipv6.symm⟩

theorem Apart.symm (h : a.Apart b) : b.Apart a :=
  ⟨fun x hx y hy => (h.1 y hy x hx).symm, fun x hx y hy => (h.2 y hy x hx).symm⟩

theorem exists_of_map_addresses {n : ℕ} {μ : Type} {x x' : Option (IpBlock n μ)} {y : IpBlock n μ}
    (h : x.map IpBlock.addresses = x'.map IpBlock.addresses) (hy : y ∈ x) :
    ∃ y' ∈ x', y.addresses = y'.addresses := by
  obtain rfl := Option.mem_def.mp hy
  obtain ⟨y', hy', heq⟩ := Option.map_eq_some_iff.mp h.symm
  exact ⟨y', hy', heq.symm⟩

theorem Apart.of_same (ha : a.SameAddresses a') (hb : b.SameAddresses b') (h : a'.Apart b') :
    a.Apart b := by
  constructor
  · intro x hx y hy
    obtain ⟨x', hx', hxx⟩ := exists_of_map_addresses ha.ipv4 hx
    obtain ⟨y', hy', hyy⟩ := exists_of_map_addresses hb.ipv4 hy
    exact (IpBlock.apart_congr hxx hyy).mpr (h.1 x' hx' y' hy')
  · intro x hx y hy
    obtain ⟨x', hx', hxx⟩ := exists_of_map_addresses ha.ipv6 hx
    obtain ⟨y', hy', hyy⟩ := exists_of_map_addresses hb.ipv6 hy
    exact (IpBlock.apart_congr hxx hyy).mpr (h.2 x' hx' y' hy')

theorem apart_congr (ha : a.SameAddresses a') (hb : b.SameAddresses b') :
    a.Apart b ↔ a'.Apart b' :=
  ⟨Apart.of_same ha.symm hb.symm, Apart.of_same ha hb⟩

end Bearer

namespace AddrConnections

variable {c c' : AddrConnections}

/-- A step that brings up no call. -/
structure Keeps (c c' : AddrConnections) : Prop where
  stem : c'.stem = c.stem
  ipv4 : c'.config.ipv4.addresses = c.config.ipv4.addresses
  ipv6 : c'.config.ipv6.addresses = c.config.ipv6.addresses
  up : ∀ p name, c'.ao.connectedIfname p = some name →
    c.ao.connectedIfname p = some name ∧ (c'.bearers p).SameAddresses (c.bearers p)

theorem Keeps.of_same (hstem : c'.stem = c.stem) (hconfig : c'.config = c.config)
    (hup : c'.ao.connectedIfname = c.ao.connectedIfname) (hbearers : c'.bearers = c.bearers) :
    Keeps c c' := by
  refine ⟨hstem, by rw [hconfig], by rw [hconfig], ?_⟩
  intro p name h
  rw [hup] at h
  rw [hbearers]
  exact ⟨h, .refl _⟩

theorem handleMessage_keeps (hc : c.ao.Pooled) (q : Request) (ipFamily : IpFamilyType) :
    Keeps c (c.handleMessage q ipFamily) ∧ (c.handleMessage q ipFamily).ao.Pooled := by
  have hreaction := reaction_dispatch hc.live (.messageReceived q)
  refine ⟨⟨rfl, rfl, rfl, ?_⟩, (hc.reaction hreaction).of_same rfl rfl⟩
  intro p name h
  obtain ⟨p', name', ⟨he, -⟩, -⟩ | ⟨-, hup⟩ := connectedIfname_reaction hreaction
  · cases he
  · have hold : c.ao.connectedIfname p = some name := hup p name h
    refine ⟨hold, ?_⟩
    unfold handleMessage settle
    dsimp only
    split
    · rename_i hopens
      -- a call that is opened was not up
      have hne : p ≠ q.profileId := by
        rintro rfl
        have hst := connectedIfname_isSome.mp ⟨name, hold⟩
        have hnone := hopens.2
        simp [opens, hst] at hnone
      rw [Function.update_of_ne hne]
    · exact .refl _

theorem applyForceDns_keeps (p : ℤ) (data : ForceDns) (c : AddrConnections) :
    Keeps c (c.applyForceDns p data) := by
  unfold applyForceDns
  split
  · refine ⟨rfl, rfl, rfl, ?_⟩
    intro q name h
    refine ⟨h, ?_⟩
    dsimp only
    rw [Function.update_apply]
    split
    · rename_i hq
      subst hq
      refine ⟨rfl, ?_, ?_⟩
      · simp [Option.map_map, Function.comp_def]
      · simp [Option.map_map, Function.comp_def]
    · exact .refl _
  · exact .of_same rfl rfl rfl rfl

theorem applyForceDns_same (p : ℤ) (data : ForceDns) (c : AddrConnections) :
    (c.applyForceDns p data).phase = c.phase ∧ (c.applyForceDns p data).ao = c.ao := by
  unfold applyForceDns
  split <;> exact ⟨rfl, rfl⟩

theorem settle_keeps {m : DataConnectionAO}
    (hup : ∀ p name, m.connectedIfname p = some name → c.ao.connectedIfname p = some name) :
    Keeps c (c.settle m c.bearers) :=
  ⟨rfl, rfl, rfl, fun p name h => ⟨hup p name h, .refl _⟩⟩

theorem BringsUp.unique {l : Label} {p q : ℤ} {name name' : String} (h : c.BringsUp l p name)
    (h' : c.BringsUp l q name') : p = q ∧ name = name' := by
  obtain ⟨-, -, e, hhead, he, s, hs, -, rfl⟩ := h
  obtain ⟨-, -, e', hhead', he', t, ht, -, rfl⟩ := h'
  rw [hhead] at hhead'
  obtain rfl := AddrEvent.call.inj (Option.some.inj hhead')
  rw [he] at he'
  cases he'
  rw [hs] at ht
  obtain rfl := Option.some.inj ht
  exact ⟨rfl, rfl⟩

section Steps

variable [PyText] {l : Label} {p q : ℤ} {name name' : String} {b b' : Bearer}

/-- Blocks that are both shifted from the preset are apart exactly when the names differ. -/
theorem apart_connectBearer_iff : (c.connectBearer name b).Apart (c.connectBearer name' b') ↔
    c.NamesDiffer b.ipFamily b'.ipFamily name name' := by
  have hv4 : ∀ i j : ℤ, (c.config.ipv4.offset (i * v4SubnetStride)).Apart 8
      (c.config.ipv4.offset (j * v4SubnetStride)) ↔ c.config.ipv4.IndexesDiffer 8 i j := by
    intro i j
    exact apart_offset_iff c.config.ipv4 i j
  have hv6 : ∀ i j : ℤ, (c.config.ipv6.offset (i * v6SubnetStride)).Apart 64
      (c.config.ipv6.offset (j * v6SubnetStride)) ↔ c.config.ipv6.IndexesDiffer 64 i j := by
    intro i j
    exact apart_offset_iff c.config.ipv6 i j
  unfold Bearer.Apart NamesDiffer connectBearer
  dsimp only
  refine and_congr ?_ ?_
  · cases carriesV4 b.ipFamily <;> cases carriesV4 b'.ipFamily <;> simp [hv4]
  · cases carriesV6 b.ipFamily <;> cases carriesV6 b'.ipFamily <;> simp [hv6]

/-- The addresses that a call is brought up with depend on its name and family, and on the preset
addresses. -/
theorem connectBearer_same (hstem : c'.stem = c.stem)
    (hv4 : c'.config.ipv4.addresses = c.config.ipv4.addresses)
    (hv6 : c'.config.ipv6.addresses = c.config.ipv6.addresses) (hb : b'.ipFamily = b.ipFamily) :
    (c'.connectBearer name b').SameAddresses (c.connectBearer name b) := by
  unfold connectBearer
  dsimp only
  rw [hstem, hb]
  refine ⟨rfl, ?_, ?_⟩
  · cases carriesV4 b.ipFamily
    · rfl
    · exact congrArg some (IpBlock.addresses_offset hv4 _)
  · cases carriesV6 b.ipFamily
    · rfl
    · exact congrArg some (IpBlock.addresses_offset hv6 _)

/-! ### What a step does -/

/-- A step that brings up the call of `p`. -/
structure Connects (c c' : AddrConnections) (p : ℤ) (name : String) : Prop where
  stem : c'.stem = c.stem
  config : c'.config = c.config
  up : c'.ao.connectedIfname = Function.update c.ao.connectedIfname p (some name)
  bearers : c'.bearers = Function.update c.bearers p (c.connectBearer name (c.bearers p))

/-- In Ready the connections are pooled; elsewhere there is no call. -/
structure Sound (c : AddrConnections) : Prop where
  idle : c.phase ≠ .ready → ∀ p, c.ao.status p = none
  pooled : c.phase ≠ .stopping → c.ao.Pooled
  derived : ∀ p name, c.ao.connectedIfname p = some name →
    (c.bearers p).SameAddresses (c.connectBearer name (c.bearers p))

theorem sound_initial (timing : CallTimingPreset) (stem : String) (poolSize : ℕ)
    (config : IpConfig) : (initial timing stem poolSize config).Sound := by
  refine ⟨fun _ _ => rfl, fun _ => pooled_start timing stem poolSize _, ?_⟩
  intro p name h
  cases h

theorem onConnectTimer_cases (hc : c.ao.Pooled) (p : ℤ) :
    ((∃ name, c.ao.BringsUp (.timeout .connect p) p name ∧ Connects c (c.onConnectTimer p) p name) ∨
      (∀ q name, ¬ c.ao.BringsUp (.timeout .connect p) q name) ∧ Keeps c (c.onConnectTimer p)) ∧
      (c.onConnectTimer p).ao.Pooled := by
  have hreaction := reaction_dispatch hc.live (.timeout .connect p)
  refine ⟨?_, (hc.reaction hreaction).of_same rfl rfl⟩
  obtain ⟨p', name, hbrings, hup⟩ | ⟨hnot, hup⟩ := connectedIfname_reaction hreaction
  · have hbrings' := hbrings
    obtain ⟨he, s, hs, hst, rfl⟩ := hbrings'
    cases he
    refine .inl ⟨s.ifname, hbrings, rfl, rfl, hup, ?_⟩
    unfold onConnectTimer settle
    dsimp only
    rw [hs]
    dsimp only
    rw [if_pos hst]
  · refine .inr ⟨hnot, rfl, rfl, rfl, ?_⟩
    intro q name h
    refine ⟨hup q name h, ?_⟩
    unfold onConnectTimer settle
    dsimp only
    cases hs : c.ao.sessions.lookup p with
    | none => exact .refl _
    | some s =>
      dsimp only
      rw [if_neg]
      intro hst
      exact hnot p s.ifname ⟨rfl, s, hs, hst, rfl⟩

/-- What becomes of the connections: one call comes up or none does. -/
def Outcome (c c' : AddrConnections) (brings : ℤ → String → Prop) : Prop :=
  ((∃ p name, brings p name ∧ Connects c c' p name) ∨ (∀ p name, ¬ brings p name) ∧ Keeps c c') ∧
    (c'.phase ≠ .ready → ∀ p, c'.ao.status p = none) ∧ (c'.phase ≠ .stopping → c'.ao.Pooled)

theorem Outcome.of_keeps {brings : ℤ → String → Prop} (hnot : ∀ p name, ¬ brings p name)
    (hkeeps : Keeps c c') (hidle : c'.phase ≠ .ready → ∀ p, c'.ao.status p = none)
    (hpooled : c'.phase ≠ .stopping → c'.ao.Pooled) : Outcome c c' brings :=
  ⟨.inr ⟨hnot, hkeeps⟩, hidle, hpooled⟩

theorem Sound.same {brings : ℤ → String → Prop} (hc : c.Sound) (hnot : ∀ p name, ¬ brings p name) :
    Outcome c c brings :=
  .of_keeps hnot (.of_same rfl rfl rfl rfl) hc.idle hc.pooled

theorem outcome_stop {brings : ℤ → String → Prop} (hnot : ∀ p name, ¬ brings p name) :
    Outcome c c.stop brings := by
  refine .of_keeps hnot ⟨rfl, rfl, rfl, ?_⟩ (fun _ _ => rfl) (fun h => absurd rfl h)
  intro p name h
  cases h

theorem outcome_handleReady (hc : c.Sound) (hready : c.phase = .ready) (e : AddrEvent) :
    Outcome c (c.handleReady e)
      (fun p name => ∃ me, e = .call me ∧ c.ao.BringsUp me p name) := by
  have hp : c.ao.Pooled := hc.pooled (by rw [hready]; decide)
  have hnone : (∀ me, e ≠ .call me) → ∀ p name, ¬ ∃ me, e = .call me ∧ c.ao.BringsUp me p name := by
    rintro hne p name ⟨me, he, -⟩
    exact hne me he
  cases e with
  | messageReceived q ipFamily =>
    obtain ⟨hkeeps, hpooled⟩ := handleMessage_keeps hp q ipFamily
    exact .of_keeps (hnone (by simp)) hkeeps (fun h => absurd hready h) (fun _ => hpooled)
  | forceDns p data =>
    obtain ⟨hphase, hao⟩ := applyForceDns_same p data c
    refine .of_keeps (hnone (by simp)) (applyForceDns_keeps p data c) ?_ ?_
    · exact fun h => absurd (hphase.trans hready) h
    · intro _
      exact hao ▸ hp
  | stop => exact outcome_stop (hnone (by simp))
  | start | startingDone | networkRatChanged => exact hc.same (hnone (by simp))
  | call me =>
    have hreaction := reaction_dispatch hp.live me
    have hidle : ∀ m bearers, (c.settle m bearers).phase ≠ .ready →
        ∀ p, (c.settle m bearers).ao.status p = none := fun _ _ h => absurd hready h
    have hsettle : (∀ p, me ≠ .timeout .connect p) →
        Outcome c (c.settle (c.ao.dispatch me).1 c.bearers)
          (fun p name => ∃ me', AddrEvent.call me = .call me' ∧ c.ao.BringsUp me' p name) := by
      intro hne
      obtain ⟨p, name, ⟨he, -⟩, -⟩ | ⟨-, hup⟩ := connectedIfname_reaction hreaction
      · exact absurd he (hne p)
      · refine .of_keeps ?_ (settle_keeps hup) (hidle _ _)
          (fun _ => (hp.reaction hreaction).of_same rfl rfl)
        rintro p name ⟨me', he, he', -⟩
        obtain rfl := AddrEvent.call.inj he
        exact hne p he'
    cases me with
    | messageReceived q => exact hsettle (by simp)
    | forceCallDrop p => exact hsettle (by simp)
    | timeout t p =>
      cases t with
      | disconnect => exact hsettle (by simp)
      | connect =>
        obtain ⟨⟨name, hbrings, hconnects⟩ | ⟨hnot, hkeeps⟩, hpooled⟩ := onConnectTimer_cases hp p
        · exact ⟨.inl ⟨p, name, ⟨_, rfl, hbrings⟩, hconnects⟩, hidle _ _, fun _ => hpooled⟩
        · refine .of_keeps ?_ hkeeps (hidle _ _) (fun _ => hpooled)
          rintro q name ⟨me', he, hbrings⟩
          obtain rfl := AddrEvent.call.inj he
          exact hnot q name hbrings

theorem outcome_handle (hc : c.Sound) (e : AddrEvent) :
    Outcome c (c.handle e)
      (fun p name => c.phase = .ready ∧ ∃ me, e = .call me ∧ c.ao.BringsUp me p name) := by
  have hnone : c.phase ≠ .ready →
      ∀ p name, ¬ (c.phase = .ready ∧ ∃ me, e = .call me ∧ c.ao.BringsUp me p name) := by
    rintro hne p name ⟨h, -⟩
    exact hne h
  have hsame : c.phase ≠ .ready → ∀ c', c'.stem = c.stem → c'.config = c.config → c'.ao = c.ao →
      c'.bearers = c.bearers → c.phase ≠ .stopping →
        Outcome c c' (fun p name =>
          c.phase = .ready ∧ ∃ me, e = .call me ∧ c.ao.BringsUp me p name) := by
    intro hne c' hstem hconfig hao hbearers hlive
    refine .of_keeps (hnone hne) (.of_same hstem hconfig (by rw [hao]) hbearers) ?_ ?_
    · rw [hao]
      exact fun _ => hc.idle hne
    · rw [hao]
      exact fun _ => hc.pooled hlive
  unfold handle
  cases hphase : c.phase with
  | ready =>
    have h := outcome_handleReady hc hphase e
    refine ⟨h.1.imp ?_ ?_, h.2⟩
    · rintro ⟨p, name, hbrings, hconnects⟩
      exact ⟨p, name, ⟨rfl, hbrings⟩, hconnects⟩
    · rintro ⟨hnot, hkeeps⟩
      exact ⟨fun p name hbrings => hnot p name hbrings.2, hkeeps⟩
  | off =>
    rw [hphase] at hsame hnone
    dsimp only
    split
    · exact hsame (by decide) _ rfl rfl rfl rfl (by decide)
    · exact hc.same (hnone (by decide))
  | starting =>
    rw [hphase] at hsame hnone
    dsimp only
    cases e with
    | startingDone =>
      refine hsame (by decide) _ ?_ ?_ ?_ ?_ (by decide) <;>
        (unfold handleStarting recallOldest; dsimp only; split <;> rfl)
    | messageReceived q ipFamily => exact hsame (by decide) _ rfl rfl rfl rfl (by decide)
    | stop => exact outcome_stop (hnone (by decide))
    | start | call | networkRatChanged | forceDns => exact hc.same (hnone (by decide))
  | stopping =>
    rw [hphase] at hnone
    exact hc.same (hnone (by decide))

theorem outcome_step (hc : c.Sound) (h : c.step l = some c') : Outcome c c' (c.BringsUp l) := by
  have hnone : l ≠ .handle → ∀ p name, ¬ c.BringsUp l p name := by
    rintro hne p name ⟨hl, -⟩
    exact hne hl
  cases l with
  | handle =>
    unfold step at h
    dsimp only at h
    split at h
    · cases h
    · rename_i e rest hfifo
      obtain rfl := Option.some.inj h
      have hrest : ({ c with fifo := rest } : AddrConnections).Sound :=
        ⟨hc.idle, hc.pooled, hc.derived⟩
      obtain ⟨hcases, hidle, hpooled⟩ := outcome_handle hrest e
      refine ⟨hcases.imp ?_ ?_, hidle, hpooled⟩
      · rintro ⟨p, name, ⟨hready, me, rfl, hbrings⟩, hconnects⟩
        refine ⟨p, name, ⟨rfl, hready, me, by rw [hfifo]; rfl, hbrings⟩, ?_⟩
        exact ⟨hconnects.stem, hconnects.config, hconnects.up, hconnects.bearers⟩
      · rintro ⟨hnot, hkeeps⟩
        refine ⟨?_, hkeeps.stem, hkeeps.ipv4, hkeeps.ipv6, hkeeps.up⟩
        rintro p name ⟨-, hready, me, hhead, hbrings⟩
        rw [hfifo] at hhead
        exact hnot p name ⟨hready, me, Option.some.inj hhead, hbrings⟩
  | elapse p =>
    obtain ⟨m, hm, rfl⟩ := Option.map_eq_some_iff.mp h
    refine .of_keeps (hnone (by simp)) (settle_keeps ?_) ?_ ?_
    · rw [connectedIfname_elapse hm]
      exact fun _ _ h => h
    · intro hphase q
      exact (elapse_frame hm q).1.trans (hc.idle hphase q)
    · intro hphase
      exact ((hc.pooled hphase).elapse hm).of_same rfl rfl
  | start | stop | handleMessage | forceCallDrop | onNetworkRatChanged | forceDns =>
    obtain rfl := Option.some.inj h
    exact .of_keeps (hnone (by simp)) (.of_same rfl rfl rfl rfl) hc.idle hc.pooled

theorem Sound.step (hc : c.Sound) (h : c.step l = some c') : c'.Sound := by
  obtain ⟨⟨p, name, -, hconnects⟩ | ⟨-, hkeeps⟩, hidle, hpooled⟩ := outcome_step hc h
  · refine ⟨hidle, hpooled, ?_⟩
    intro q name' hq
    have hsame : ∀ b b' : Bearer, b'.ipFamily = b.ipFamily →
        (c.connectBearer name' b).SameAddresses (c'.connectBearer name' b') := by
      intro b b' hb
      refine (connectBearer_same hconnects.stem ?_ ?_ hb).symm
      · rw [hconnects.config]
      · rw [hconnects.config]
    rw [hconnects.up] at hq
    rw [hconnects.bearers]
    by_cases hqp : q = p
    · subst hqp
      rw [Function.update_self] at hq ⊢
      obtain rfl := Option.some.inj hq
      exact hsame _ _ rfl
    · rw [Function.update_of_ne hqp] at hq ⊢
      exact (hc.derived q name' hq).trans (hsame _ _ rfl)
  · refine ⟨hidle, hpooled, ?_⟩
    intro q name hq
    obtain ⟨hold, hbearer⟩ := hkeeps.up q name hq
    refine (hbearer.trans (hc.derived q name hold)).trans ?_
    exact (connectBearer_same hkeeps.stem hkeeps.ipv4 hkeeps.ipv6 hbearer.ipFamily).symm

/-- The call that comes up is apart from another one exactly when their names differ. -/
theorem apart_iff (hc : c.Sound) (hconnects : Connects c c' p name) (hqp : q ≠ p)
    (hq : c.ao.connectedIfname q = some name') : (c'.bearers p).Apart (c'.bearers q) ↔
      c.NamesDiffer (c.bearers p).ipFamily (c.bearers q).ipFamily name name' := by
  rw [hconnects.bearers, Function.update_self, Function.update_of_ne hqp,
    Bearer.apart_congr (.refl _) (hc.derived q name' hq), apart_connectBearer_iff]

theorem heeds_iff_ownSubnets (hc : c.Sound) (hown : c.OwnSubnets) (h : c.step l = some c') :
    c.heeds l ↔ c'.OwnSubnets := by
  obtain ⟨⟨p, name, hbrings, hconnects⟩ | ⟨hnot, hkeeps⟩, -, -⟩ := outcome_step hc h
  · have hup : ∀ q, q ≠ p → (c'.ao.status q = some .connected ↔
        ∃ name', c.ao.connectedIfname q = some name') := by
      intro q hqp
      rw [← connectedIfname_isSome, hconnects.up, Function.update_of_ne hqp]
    constructor
    · intro hheeds
      have hnew : ∀ q, q ≠ p → c'.ao.status q = some .connected →
          (c'.bearers p).Apart (c'.bearers q) := by
        intro q hqp hq
        obtain ⟨name', hname'⟩ := (hup q hqp).mp hq
        exact (apart_iff hc hconnects hqp hname').mpr (hheeds p name hbrings q name' hqp hname')
      intro q r hqr hq hr
      by_cases hqp : q = p
      · subst hqp
        exact hnew r (Ne.symm hqr) hr
      · by_cases hrp : r = p
        · subst hrp
          exact (hnew q hqp hq).symm
        · rw [hconnects.bearers, Function.update_of_ne hqp, Function.update_of_ne hrp]
          exact hown q r hqr (connectedIfname_isSome.mp ((hup q hqp).mp hq))
            (connectedIfname_isSome.mp ((hup r hrp).mp hr))
    · intro hown' p' n' hbrings' q name' hqp hq
      obtain ⟨rfl, rfl⟩ := hbrings.unique hbrings'
      refine (apart_iff hc hconnects hqp hq).mp (hown' p q (Ne.symm hqp) ?_ ?_)
      · refine connectedIfname_isSome.mp ⟨name, ?_⟩
        rw [hconnects.up, Function.update_self]
      · exact (hup q hqp).mpr ⟨name', hq⟩
  · refine iff_of_true (fun p name hbrings => absurd hbrings (hnot p name)) ?_
    intro q r hqr hq hr
    obtain ⟨name, hname⟩ := connectedIfname_isSome.mpr hq
    obtain ⟨name', hname'⟩ := connectedIfname_isSome.mpr hr
    obtain ⟨hold, hbearer⟩ := hkeeps.up q name hname
    obtain ⟨hold', hbearer'⟩ := hkeeps.up r name' hname'
    exact (hown q r hqr (connectedIfname_isSome.mp ⟨name, hold⟩)
      (connectedIfname_isSome.mp ⟨name', hold'⟩)).of_same hbearer hbearer'

/-- In a run of the connections no two calls that are up ever share a subnet or a gateway if and
only if every call that is brought up has an index of its own among those that are up. -/
theorem ownSubnets_iff {timing : CallTimingPreset} {stem : String} {poolSize : ℕ}
    {config : IpConfig} {ls : List Label}
    (hrun : Trace.run step (initial timing stem poolSize config) ls = some c) :
    Trace.Always step OwnSubnets (initial timing stem poolSize config) ls ↔
      Trace.AllSteps step heeds (initial timing stem poolSize config) ls := by
  refine Trace.always_iff_allSteps (fun _ _ _ hs h => Sound.step hs h) ?_ hrun
    (sound_initial timing stem poolSize config) ?_
  · intro s l s' hs hown h
    exact heeds_iff_ownSubnets hs hown h
  · intro p q _ hp
    cases hp

end Steps

/-! ### Names that a client asks for -/

/-- The interpreter on ASCII text. -/
instance asciiText : PyText where
  decimal c := if c.isDigit then some (c.toNat - '0'.toNat) else none
  isSpace c := c.isWhitespace
  maxStrDigits := 4300

/-- 10.0.0.1 and 2001:db8::1 with their gateways. -/
def defaultIpConfig : IpConfig where
  ipv4 := ⟨0x0a000001, 0x0a0000fe, "8.8.8.8", "8.8.4.4", "255.255.255.0"⟩
  ipv6 := ⟨0x20010db8000000000000000000000001, 0x20010db800000000000000000000fffe,
    "2001:4860:4860::8888", "", 64⟩

/-- Two calls are brought up, the second on an interface of the client's choice. -/
def twoCalls (requested : String) : List Label :=
  [.start, .handle, .handle, .handleMessage ⟨0, .startDataCall, 1, ""⟩ .ipv4v6,
    .handleMessage ⟨1, .startDataCall, 2, requested⟩ .ipv4v6, .handle, .handle, .handle, .handle]

theorem ownSubnets_iff_twoCalls : ∃ c,
    Trace.run step (initial ⟨0, 0⟩ "rmnet_data" 8 defaultIpConfig) (twoCalls "rmnet_data1") =
        some c ∧
      (c.bearers 2).ipv4.map IpBlock.ifAddress = some 0x0a000101 ∧
      (Trace.Always step OwnSubnets (initial ⟨0, 0⟩ "rmnet_data" 8 defaultIpConfig)
          (twoCalls "rmnet_data1") ↔
        Trace.AllSteps step heeds (initial ⟨0, 0⟩ "rmnet_data" 8 defaultIpConfig)
          (twoCalls "rmnet_data1")) := by
  have hrun : (Trace.run step (initial ⟨0, 0⟩ "rmnet_data" 8 defaultIpConfig)
      (twoCalls "rmnet_data1")).any (fun c =>
        (c.bearers 2).ipv4.map IpBlock.ifAddress = some 0x0a000101) = true := by
    decide +kernel
  simp only [Option.any_eq_true, decide_eq_true_eq] at hrun
  obtain ⟨c, hc, haddr⟩ := hrun
  exact ⟨c, hc, haddr, ownSubnets_iff hc⟩

/-- `eth0` is shorter than the prefix, and its call gets the addresses of the first one. -/
theorem shared_subnet : ∃ c,
    Trace.run step (initial ⟨0, 0⟩ "rmnet_data" 8 defaultIpConfig) (twoCalls "eth0") = some c ∧
      c.ao.status 1 = some .connected ∧ c.ao.status 2 = some .connected ∧
      (c.bearers 1).ipv4.map IpBlock.ifAddress = some 0x0a000001 ∧
      (c.bearers 2).ipv4.map IpBlock.ifAddress = some 0x0a000001 ∧
      ¬ Trace.Always step OwnSubnets (initial ⟨0, 0⟩ "rmnet_data" 8 defaultIpConfig)
        (twoCalls "eth0") := by
  have hrun : (Trace.run step (initial ⟨0, 0⟩ "rmnet_data" 8 defaultIpConfig)
      (twoCalls "eth0")).any (fun c =>
        c.ao.status 1 = some .connected ∧ c.ao.status 2 = some .connected ∧
          (c.bearers 1).ipv4.map IpBlock.ifAddress = some 0x0a000001 ∧
          (c.bearers 2).ipv4.map IpBlock.ifAddress = some 0x0a000001) = true := by
    decide +kernel
  simp only [Option.any_eq_true, decide_eq_true_eq] at hrun
  obtain ⟨c, hc, hfirst, hsecond, haddr, haddr'⟩ := hrun
  refine ⟨c, hc, hfirst, hsecond, haddr, haddr', ?_⟩
  intro hall
  have hown : c.OwnSubnets := hall.run hc
  obtain ⟨a, ha, ha'⟩ := Option.map_eq_some_iff.mp haddr
  obtain ⟨b, hb, hb'⟩ := Option.map_eq_some_iff.mp haddr'
  refine ((hown 1 2 (by decide) hfirst hsecond).1 a ha b hb).1 ?_
  rw [ha', hb']

end AddrConnections

end TelafSim.Mpss
