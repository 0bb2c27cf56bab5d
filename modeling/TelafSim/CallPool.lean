import TelafSim.Mpss
import TelafSim.Trace

/-!
# The interfaces of the modem's calls

`DataConnectionAO` on its own: requests and forced drops are posted at any time, timers fire at any
time, and the events of the fifo are handled one by one. A change of the network's RAT and new DNS
servers only announce calls that are up, and nothing in the fifo depends on when: they are handled
as they come. In every state reached the names in use are those of the sessions, no two of which
share one.
-/

namespace TelafSim.Mpss.DataConnectionAO

open Data

inductive Label
  | handleMessage (q : Request)
  | forceCallDrop (profileId : ℤ)
  | onNetworkRatChanged
  | forceDns (profileId : ℤ) (patch : Option (String → String))
  | elapse (profileId : ℤ)
  | handle

/-- The next state, and what is published on the way. -/
def react (m : DataConnectionAO) : Label → Option (DataConnectionAO × List Message)
  | .handleMessage q => some (m.postFifo (.messageReceived q), [])
  | .forceCallDrop profileId => some (m.postFifo (.forceCallDrop profileId), [])
  | .onNetworkRatChanged => some m.applyNetworkRatChanged
  | .forceDns profileId patch => some (m.applyForceDns profileId patch)
  | .elapse profileId => (m.elapse profileId).map (fun m' => (m', []))
  | .handle => m.handle

def step (m : DataConnectionAO) (l : Label) : Option DataConnectionAO := (m.react l).map Prod.fst

/-- What the handling of an event comes to. -/
inductive Reaction (m : DataConnectionAO) : MpssEvent → DataConnectionAO × List Message → Prop
  | refused {q : Request} (code : String) (hstart : q.kind = .startDataCall → m.opens q = false)
    (hstop : q.kind = .stopDataCall → m.status q.profileId = none) :
    Reaction m (.messageReceived q) (m, sendError q code)
  | answered {q : Request} {data : RspData} (hkind : q.kind ≠ .stopDataCall)
    (hstart : q.kind = .startDataCall → m.opens q = false) :
    Reaction m (.messageReceived q) (m, [.rsp q.corrId (.ok data)])
  | opened {q : Request} {assigned : String} {pool : IfnamePool} (hkind : q.kind = .startDataCall)
    (hopens : m.opens q) (halloc : m.pool.allocate q.ifname = some (assigned, pool)) :
    Reaction m (.messageReceived q)
      ({ m with pool := pool }.scheduleCallConnect q.profileId
          ((CallSession.create q.profileId assigned).dispatch .connect),
        [.rsp q.corrId (.ok ⟨assigned, []⟩),
          .ind ((CallSession.create q.profileId assigned).dispatch .connect).toDataCallState])
  | stopped {q : Request} {c : CallSession} (hkind : q.kind = .stopDataCall)
    (hc : m.sessions.lookup q.profileId = some c) :
    Reaction m (.messageReceived q)
      (m.scheduleCallDisconnect q.profileId (c.dispatch .disconnect),
        [.rsp q.corrId (.ok ⟨"", []⟩), .ind (c.dispatch .disconnect).toDataCallState])
  | stale {t : CallTimer} {p : ℤ} (hc : m.status p ≠ some .connecting)
    (hgone : t = .disconnect → m.status p = none) : Reaction m (.timeout t p) (m, [])
  | connected {p : ℤ} {c : CallSession} (hc : m.sessions.lookup p = some c)
    (hconnecting : c.status = .connecting) :
    Reaction m (.timeout .connect p)
      (m.setSession p ({ c with timer := none, addr := m.addrInfo c.ifname }.dispatch .connected),
        [.ind ({ c with timer := none, addr := m.addrInfo c.ifname }.dispatch
          .connected).toDataCallState])
  | terminated {p : ℤ} {c : CallSession} (hc : m.sessions.lookup p = some c) :
    Reaction m (.timeout .disconnect p)
      (m.dropSession p (c.dispatch .terminate), [.ind (c.dispatch .terminate).toDataCallState])
  | missing {p : ℤ} (hgone : m.status p = none) : Reaction m (.forceCallDrop p) (m, [])
  | dropped {p : ℤ} {c : CallSession} (hc : m.sessions.lookup p = some c) :
    Reaction m (.forceCallDrop p)
      (m.dropSession p (c.dispatch .forceDrop), [.ind (c.dispatch .forceDrop).toDataCallState])

section Reactions

variable {m : DataConnectionAO}

theorem reaction_start {q : Request} (hlive : m.Live q.profileId) (hkind : q.kind = .startDataCall) :
    m.Reaction (.messageReceived q) (m.handleStart q) := by
  have hstop : q.kind = .stopDataCall → m.status q.profileId = none := by
    rw [hkind]
    exact fun h => by cases h
  unfold handleStart
  cases hc : m.sessions.lookup q.profileId with
  | some c =>
    have hstatus : m.status q.profileId = some c.status := by rw [status, hc]; rfl
    have hopens : q.kind = .startDataCall → m.opens q = false := by
      simp [opens, hstatus]
    rcases hlive c.status hstatus with h | h | h
    · simp only [h, true_or, if_true]
      exact .refused _ hopens hstop
    · simp only [h, reduceCtorEq, or_self, if_false, if_true]
      split
      · exact .refused _ hopens hstop
      · exact .answered (by rw [hkind]; decide) hopens
    · simp only [h, or_true, if_true]
      exact .refused _ hopens hstop
  | none =>
    dsimp only
    unfold openCall
    split
    · rename_i huse
      exact .refused _ (fun _ => by simp [opens, huse]) hstop
    · rename_i huse
      split
      · rename_i halloc
        exact .refused _ (fun _ => by simp [opens, halloc]) hstop
      · rename_i assigned pool halloc
        refine .opened hkind ?_ halloc
        have hfree : ¬ (q.ifname ≠ "" && m.pool.inUse.contains q.ifname) := by simpa using huse
        simp only [opens, status, hc, halloc, hfree]
        rfl

theorem reaction_stop {q : Request} (hlive : m.Live q.profileId) (hkind : q.kind = .stopDataCall) :
    m.Reaction (.messageReceived q) (m.handleStop q) := by
  have hstart : q.kind = .startDataCall → m.opens q = false := by
    rw [hkind]
    exact fun h => by cases h
  unfold handleStop
  split
  · rename_i hc
    exact .refused _ hstart (fun _ => by simp [status, hc])
  · rename_i c hc
    have hne : c.status ≠ .noNet := by
      rcases hlive c.status (by simp [status, hc]) with h | h | h <;> rw [h] <;> decide
    rw [if_neg hne]
    exact .stopped hkind hc

theorem reaction_connectTimer (p : ℤ) :
    m.Reaction (.timeout .connect p) (m.onConnectTimer p) := by
  unfold onConnectTimer
  split
  · rename_i hc
    exact .stale (by simp [status, hc]) (fun h => by cases h)
  · rename_i c hc
    split
    · rename_i hne
      exact .stale (by simpa [status, hc] using hne) (fun h => by cases h)
    · rename_i heq
      exact .connected hc (by simpa using heq)

theorem reaction_disconnectTimer (p : ℤ) :
    m.Reaction (.timeout .disconnect p) (m.onDisconnectTimer p) := by
  unfold onDisconnectTimer
  split
  · rename_i hc
    exact .stale (by simp [status, hc]) (fun _ => by simp [status, hc])
  · rename_i c hc
    exact .terminated hc

theorem reaction_drop {p : ℤ} (hlive : m.Live p) :
    m.Reaction (.forceCallDrop p) (m.applyForceCallDrop p) := by
  unfold applyForceCallDrop
  split
  · rename_i hc
    exact .missing (by simp [status, hc])
  · rename_i c hc
    have hne : c.status ≠ .noNet := by
      rcases hlive c.status (by simp [status, hc]) with h | h | h <;> rw [h] <;> decide
    rw [if_neg hne]
    exact .dropped hc

theorem reaction_dispatch (hlive : ∀ p, m.Live p) (e : MpssEvent) :
    m.Reaction e (m.dispatch e) := by
  cases e with
  | messageReceived q =>
    dsimp only [dispatch]
    split
    · rename_i hkind
      exact reaction_start (hlive q.profileId) hkind
    · rename_i hkind
      exact reaction_stop (hlive q.profileId) hkind
    · rename_i hkind
      exact .answered (by rw [hkind]; decide) (by rw [hkind]; exact fun h => by cases h)
  | timeout t p =>
    cases t with
    | connect => exact reaction_connectTimer p
    | disconnect => exact reaction_disconnectTimer p
  | forceCallDrop p => exact reaction_drop (hlive p)

end Reactions

/-- The names in use are those of the sessions, no two of which share one. -/
structure Pooled (m : DataConnectionAO) : Prop where
  keyed : m.Keyed
  live : ∀ p, m.Live p
  inUse : ∀ name, name ∈ m.pool.inUse ↔ ∃ p, ∃ c ∈ m.sessions.lookup p, c.ifname = name
  distinct : ∀ p q, ∀ c ∈ m.sessions.lookup p, ∀ d ∈ m.sessions.lookup q,
    c.ifname = d.ifname → p = q

theorem allocate_eq_some {requested name : String} {pool pool' : IfnamePool}
    (h : pool.allocate requested = some (name, pool')) :
    name ∉ pool.inUse ∧ pool'.inUse = name :: pool.inUse := by
  unfold IfnamePool.allocate at h
  split at h
  · split at h
    · cases h
    · rename_i hfree
      obtain ⟨rfl, rfl⟩ := Prod.mk.inj (Option.some.inj h)
      exact ⟨hfree, rfl⟩
  · obtain ⟨free, hfind, heq⟩ := Option.map_eq_some_iff.mp h
    obtain ⟨rfl, rfl⟩ := Prod.mk.inj heq
    exact ⟨by simpa using List.find?_some hfind, rfl⟩

section Pool

variable {m m' : DataConnectionAO} {p : ℤ} {c c' : CallSession}

theorem Pooled.of_same (hm : m.Pooled) (hsessions : m'.sessions = m.sessions)
    (hpool : m'.pool = m.pool) : m'.Pooled where
  keyed := by
    unfold Keyed
    rw [hsessions]
    exact hm.keyed
  live p := by
    unfold Live status
    rw [hsessions]
    exact hm.live p
  inUse := by
    rw [hsessions, hpool]
    exact hm.inUse
  distinct := by
    rw [hsessions]
    exact hm.distinct

theorem Pooled.status_live (hm : m.Pooled) (hc : m.sessions.lookup p = some c) :
    c.status = .connecting ∨ c.status = .connected ∨ c.status = .disconnecting :=
  hm.live p c.status (by rw [status, hc]; rfl)

theorem live_setSession (hm : ∀ q, m.Live q)
    (hlive : c.status = .connecting ∨ c.status = .connected ∨ c.status = .disconnecting) (q : ℤ) :
    (m.setSession p c).Live q := by
  intro s hs
  rw [status, lookup_setSession] at hs
  split at hs
  · obtain rfl : c.status = s := by simpa using hs
    exact hlive
  · exact hm q s hs

theorem Pooled.setSession (hm : m.Pooled) (hc : m.sessions.lookup p = some c)
    (hid : c'.profileId = c.profileId) (hname : c'.ifname = c.ifname)
    (hlive : c'.status = .connecting ∨ c'.status = .connected ∨ c'.status = .disconnecting) :
    (m.setSession p c').Pooled := by
  -- each session stands for one that was there, with the same name
  have hback : ∀ q, ∀ d ∈ (m.setSession p c').sessions.lookup q,
      ∃ d₀ ∈ m.sessions.lookup q, d.profileId = d₀.profileId ∧ d.ifname = d₀.ifname := by
    intro q d hd
    rw [lookup_setSession] at hd
    split at hd
    · rename_i hq
      obtain rfl := Option.mem_some_iff.mp hd
      exact ⟨c, hq ▸ hc, hid, hname⟩
    · exact ⟨d, hd, rfl, rfl⟩
  refine ⟨?_, live_setSession hm.live hlive, ?_, ?_⟩
  · intro q d hd
    obtain ⟨d₀, hd₀, hid', -⟩ := hback q d hd
    exact hid'.trans (hm.keyed q d₀ hd₀)
  · intro name
    refine (hm.inUse name).trans ⟨?_, ?_⟩
    · rintro ⟨q, d, hd, rfl⟩
      by_cases hq : q = p
      · subst hq
        obtain rfl := Option.mem_unique hc hd
        exact ⟨q, c', by rw [lookup_setSession, if_pos rfl]; rfl, hname⟩
      · exact ⟨q, d, by rw [lookup_setSession, if_neg hq]; exact hd, rfl⟩
    · rintro ⟨q, d, hd, rfl⟩
      obtain ⟨d₀, hd₀, -, hname'⟩ := hback q d hd
      exact ⟨q, d₀, hd₀, hname'.symm⟩
  · intro q r d hd e he hname'
    obtain ⟨d₀, hd₀, -, hdn⟩ := hback q d hd
    obtain ⟨e₀, he₀, -, hen⟩ := hback r e he
    exact hm.distinct q r d₀ hd₀ e₀ he₀ (hdn.symm.trans (hname'.trans hen))

theorem Pooled.open (hm : m.Pooled) {requested name : String} {pool : IfnamePool}
    (halloc : m.pool.allocate requested = some (name, pool)) (hfree : m.sessions.lookup p = none)
    (hid : c'.profileId = p) (hname : c'.ifname = name) (hlive : c'.status = .connecting) :
    ({ m with pool := pool }.setSession p c').Pooled := by
  obtain ⟨hunused, huse⟩ := allocate_eq_some halloc
  have hsessions : ∀ q, ({ m with pool := pool }.setSession p c').sessions.lookup q =
      if q = p then some c' else m.sessions.lookup q := fun q => lookup_setSession q p c' _
  have hold : ∀ q, ∀ d ∈ m.sessions.lookup q, q ≠ p ∧ d.ifname ≠ name := by
    intro q d hd
    refine ⟨?_, ?_⟩
    · rintro rfl
      rw [hfree] at hd
      cases hd
    · intro h
      exact hunused ((hm.inUse name).mpr ⟨q, d, hd, h⟩)
  have hcase : ∀ q, ∀ d ∈ ({ m with pool := pool }.setSession p c').sessions.lookup q,
      (q = p ∧ d = c') ∨ d ∈ m.sessions.lookup q := by
    intro q d hd
    rw [hsessions] at hd
    split at hd
    · rename_i hq
      exact .inl ⟨hq, (Option.mem_some_iff.mp hd).symm⟩
    · exact .inr hd
  refine ⟨?_, live_setSession (m := { m with pool := pool }) hm.live (.inl hlive), ?_, ?_⟩
  · intro q d hd
    rcases hcase q d hd with ⟨rfl, rfl⟩ | h
    · exact hid
    · exact hm.keyed q d h
  · intro n
    have hmem : n ∈ ({ m with pool := pool }.setSession p c').pool.inUse ↔
        n = name ∨ n ∈ m.pool.inUse := by
      change n ∈ pool.inUse ↔ _
      rw [huse, List.mem_cons]
    rw [hmem, hm.inUse]
    constructor
    · rintro (rfl | ⟨q, d, hd, rfl⟩)
      · exact ⟨p, c', by rw [hsessions, if_pos rfl]; rfl, hname⟩
      · exact ⟨q, d, by rw [hsessions, if_neg (hold q d hd).1]; exact hd, rfl⟩
    · rintro ⟨q, d, hd, rfl⟩
      rcases hcase q d hd with ⟨-, rfl⟩ | h
      · exact .inl hname
      · exact .inr ⟨q, d, h, rfl⟩
  · intro q r d hd e he hsame
    rcases hcase q d hd with ⟨rfl, rfl⟩ | h <;> rcases hcase r e he with ⟨rfl, rfl⟩ | h'
    · rfl
    · exact absurd (hsame.symm.trans hname) (hold r e h').2
    · exact absurd (hsame.trans hname) (hold q d h).2
    · exact hm.distinct q r d h e h' hsame

theorem Pooled.dropSession (hm : m.Pooled) (hc : m.sessions.lookup p = some c)
    (hname : c'.ifname = c.ifname) : (m.dropSession p c').Pooled := by
  have hcase : ∀ q, ∀ d ∈ (m.dropSession p c').sessions.lookup q,
      q ≠ p ∧ d ∈ m.sessions.lookup q := by
    intro q d hd
    rw [lookup_dropSession] at hd
    split at hd
    · cases hd
    · rename_i hq
      exact ⟨hq, hd⟩
  refine ⟨?_, ?_, ?_, ?_⟩
  · intro q d hd
    exact hm.keyed q d (hcase q d hd).2
  · intro q s hs
    rw [status, lookup_dropSession] at hs
    split at hs
    · cases hs
    · exact hm.live q s hs
  · intro n
    have hmem : n ∈ (m.dropSession p c').pool.inUse ↔ n ∈ m.pool.inUse ∧ n ≠ c.ifname := by
      simp [DataConnectionAO.dropSession, IfnamePool.release, hname]
    rw [hmem, hm.inUse]
    constructor
    · rintro ⟨⟨q, d, hd, rfl⟩, hne⟩
      have hq : q ≠ p := by
        rintro rfl
        exact hne (congrArg CallSession.ifname (Option.mem_unique hd hc))
      exact ⟨q, d, by rw [lookup_dropSession, if_neg hq]; exact hd, rfl⟩
    · rintro ⟨q, d, hd, rfl⟩
      obtain ⟨hq, hd⟩ := hcase q d hd
      exact ⟨⟨q, d, hd, rfl⟩, fun h => hq (hm.distinct q p d hd c hc h)⟩
  · intro q r d hd e he
    exact hm.distinct q r d (hcase q d hd).2 e (hcase r e he).2

/-- Scheduling sets the session's timer and may post an event. -/
theorem Pooled.schedule {t : CallTimer} {delayMs : ℕ}
    (hset : ∀ timer, (m.setSession p (c.setTimer timer)).Pooled) :
    (m.schedule t delayMs p c).Pooled := by
  unfold DataConnectionAO.schedule
  split
  · exact (hset none).of_same rfl rfl
  · exact hset (some t)

theorem Pooled.reaction {e : MpssEvent} {r : DataConnectionAO × List Message} (hm : m.Pooled)
    (h : m.Reaction e r) : r.1.Pooled := by
  cases h with
  | refused => exact hm
  | answered => exact hm
  | opened hkind hopens halloc =>
    rename_i q assigned pool
    simp only [opens, Bool.and_eq_true, Option.isNone_iff_eq_none, status,
      Option.map_eq_none_iff] at hopens
    exact Pooled.schedule (fun _ => hm.open halloc hopens.1.1 rfl rfl rfl)
  | stopped hkind hc =>
    rename_i q c
    refine Pooled.schedule (fun _ => hm.setSession hc rfl rfl ?_)
    rcases hm.status_live hc with h | h | h <;>
      simp [CallSession.dispatch, CallSession.setTimer, CallSession.chart, h]
  | stale => exact hm
  | connected hc hconnecting =>
    refine hm.setSession hc rfl rfl (.inr (.inl ?_))
    simp [CallSession.dispatch, CallSession.chart, hconnecting]
  | terminated hc => exact hm.dropSession hc rfl
  | missing => exact hm
  | dropped hc => exact hm.dropSession hc rfl

theorem Pooled.dispatch (hm : m.Pooled) (e : MpssEvent) : (m.dispatch e).1.Pooled :=
  hm.reaction (reaction_dispatch hm.live e)

theorem Pooled.elapse (hm : m.Pooled) (h : m.elapse p = some m') : m'.Pooled := by
  unfold DataConnectionAO.elapse at h
  split at h
  · cases h
  · rename_i c hc
    obtain ⟨t, -, rfl⟩ := Option.map_eq_some_iff.mp h
    have hset : (m.setSession p (c.setTimer none)).Pooled :=
      hm.setSession hc rfl rfl (hm.status_live hc : c.status = _ ∨ _)
    exact hset.of_same rfl rfl

theorem Pooled.forceDns (hm : m.Pooled) (p : ℤ) (patch : Option (String → String)) :
    (m.applyForceDns p patch).1.Pooled := by
  unfold applyForceDns
  split
  · exact hm
  · rename_i c hc
    split
    · exact hm
    · split
      · exact hm
      · rename_i f
        have hset : (m.setSession p { c with addr := c.addr.map f }).Pooled :=
          hm.setSession hc rfl rfl (hm.status_live hc : c.status = _ ∨ _)
        exact hset.of_same rfl rfl

theorem Pooled.step {l : Label} (hm : m.Pooled) (h : m.step l = some m') : m'.Pooled := by
  obtain ⟨r, hr, rfl⟩ := Option.map_eq_some_iff.mp h
  cases l with
  | handleMessage q =>
    obtain rfl := Option.some.inj hr
    exact hm.of_same rfl rfl
  | forceCallDrop q =>
    obtain rfl := Option.some.inj hr
    exact hm.of_same rfl rfl
  | onNetworkRatChanged =>
    obtain rfl := Option.some.inj hr
    exact hm
  | forceDns q patch =>
    obtain rfl := Option.some.inj hr
    exact hm.forceDns q patch
  | elapse q =>
    obtain ⟨m', hm', rfl⟩ := Option.map_eq_some_iff.mp hr
    exact hm.elapse hm'
  | handle =>
    simp only [react, handle] at hr
    split at hr
    · cases hr
    · rename_i e rest _
      obtain rfl := Option.some.inj hr
      have htail : ({ m with fifo := rest } : DataConnectionAO).Pooled := hm.of_same rfl rfl
      exact htail.dispatch e

theorem pooled_start (timing : CallTimingPreset) (stem : String) (poolSize : ℕ)
    (addrInfo : String → Option String) : (start timing stem poolSize addrInfo).Pooled := by
  have hnone : ∀ p, (start timing stem poolSize addrInfo).sessions.lookup p = none := fun _ => rfl
  refine ⟨?_, ?_, ?_, ?_⟩
  · intro p c hc
    rw [hnone] at hc
    cases hc
  · intro p s hs
    rw [status, hnone] at hs
    cases hs
  · intro name
    simp only [hnone]
    simp [start]
  · intro p q c hc
    rw [hnone] at hc
    cases hc

end Pool

/-- In every state reached the names in use are those of the sessions, no two sessions share a
name, every key is its session's profile, and every session is on its way up, up or on its way
down. -/
theorem pool_eq_sessions {timing : CallTimingPreset} {stem : String} {poolSize : ℕ}
    {addrInfo : String → Option String} {l : List Label} {m : DataConnectionAO}
    (hrun : Trace.run step (start timing stem poolSize addrInfo) l = some m) :
    {name | name ∈ m.pool.inUse} = {name | ∃ p, ∃ c ∈ m.sessions.lookup p, c.ifname = name} ∧
      (∀ p q, ∀ c ∈ m.sessions.lookup p, ∀ d ∈ m.sessions.lookup q,
        c.ifname = d.ifname → p = q) ∧
      (∀ p, ∀ c ∈ m.sessions.lookup p, c.profileId = p) ∧
      ∀ p, ∀ c ∈ m.sessions.lookup p,
        c.status = .connecting ∨ c.status = .connected ∨ c.status = .disconnecting := by
  have hm : m.Pooled := Trace.run_invariant (fun _ _ _ hs hstep => hs.step hstep) hrun
    (pooled_start timing stem poolSize addrInfo)
  refine ⟨Set.ext hm.inUse, hm.distinct, hm.keyed, ?_⟩
  intro p c hc
  exact hm.status_live hc

/-- One call is up, a second start is refused for want of a name, and a drop leaves the connect
event of a third call stale. -/
def dropRun : List Label :=
  [.handleMessage ⟨0, .startDataCall, 1, ""⟩, .handle, .handle,
    .handleMessage ⟨1, .startDataCall, 2, ""⟩, .handle,
    .handleMessage ⟨2, .startDataCall, 3, "eth0"⟩, .forceCallDrop 3, .handle, .handle, .handle]

theorem pool_eq_sessions_dropRun : ∃ m,
    Trace.run step (start ⟨0, 0⟩ "rmnet_data" 1 (fun _ => none)) dropRun = some m ∧
      m.pool.inUse = ["rmnet_data0"] ∧
      {name | name ∈ m.pool.inUse} = {name | ∃ p, ∃ c ∈ m.sessions.lookup p, c.ifname = name} := by
  have hrun : (Trace.run step (start ⟨0, 0⟩ "rmnet_data" 1 (fun _ => none)) dropRun).map
      (fun m => m.pool.inUse) = some ["rmnet_data0"] := by
    decide +kernel
  obtain ⟨m, hm, hpool⟩ := Option.map_eq_some_iff.mp hrun
  exact ⟨m, hm, hpool, (pool_eq_sessions hm).1⟩

end TelafSim.Mpss.DataConnectionAO
