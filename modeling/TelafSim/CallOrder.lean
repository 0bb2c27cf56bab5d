import TelafSim.CallCache
import TelafSim.Trace

/-!
# The cache does not go back

Each stream brings the calls of a phone in the order of their indices. The two streams are not
ordered with each other: an indication of the last call, say its ENDED, can be taken from the fifo
after the response for the next call was handled, and a response can be handled after an indication
of a later call. `findOrCreateCall_` takes every index that differs from the cached one for a new
call, so it puts the older call back and ends the newer one. The cache goes forward exactly in the
runs without such an overtaking, and in those a call is ended only by a message of its own or by
the call that comes after it.
-/

namespace TelafSim.PaCall

open Ecall (WireCall EcallManagerAO Publication)

def Forward (log : List Happening) : Prop :=
  ∀ p old new, .replaced p old new ∈ log → old < new

/-- A call is ended by a message with its index, or when a newer call has replaced it. -/
def OwnEnds (log : List Happening) : Prop :=
  ∀ i cause, .ended i cause ∈ log →
    cause = .message i ∨ ∃ j, cause = .replacement j ∧ i < j

def Ordered (l : List WireCall) : Prop :=
  l.Pairwise (fun a b => a.phoneId = b.phoneId → a.callIndex ≤ b.callIndex)

def isLatest (l : List WireCall) (c : WireCall) : Bool :=
  l.all (fun d => d.phoneId ≠ c.phoneId || d.callIndex ≤ c.callIndex)

namespace SimulaCallManager

variable {m m' : SimulaCallManager} {c : WireCall} {r : Running}

def replacing (c : WireCall) (m : SimulaCallManager) : List Happening :=
  match m.calls c.phoneId with
  | none => []
  | some call =>
    if call.callIndex = c.callIndex then [] else [.replaced c.phoneId call.callIndex c.callIndex]

/-- A thread that handles a message is about its call, and ends what the call has replaced. -/
structure Fits (log : List Happening) (r : Running) : Prop where
  call : r.call.callIndex = r.msg.callIndex
  stale : ∀ stale, r.stale = some stale →
    ∃ p, .replaced p stale.callIndex r.call.callIndex ∈ log

theorem Fits.append {log : List Happening} (h : Fits log r) (new : List Happening) :
    Fits (log ++ new) r := by
  refine ⟨h.call, ?_⟩
  intro stale hstale
  obtain ⟨p, hp⟩ := h.stale stale hstale
  exact ⟨p, List.mem_append_left new hp⟩

structure Finds (c : WireCall) (m : SimulaCallManager) (x : Running × SimulaCallManager) :
    Prop where
  callIndex : x.1.call.callIndex = c.callIndex
  fits : Fits x.2.log x.1
  calls : x.2.calls = Function.update m.calls c.phoneId (some x.1.call)
  log : x.2.log = m.log ++ m.replacing c
  fifo : x.2.fifo = m.fifo
  ao : x.2.ao = m.ao
  bridge : x.2.bridge = m.bridge
  indsTaken : x.2.indsTaken = m.indsTaken
  rspsHandled : x.2.rspsHandled = m.rspsHandled

theorem finds_findOrCreateCall (c : WireCall) (m : SimulaCallManager) :
    Finds c m (m.findOrCreateCall c) := by
  unfold findOrCreateCall
  split
  · rename_i hnone
    have hlog : m.log = m.log ++ m.replacing c := by simp [replacing, hnone]
    exact ⟨rfl, ⟨rfl, by simp⟩, rfl, hlog, rfl, rfl, rfl, rfl, rfl⟩
  · rename_i call hsome
    by_cases hindex : call.callIndex = c.callIndex
    · rw [if_pos hindex]
      have hlog : m.log = m.log ++ m.replacing c := by simp [replacing, hsome, hindex]
      exact ⟨hindex, ⟨hindex, by simp⟩, (Function.update_eq_self_iff.mpr hsome.symm).symm, hlog,
        rfl, rfl, rfl, rfl, rfl⟩
    · rw [if_neg hindex]
      have hlog : m.replacing c = [.replaced c.phoneId call.callIndex c.callIndex] := by
        simp [replacing, hsome, hindex]
      refine ⟨rfl, ⟨rfl, ?_⟩, rfl, by rw [hlog], rfl, rfl, rfl, rfl, rfl⟩
      intro stale hstale
      obtain ⟨-, hsame⟩ := Option.ite_none_right_eq_some.mp hstale
      obtain rfl := Option.some.inj hsame
      exact ⟨c.phoneId, List.mem_append_right _ (List.mem_singleton_self _)⟩

/-- The cache is what the messages say that were taken in. -/
structure Cached (m : SimulaCallManager) : Prop where
  origin : ∀ p call, m.calls p = some call →
    ∃ c ∈ m.indsTaken ++ m.rspsHandled, c.phoneId = p ∧ c.callIndex = call.callIndex
  latest : Forward m.log → ∀ c ∈ m.indsTaken ++ m.rspsHandled,
    ∃ call, m.calls c.phoneId = some call ∧ c.callIndex ≤ call.callIndex
  ao : ∀ r, m.ao = some r → Fits m.log r
  bridge : ∀ r, m.bridge = some r → Fits m.log r
  ends : ∀ i cause, .ended i cause ∈ m.log →
    cause = .message i ∨ ∃ p j, cause = .replacement j ∧ .replaced p i j ∈ m.log

theorem Cached.ownEnds (h : m.Cached) (hforward : Forward m.log) : OwnEnds m.log := by
  intro i cause hmem
  obtain hown | ⟨p, j, hcause, hreplaced⟩ := h.ends i cause hmem
  · exact .inl hown
  · exact .inr ⟨j, hcause, hforward p i j hreplaced⟩

theorem Cached.frame (h : m.Cached) (ready : Bool) (fifo : List AoEvent) :
    ({ m with ready := ready, fifo := fifo } : SimulaCallManager).Cached :=
  ⟨h.origin, h.latest, h.ao, h.bridge, h.ends⟩

theorem forward_append {log new : List Happening} :
    Forward (log ++ new) ↔ Forward log ∧ Forward new := by
  simp only [Forward, List.mem_append]
  constructor
  · intro h
    exact ⟨fun p old new hmem => h p old new (.inl hmem),
      fun p old new hmem => h p old new (.inr hmem)⟩
  · rintro ⟨hlog, hnew⟩ p old new (hmem | hmem)
    · exact hlog p old new hmem
    · exact hnew p old new hmem

theorem forward_replacing : Forward (m.replacing c) ↔
    ∀ call, m.calls c.phoneId = some call → call.callIndex ≤ c.callIndex := by
  unfold replacing Forward
  cases hcall : m.calls c.phoneId with
  | none => simp
  | some call =>
    by_cases hindex : call.callIndex = c.callIndex
    · simp [hindex]
    · simp only [if_neg hindex, List.mem_singleton, Happening.replaced.injEq, Option.some.injEq,
        forall_eq']
      constructor
      · intro h
        exact (h _ _ _ ⟨rfl, rfl, rfl⟩).le
      · rintro hle p old new ⟨-, rfl, rfl⟩
        exact lt_of_le_of_ne hle hindex

theorem ended_notMem_replacing {i : ℕ} {cause : EndCause} : .ended i cause ∉ m.replacing c := by
  unfold replacing
  split
  · exact List.not_mem_nil
  · split
    · exact List.not_mem_nil
    · simp

structure Takes (c : WireCall) (m m' : SimulaCallManager) : Prop where
  calls : ∃ call, call.callIndex = c.callIndex ∧
    m'.calls = Function.update m.calls c.phoneId (some call)
  log : m'.log = m.log ++ m.replacing c
  taken : ∀ d, d ∈ m'.indsTaken ++ m'.rspsHandled ↔ d ∈ m.indsTaken ++ m.rspsHandled ∨ d = c
  ao : ∀ r, m'.ao = some r → m.ao = some r ∨ Fits m'.log r
  bridge : ∀ r, m'.bridge = some r → m.bridge = some r ∨ Fits m'.log r

theorem takes_handleStartRsp (c : WireCall) (m : SimulaCallManager) :
    Takes c m (m.handleStartRsp c) := by
  have hfinds := finds_findOrCreateCall c m
  refine ⟨⟨_, hfinds.callIndex, hfinds.calls⟩, hfinds.log, ?_, ?_, ?_⟩
  · intro d
    simp only [handleStartRsp, hfinds.indsTaken, List.mem_append, List.mem_singleton, or_assoc]
  · intro r hr
    exact .inl (hfinds.ao.symm.trans hr)
  · intro r hr
    obtain rfl := Option.some.inj hr
    exact .inr hfinds.fits

theorem takes_handleCallState (c : WireCall) (m : SimulaCallManager) :
    Takes c m (m.handleCallState c) := by
  have hfinds := finds_findOrCreateCall c m
  refine ⟨⟨_, hfinds.callIndex, hfinds.calls⟩, hfinds.log, ?_, ?_, ?_⟩
  · intro d
    simp only [handleCallState, hfinds.rspsHandled, List.mem_append, List.mem_singleton]
    exact or_right_comm
  · intro r hr
    obtain rfl := Option.some.inj hr
    exact .inr hfinds.fits
  · intro r hr
    exact .inl (hfinds.bridge.symm.trans hr)

theorem Cached.takes (h : m.Cached) (ht : Takes c m m') : m'.Cached := by
  obtain ⟨new, hnew, hcalls⟩ := ht.calls
  refine ⟨?_, ?_, ?_, ?_, ?_⟩
  · intro p call hcall
    rw [hcalls] at hcall
    by_cases hp : p = c.phoneId
    · subst hp
      rw [Function.update_self] at hcall
      obtain rfl := Option.some.inj hcall
      exact ⟨c, (ht.taken c).mpr (.inr rfl), rfl, hnew.symm⟩
    · rw [Function.update_of_ne hp] at hcall
      obtain ⟨d, hd, hphone, hindex⟩ := h.origin p call hcall
      exact ⟨d, (ht.taken d).mpr (.inl hd), hphone, hindex⟩
  · intro hforward d hd
    rw [ht.log, forward_append, forward_replacing] at hforward
    rw [hcalls]
    by_cases hp : d.phoneId = c.phoneId
    · rw [hp, Function.update_self]
      refine ⟨new, rfl, ?_⟩
      rcases (ht.taken d).mp hd with hd | rfl
      · obtain ⟨call, hcall, hle⟩ := h.latest hforward.1 d hd
        rw [hp] at hcall
        exact (hle.trans (hforward.2 call hcall)).trans hnew.ge
      · exact hnew.ge
    · rw [Function.update_of_ne hp]
      rcases (ht.taken d).mp hd with hd | rfl
      · exact h.latest hforward.1 d hd
      · exact absurd rfl hp
  · intro r hr
    rcases ht.ao r hr with hold | hfits
    · rw [ht.log]
      exact (h.ao r hold).append _
    · exact hfits
  · intro r hr
    rcases ht.bridge r hr with hold | hfits
    · rw [ht.log]
      exact (h.bridge r hold).append _
    · exact hfits
  · intro i cause hmem
    rw [ht.log] at hmem ⊢
    rcases List.mem_append.mp hmem with hmem | hmem
    · obtain hown | ⟨p, j, hcause, hreplaced⟩ := h.ends i cause hmem
      · exact .inl hown
      · exact .inr ⟨p, j, hcause, List.mem_append_left _ hreplaced⟩
    · exact absurd hmem ended_notMem_replacing

theorem isLatest_iff {l : List WireCall} :
    isLatest l c = true ↔ ∀ d ∈ l, d.phoneId = c.phoneId → d.callIndex ≤ c.callIndex := by
  unfold isLatest
  rw [List.all_eq_true]
  refine forall₂_congr (fun d _ => ?_)
  simp [← imp_iff_not_or]

/-- The cache goes on forward with a message if and only if no newer one was taken in. -/
theorem Cached.forward_iff (h : m.Cached) (hforward : Forward m.log) (ht : Takes c m m') :
    Forward m'.log ↔ isLatest m.indsTaken c = true ∧ isLatest m.rspsHandled c = true := by
  have hboth : Forward m'.log ↔ ∀ d ∈ m.indsTaken ++ m.rspsHandled, d.phoneId = c.phoneId →
      d.callIndex ≤ c.callIndex := by
    rw [ht.log, forward_append, forward_replacing, and_iff_right hforward]
    constructor
    · intro hle d hd hphone
      obtain ⟨call, hcall, hindex⟩ := h.latest hforward d hd
      rw [hphone] at hcall
      exact hindex.trans (hle call hcall)
    · intro hle call hcall
      obtain ⟨d, hd, hphone, hindex⟩ := h.origin c.phoneId call hcall
      rw [← hindex]
      exact hle d hd hphone
  rw [hboth, List.forall_mem_append, isLatest_iff, isLatest_iff]

theorem proceed_spec (hfits : Fits m.log r) : ∃ states new,
    (m.proceed r).2 = { m with states := states, log := m.log ++ new } ∧
      (∀ r', (m.proceed r).1 = some r' → Fits m.log r') ∧
      ∀ x ∈ new, ∃ i cause, x = .ended i cause ∧
        (cause = .message i ∨ ∃ p j, cause = .replacement j ∧ .replaced p i j ∈ m.log) := by
  unfold proceed
  split
  · rename_i stale hstale
    refine ⟨_, _, rfl, ?_, ?_⟩
    · intro r' hr'
      obtain rfl := Option.some.inj hr'
      exact ⟨hfits.call, by simp⟩
    · intro x hx
      rw [if_pos rfl] at hx
      obtain rfl := List.mem_singleton.mp hx
      obtain ⟨p, hp⟩ := hfits.stale stale hstale
      exact ⟨_, _, rfl, .inr ⟨p, _, rfl, hp⟩⟩
  · refine ⟨_, _, rfl, by simp, ?_⟩
    intro x hx
    split at hx
    · obtain rfl := List.mem_singleton.mp hx
      exact ⟨_, _, rfl, .inl (by rw [hfits.call])⟩
    · cases hx

theorem Cached.ends_append (h : m.Cached) (states : ℕ → CallState) {new : List Happening}
    {ao bridge : Option Running}
    (hnew : ∀ x ∈ new, ∃ i cause, x = .ended i cause ∧
      (cause = .message i ∨ ∃ p j, cause = .replacement j ∧ .replaced p i j ∈ m.log))
    (hao : ∀ r, ao = some r → Fits m.log r) (hbridge : ∀ r, bridge = some r → Fits m.log r) :
    ({ m with states := states, log := m.log ++ new, ao := ao, bridge := bridge } :
      SimulaCallManager).Cached ∧ (Forward (m.log ++ new) ↔ Forward m.log) := by
  have hforward : Forward (m.log ++ new) ↔ Forward m.log := by
    rw [forward_append]
    refine and_iff_left ?_
    intro p old young hmem
    obtain ⟨i, cause, heq, -⟩ := hnew _ hmem
    cases heq
  refine ⟨⟨h.origin, fun hlog => h.latest (hforward.mp hlog), fun r hr => (hao r hr).append _,
    fun r hr => (hbridge r hr).append _, ?_⟩, hforward⟩
  intro i cause hmem
  have hcause : cause = .message i ∨ ∃ p j, cause = .replacement j ∧ .replaced p i j ∈ m.log := by
    rcases List.mem_append.mp hmem with hmem | hmem
    · exact h.ends i cause hmem
    · obtain ⟨i', cause', heq, hown⟩ := hnew _ hmem
      obtain ⟨rfl, rfl⟩ := Happening.ended.inj heq
      exact hown
  obtain hown | ⟨p, j, hreplaced, hlog⟩ := hcause
  · exact .inl hown
  · exact .inr ⟨p, j, hreplaced, List.mem_append_left _ hlog⟩

theorem handle_idle {e : AoEvent} (h : ∀ c, e = .callStateEvt c → m.ready ≠ true) :
    ∃ ready, m.handle e = { m with ready := ready } := by
  cases e with
  | callStateEvt c => exact ⟨m.ready, if_neg (h c rfl)⟩
  | readinessEvt status =>
    simp only [handle]
    split_ifs <;> exact ⟨_, rfl⟩
  | bridgeConnectivityChanged operational =>
    simp only [handle]
    split_ifs <;> exact ⟨_, rfl⟩

end SimulaCallManager

def AoEvent.callState : AoEvent → Option WireCall
  | .callStateEvt c => some c
  | _ => none

namespace CallNet

def rspStream (n : CallNet) : List WireCall := n.pa.rspsHandled ++ n.rsps

def indStream (n : CallNet) : List WireCall :=
  n.pa.indsTaken ++ (n.pa.fifo.filterMap AoEvent.callState ++ n.inds)

/-- Neither stream overtakes the other: a response is handled when no indication of a newer call of
the phone was taken in, and an indication is taken in when no response for a newer call of the phone
was handled. -/
def inOrder (n : CallNet) : Label → Bool
  | .startRsp =>
    match n.rsps with
    | c :: _ => isLatest n.pa.indsTaken c
    | [] => true
  | .dispatch =>
    match n.pa.fifo with
    | .callStateEvt c :: _ => !n.pa.ready || isLatest n.pa.rspsHandled c
    | _ => true
  | _ => true

/-- What the modem has told is in order, and its calls are not older than what it has told. -/
structure Wired (n : CallNet) : Prop where
  index : ∀ p s, n.modem.sessions p = some s → s.callIndex < n.modem.callIndexSeq
  rsps : Ordered n.rspStream
  inds : Ordered n.indStream
  bound : ∀ c ∈ n.rspStream ++ n.indStream, c.callIndex < n.modem.callIndexSeq ∧
    ∀ s, n.modem.sessions c.phoneId = some s → c.callIndex ≤ s.callIndex

structure Kept (n : CallNet) : Prop where
  wired : n.Wired
  cached : n.pa.Cached

section Steps

variable {n n' : CallNet} {l : Label} {c : WireCall}

theorem started_kept (isNgEcallDevice : Bool) : (started isNgEcallDevice).Kept := by
  refine ⟨⟨?_, List.Pairwise.nil, List.Pairwise.nil, ?_⟩, ⟨?_, ?_, ?_, ?_, ?_⟩⟩
  · intro p s hs
    cases hs
  · intro c hc
    cases hc
  all_goals simp [started, SimulaCallManager.started]

theorem Wired.sublist (h : n.Wired) (hmodem : n'.modem = n.modem)
    (hrsps : n'.rspStream.Sublist n.rspStream) (hinds : n'.indStream.Sublist n.indStream) :
    n'.Wired := by
  refine ⟨?_, List.Pairwise.sublist hrsps h.rsps, List.Pairwise.sublist hinds h.inds, ?_⟩
  · rw [hmodem]
    exact h.index
  · rw [hmodem]
    intro c hc
    exact h.bound c ((hrsps.append hinds).subset hc)

theorem ordered_append {old new : List WireCall} (hold : Ordered old) (hnew : Ordered new)
    (h : ∀ a ∈ old, ∀ b ∈ new, a.phoneId = b.phoneId → a.callIndex ≤ b.callIndex) :
    Ordered (old ++ new) :=
  List.pairwise_append.mpr ⟨hold, hnew, h⟩

theorem Wired.tells (h : n.Wired) (new : List WireCall) (hrsps : n'.rspStream = n.rspStream)
    (hinds : n'.indStream = n.indStream ++ new)
    (hseq : n'.modem.callIndexSeq = n.modem.callIndexSeq)
    (hkept : ∀ {p s'}, n'.modem.sessions p = some s' →
      ∃ s, n.modem.sessions p = some s ∧ s'.callIndex = s.callIndex)
    (hnew : ∀ c ∈ new, ∃ s, n.modem.sessions c.phoneId = some s ∧ s.callIndex = c.callIndex) :
    n'.Wired := by
  have hsame : ∀ a ∈ new, ∀ b ∈ new, a.phoneId = b.phoneId → a.callIndex ≤ b.callIndex := by
    intro a ha b hb hphone
    obtain ⟨s, hs, hindex⟩ := hnew a ha
    obtain ⟨s', hs', hindex'⟩ := hnew b hb
    rw [hphone] at hs
    obtain rfl := Option.some.inj (hs.symm.trans hs')
    exact (hindex.symm.trans hindex').le
  refine ⟨?_, ?_, ?_, ?_⟩
  · intro p s' hs'
    obtain ⟨s, hs, hindex⟩ := hkept hs'
    rw [hseq, hindex]
    exact h.index p s hs
  · rw [hrsps]
    exact h.rsps
  · rw [hinds]
    refine ordered_append h.inds (List.pairwise_of_forall_mem_list hsame) ?_
    intro a ha b hb hphone
    obtain ⟨s, hs, hindex⟩ := hnew b hb
    rw [← hindex]
    exact (h.bound a (List.mem_append_right _ ha)).2 s (hphone ▸ hs)
  · rw [hrsps, hinds, hseq, ← List.append_assoc]
    intro c hc
    rcases List.mem_append.mp hc with hc | hc
    · refine ⟨(h.bound c hc).1, ?_⟩
      intro s' hs'
      obtain ⟨s, hs, hindex⟩ := hkept hs'
      rw [hindex]
      exact (h.bound c hc).2 s hs
    · obtain ⟨s, hs, hindex⟩ := hnew c hc
      refine ⟨?_, ?_⟩
      · rw [← hindex]
        exact h.index _ s hs
      · intro s' hs'
        obtain ⟨s₀, hs₀, hindex'⟩ := hkept hs'
        obtain rfl := Option.some.inj (hs.symm.trans hs₀)
        rw [hindex', hindex]

theorem Wired.opens (h : n.Wired) (hopens : EcallManagerAO.Opens c n.modem n'.modem)
    (hrsps : n'.rspStream = n.rspStream ++ [c]) (hinds : n'.indStream = n.indStream) :
    n'.Wired := by
  obtain ⟨s₀, hs₀, hindex₀⟩ := hopens.found
  have hbound : ∀ d ∈ n.rspStream ++ n.indStream, d.callIndex < n.modem.callIndexSeq :=
    fun d hd => (h.bound d hd).1
  refine ⟨?_, ?_, ?_, ?_⟩
  · intro p s hs
    rw [hopens.callIndexSeq]
    by_cases hp : p = c.phoneId
    · subst hp
      obtain rfl := Option.some.inj (hs₀.symm.trans hs)
      omega
    · rw [hopens.others hp] at hs
      exact (h.index p s hs).trans (Nat.lt_succ_self _)
  · rw [hrsps]
    refine ordered_append h.rsps (List.pairwise_singleton _ _) ?_
    intro a ha b hb _
    obtain rfl := List.mem_singleton.mp hb
    rw [hopens.callIndex]
    exact (hbound a (List.mem_append_left _ ha)).le
  · rw [hinds]
    exact h.inds
  · rw [hrsps, hinds, hopens.callIndexSeq]
    intro d hd
    have hd' : d ∈ n.rspStream ++ n.indStream ∨ d = c := by
      simp only [List.mem_append, List.mem_singleton] at hd ⊢
      tauto
    rcases hd' with hd' | rfl
    · have hlt := hbound d hd'
      refine ⟨by omega, ?_⟩
      intro s hs
      by_cases hp : d.phoneId = c.phoneId
      · rw [hp] at hs
        obtain rfl := Option.some.inj (hs₀.symm.trans hs)
        omega
      · rw [hopens.others hp] at hs
        exact (h.bound d hd').2 s hs
    · have hindex := hopens.callIndex
      refine ⟨by omega, ?_⟩
      intro s hs
      obtain rfl := Option.some.inj (hs₀.symm.trans hs)
      omega

theorem Wired.modem (h : n.Wired) {l : EcallManagerAO.Label} (hstep : n.step (.modem l) = some n') :
    n'.Wired ∧ n'.pa = n.pa := by
  obtain ⟨modem, hmodem, rfl⟩ := Option.map_eq_some_iff.mp hstep
  refine ⟨?_, rfl⟩
  rcases EcallManagerAO.step_told hmodem with ⟨htells, hseq⟩ | ⟨c, hopens⟩
  · obtain ⟨new, hnew, htold⟩ := htells.published
    have hdrop : modem.published.drop n.modem.published.length = new := by
      rw [hnew, List.drop_left]
    have hrsps : new.filterMap Publication.startRsp = [] :=
      List.filterMap_eq_nil_iff.mpr (fun x hx => (htold x hx).1)
    refine h.tells (new.filterMap Publication.callStateInd) ?_ ?_ hseq htells.kept ?_
    · simp [rspStream, hdrop, hrsps]
    · simp [indStream, hdrop]
    · intro c hc
      obtain ⟨x, hx, hxc⟩ := List.mem_filterMap.mp hc
      exact (htold x hx).2 c hxc
  · obtain ⟨x, hpub, hrsp, hind⟩ := hopens.published
    have hdrop : modem.published.drop n.modem.published.length = [x] := by
      rw [hpub, List.drop_left]
    refine h.opens hopens ?_ ?_
    · simp [rspStream, hdrop, hrsp]
    · simp [indStream, hdrop, hind]

/-- Everything a step can do: the modem works; messages and events move along, and the cache stays
as it is; a thread takes in a message; a thread goes on. -/
theorem step_cases (h : n.step l = some n') :
    (∃ l₀, l = .modem l₀) ∨
    (n.inOrder l = true ∧ n'.modem = n.modem ∧ n'.rspStream.Sublist n.rspStream ∧
      n'.indStream.Sublist n.indStream ∧ ∃ ready fifo,
        n'.pa = { n.pa with ready := ready, fifo := fifo }) ∨
    (∃ c rest, l = .startRsp ∧ n.rsps = c :: rest ∧
      n' = { n with rsps := rest, pa := n.pa.handleStartRsp c }) ∨
    (∃ c rest, l = .dispatch ∧ n.pa.ready = true ∧ n.pa.fifo = .callStateEvt c :: rest ∧
      n' = { n with pa := { n.pa with fifo := rest }.handleCallState c }) ∨
    (∃ r, n.inOrder l = true ∧
      (n.pa.ao = some r ∧
        n' = { n with pa := { (n.pa.proceed r).2 with ao := (n.pa.proceed r).1 } } ∨
      n.pa.bridge = some r ∧
        n' = { n with pa := { (n.pa.proceed r).2 with bridge := (n.pa.proceed r).1 } })) := by
  cases l with
  | modem l₀ => exact .inl ⟨l₀, rfl⟩
  | startRsp =>
    simp only [step] at h
    split at h
    · rename_i c rest hrsps hbridge
      exact .inr (.inr (.inl ⟨c, rest, rfl, hrsps, (Option.some.inj h).symm⟩))
    · cases h
  | loseRsp =>
    obtain rfl := Option.some.inj h
    refine .inr (.inl ⟨rfl, rfl, ?_, List.Sublist.refl _, _, _, rfl⟩)
    exact (List.Sublist.refl _).append (List.tail_sublist _)
  | callStateInd =>
    simp only [step] at h
    split at h
    · rename_i c rest hinds hbridge
      obtain rfl := Option.some.inj h
      refine .inr (.inl ⟨rfl, rfl, List.Sublist.refl _, ?_, _, _, rfl⟩)
      simp [indStream, SimulaCallManager.postFifo, AoEvent.callState, hinds]
    · cases h
  | loseInd =>
    obtain rfl := Option.some.inj h
    refine .inr (.inl ⟨rfl, rfl, List.Sublist.refl _, ?_, _, _, rfl⟩)
    exact (List.Sublist.refl _).append ((List.Sublist.refl _).append (List.tail_sublist _))
  | readinessInd status =>
    obtain rfl := Option.some.inj h
    refine .inr (.inl ⟨rfl, rfl, List.Sublist.refl _, ?_, _, _, rfl⟩)
    simp [indStream, SimulaCallManager.postFifo, AoEvent.callState]
  | connectivity operational =>
    obtain rfl := Option.some.inj h
    refine .inr (.inl ⟨rfl, rfl, List.Sublist.refl _, ?_, _, _, rfl⟩)
    simp [indStream, SimulaCallManager.postFifo, AoEvent.callState]
  | dispatch =>
    simp only [step] at h
    split at h
    · rename_i e rest hfifo hao
      obtain rfl := Option.some.inj h
      by_cases htaken : ∃ c, e = .callStateEvt c ∧ n.pa.ready = true
      · obtain ⟨c, rfl, hready⟩ := htaken
        refine .inr (.inr (.inr (.inl ⟨c, rest, rfl, hready, hfifo, ?_⟩)))
        simp [SimulaCallManager.handle, hready]
      · -- an event that is not taken in only leaves the fifo
        obtain ⟨ready, hhandle⟩ := SimulaCallManager.handle_idle
          (m := { n.pa with fifo := rest }) (fun c hc hready => htaken ⟨c, hc, hready⟩)
        refine .inr (.inl ⟨?_, rfl, ?_, ?_, ready, rest, hhandle⟩)
        · simp only [inOrder, hfifo]
          cases e with
          | callStateEvt c =>
            have hready : n.pa.ready = false := by simpa using htaken
            simp [hready]
          | _ => rfl
        · rw [rspStream, hhandle]
          exact List.Sublist.refl _
        · rw [indStream, indStream, hhandle, hfifo]
          refine (List.Sublist.refl _).append (List.Sublist.append ?_ (List.Sublist.refl _))
          exact (List.sublist_cons_self e rest).filterMap AoEvent.callState
    · cases h
  | proceedAo =>
    obtain ⟨r, hr, rfl⟩ := Option.map_eq_some_iff.mp h
    exact .inr (.inr (.inr (.inr ⟨r, rfl, .inl ⟨hr, rfl⟩⟩)))
  | proceedBridge =>
    obtain ⟨r, hr, rfl⟩ := Option.map_eq_some_iff.mp h
    exact .inr (.inr (.inr (.inr ⟨r, rfl, .inr ⟨hr, rfl⟩⟩)))

theorem Kept.startRsp (hk : n.Kept) {rest : List WireCall} (hrsps : n.rsps = c :: rest) :
    ({ n with rsps := rest, pa := n.pa.handleStartRsp c } : CallNet).Kept ∧
      isLatest n.pa.rspsHandled c = true := by
  have htakes := SimulaCallManager.takes_handleStartRsp c n.pa
  have hfinds := SimulaCallManager.finds_findOrCreateCall c n.pa
  refine ⟨⟨hk.wired.sublist rfl ?_ ?_, hk.cached.takes htakes⟩, ?_⟩
  · simp [rspStream, SimulaCallManager.handleStartRsp, hrsps]
  · simp [indStream, SimulaCallManager.handleStartRsp, hfinds.indsTaken, hfinds.fifo]
  · rw [SimulaCallManager.isLatest_iff]
    have hordered := hk.wired.rsps
    rw [rspStream, hrsps] at hordered
    intro d hd
    exact (List.pairwise_append.mp hordered).2.2 d hd c List.mem_cons_self

theorem Kept.callState (hk : n.Kept) {rest : List AoEvent}
    (hfifo : n.pa.fifo = .callStateEvt c :: rest) :
    ({ n with pa := { n.pa with fifo := rest }.handleCallState c } : CallNet).Kept ∧
      isLatest n.pa.indsTaken c = true := by
  have htakes := SimulaCallManager.takes_handleCallState c { n.pa with fifo := rest }
  have hfinds := SimulaCallManager.finds_findOrCreateCall c { n.pa with fifo := rest }
  have hcached := (hk.cached.frame n.pa.ready rest).takes htakes
  refine ⟨⟨hk.wired.sublist rfl ?_ ?_, hcached⟩, ?_⟩
  · simp [rspStream, SimulaCallManager.handleCallState, hfinds.rspsHandled]
  · simp [indStream, SimulaCallManager.handleCallState, hfinds.fifo, hfifo, AoEvent.callState]
  · rw [SimulaCallManager.isLatest_iff]
    have hordered := hk.wired.inds
    rw [indStream, hfifo] at hordered
    intro d hd
    exact (List.pairwise_append.mp hordered).2.2 d hd c List.mem_cons_self

theorem step_kept (hk : n.Kept) (hstep : n.step l = some n') :
    n'.Kept ∧ (Forward n.pa.log → (n.inOrder l = true ↔ Forward n'.pa.log)) ∧
      (Forward n'.pa.log → Forward n.pa.log) := by
  rcases step_cases hstep with ⟨l₀, rfl⟩ | ⟨hok, hmodem, hrsps, hinds, ready, fifo, hpa⟩ |
    ⟨c, rest, rfl, hrsps, rfl⟩ | ⟨c, rest, rfl, hready, hfifo, rfl⟩ | ⟨r, hok, hruns⟩
  · obtain ⟨hwired, hpa⟩ := hk.wired.modem hstep
    rw [hpa]
    exact ⟨⟨hwired, hpa ▸ hk.cached⟩, fun h => iff_of_true rfl h, id⟩
  · have hcached : n'.pa.Cached := by
      rw [hpa]
      exact hk.cached.frame ready fifo
    have hlog : n'.pa.log = n.pa.log := by rw [hpa]
    rw [hlog]
    exact ⟨⟨hk.wired.sublist hmodem hrsps hinds, hcached⟩, fun h => iff_of_true hok h, id⟩
  · obtain ⟨hkept, hown⟩ := hk.startRsp hrsps
    have htakes := SimulaCallManager.takes_handleStartRsp c n.pa
    refine ⟨hkept, ?_, ?_⟩
    · intro hforward
      rw [hk.cached.forward_iff hforward htakes, inOrder, hrsps]
      exact (and_iff_left hown).symm
    · intro hforward
      rw [htakes.log, SimulaCallManager.forward_append] at hforward
      exact hforward.1
  · obtain ⟨hkept, hown⟩ := hk.callState hfifo
    have htakes := SimulaCallManager.takes_handleCallState c { n.pa with fifo := rest }
    have hcached := hk.cached.frame n.pa.ready rest
    refine ⟨hkept, ?_, ?_⟩
    · intro hforward
      rw [hcached.forward_iff hforward htakes, inOrder, hfifo]
      simp [hready, hown]
    · intro hforward
      rw [htakes.log, SimulaCallManager.forward_append] at hforward
      exact hforward.1
  · have hfits : SimulaCallManager.Fits n.pa.log r := by
      rcases hruns with ⟨hr, -⟩ | ⟨hr, -⟩
      · exact hk.cached.ao r hr
      · exact hk.cached.bridge r hr
    obtain ⟨states, new, hproceed, hrest, hnew⟩ := SimulaCallManager.proceed_spec hfits
    obtain ⟨ao, bridge, hpa, hao, hbridge⟩ : ∃ ao bridge, n' = { n with pa := { n.pa with
        states := states, log := n.pa.log ++ new, ao := ao, bridge := bridge } } ∧
        (∀ r, ao = some r → SimulaCallManager.Fits n.pa.log r) ∧
        ∀ r, bridge = some r → SimulaCallManager.Fits n.pa.log r := by
      rcases hruns with ⟨-, rfl⟩ | ⟨-, rfl⟩
      · exact ⟨_, _, by rw [hproceed], hrest, hk.cached.bridge⟩
      · exact ⟨_, _, by rw [hproceed], hk.cached.ao, hrest⟩
    obtain ⟨hcached, hforward⟩ := hk.cached.ends_append states hnew hao hbridge
    subst hpa
    refine ⟨⟨hk.wired.sublist rfl (List.Sublist.refl _) (List.Sublist.refl _), hcached⟩, ?_, ?_⟩
    · intro h
      exact iff_of_true hok (hforward.mpr h)
    · exact hforward.mp

/-- In every run, the cache never goes back and every call is ended by a message of its own or by a
newer call that replaces it, if and only if neither stream of messages overtakes the other. -/
theorem forward_iff_inOrder (isNgEcallDevice : Bool) (ls : List Label) (n : CallNet)
    (hrun : Trace.run step (started isNgEcallDevice) ls = some n) :
    (Forward n.pa.log ∧ OwnEnds n.pa.log) ↔
      Trace.AllSteps step (fun n l => n.inOrder l = true) (started isNgEcallDevice) ls := by
  have hk : n.Kept := Trace.run_invariant (fun _ _ _ hk hstep => (step_kept hk hstep).1) hrun
    (started_kept isNgEcallDevice)
  rw [Trace.allSteps_iff (I := fun n => Forward n.pa.log)
    (fun _ _ _ hk hstep => (step_kept hk hstep).1)
    (fun _ _ _ hk hforward hstep => (step_kept hk hstep).2.1 hforward)
    (fun _ _ _ hk hnot hstep hforward => hnot ((step_kept hk hstep).2.2 hforward)) hrun
    (started_kept isNgEcallDevice) (fun _ _ _ hmem => by cases hmem)]
  exact ⟨And.left, fun hforward => ⟨hforward, hk.cached.ownEnds hforward⟩⟩

def startEcall (corrId : ℕ) : List Label :=
  [.modem (.handleMessage corrId (.startEcall 1 .test true "" "")), .modem .handle]

/-- A call that was ended; its ENDED is the last event in the fifo. -/
def firstCall : List Label :=
  [.readinessInd (some "AVAILABLE"), .dispatch] ++ startEcall 1 ++
    [.startRsp, .proceedBridge, .modem .handle, .modem (.handleMessage 2 (.endEcall 1 1)),
      .modem .handle, .callStateInd, .callStateInd, .callStateInd, .callStateInd, .dispatch,
      .proceedAo, .dispatch, .proceedAo, .dispatch, .proceedAo]

def orderlyRun : List Label :=
  firstCall ++ [.dispatch, .proceedAo] ++ startEcall 3 ++ [.startRsp, .proceedBridge]

def overtakenRun : List Label :=
  firstCall ++ startEcall 3 ++
    [.startRsp, .proceedBridge, .proceedBridge, .dispatch, .proceedAo, .proceedAo]

theorem forward_orderlyRun :
    ∃ n, Trace.run step (started true) orderlyRun = some n ∧
      n.pa.log = [.ended 1 (.message 1), .replaced 1 1 2] ∧
      Forward n.pa.log ∧ OwnEnds n.pa.log := by
  have hrun : (Trace.run step (started true) orderlyRun).any (fun n =>
      n.pa.log = [.ended 1 (.message 1), .replaced 1 1 2]) = true := by
    decide +kernel
  simp only [Option.any_eq_true, decide_eq_true_eq] at hrun
  obtain ⟨n, hn, hlog⟩ := hrun
  exact ⟨n, hn, hlog, (forward_iff_inOrder true orderlyRun n hn).mpr (by decide +kernel)⟩

/-- The first call takes the place of the second, which is ended although it goes on. -/
theorem late_ended_goes_back :
    ∃ n, Trace.run step (started true) overtakenRun = some n ∧
      .replaced 1 2 1 ∈ n.pa.log ∧ .ended 2 (.replacement 1) ∈ n.pa.log ∧
      ¬ Forward n.pa.log ∧ ¬ OwnEnds n.pa.log := by
  have hrun : (Trace.run step (started true) overtakenRun).any (fun n =>
      .replaced 1 2 1 ∈ n.pa.log && .ended 2 (.replacement 1) ∈ n.pa.log) = true := by
    decide +kernel
  simp only [Option.any_eq_true, Bool.and_eq_true, decide_eq_true_eq] at hrun
  obtain ⟨n, hn, hreplaced, hended⟩ := hrun
  refine ⟨n, hn, hreplaced, hended, ?_, ?_⟩
  · intro hforward
    exact absurd (hforward 1 2 1 hreplaced) (by decide)
  · intro hown
    rcases hown 2 _ hended with hmsg | ⟨j, hcause, hlt⟩
    · cases hmsg
    · obtain rfl := EndCause.replacement.inj hcause
      exact absurd hlt (by decide)

end Steps

end CallNet

end TelafSim.PaCall
