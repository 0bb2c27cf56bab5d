import TelafSim.CallPool

/-!
# What becomes of each call session

The sessions of `DataConnectionAO` are numbered in the order they are opened, and a run keeps what
was published for each of them, the stops that were accepted, and the session for which each timer
event of the fifo was posted. The modem itself sees none of this: its events carry a profile.

A session that is removed has NO_NET as its last indication, and one whose stop was accepted stays
DISCONNECTING, if and only if no stop meets a call that is still connecting and no disconnect event
meets one that is connecting or up.
-/

namespace TelafSim.Mpss

open Data DataConnectionAO

structure CallHistory where
  ao : DataConnectionAO
  /-- How many sessions were opened. -/
  opened : ℕ
  /-- The session last opened for a profile. -/
  serial : ℤ → ℕ
  /-- For each event of the fifo, the session whose timer it is. -/
  posters : List (Option ℕ)
  /-- The indications, each with its session. -/
  inds : List (ℕ × CallStatus)
  /-- The sessions whose stop was answered with success. -/
  stops : List ℕ

namespace CallHistory

def begin (ao : DataConnectionAO) : CallHistory := ⟨ao, 0, fun _ => 0, [], [], []⟩

def opening (m : DataConnectionAO) : Label → Option ℤ
  | .handle =>
    match m.fifo.head? with
    | some (.messageReceived q) =>
      if q.kind = .startDataCall && m.opens q then some q.profileId else none
    | _ => none
  | _ => none

def stopping (m : DataConnectionAO) (out : List Message) : Label → Option ℤ
  | .handle =>
    match m.fifo.head? with
    | some (.messageReceived q) =>
      if q.kind = .stopDataCall && out.contains (.rsp q.corrId (.ok ⟨"", []⟩)) then
        some q.profileId
      else none
    | _ => none
  | _ => none

/-- The session whose timer an event is. -/
def poster (serial : ℤ → ℕ) : MpssEvent → Option ℕ
  | .timeout _ profileId => some (serial profileId)
  | _ => none

def taken : Label → ℕ
  | .handle => 1
  | _ => 0

def published (serial : ℤ → ℕ) : Message → Option (ℕ × CallStatus)
  | .ind data => some (serial data.profileId, data.status)
  | _ => none

def renumber (w : CallHistory) (l : Label) : ℤ → ℕ :=
  match opening w.ao l with
  | none => w.serial
  | some profileId => Function.update w.serial profileId w.opened

def record (w : CallHistory) (l : Label) (r : DataConnectionAO × List Message) : CallHistory where
  ao := r.1
  opened := w.opened + (opening w.ao l).toList.length
  serial := w.renumber l
  posters := w.posters.drop (taken l) ++
    (r.1.fifo.drop (w.ao.fifo.length - taken l)).map (poster (w.renumber l))
  inds := w.inds ++ r.2.filterMap (published (w.renumber l))
  stops := w.stops ++ (stopping w.ao r.2 l).toList.map (w.renumber l)

def step (w : CallHistory) (l : Label) : Option CallHistory := (w.ao.react l).map (w.record l)

theorem step_ao (w : CallHistory) (l : Label) :
    (w.step l).map (fun w => w.ao) = w.ao.step l := by
  unfold step DataConnectionAO.step
  rw [Option.map_map]
  rfl

theorem step_pooled {w w' : CallHistory} {l : Label} (hw : w.ao.Pooled)
    (hstep : w.step l = some w') : w'.ao.Pooled := by
  refine hw.step (l := l) ?_
  rw [← step_ao, hstep]
  rfl

/-- The status last published for a session. -/
def lastInd (s : ℕ) (w : CallHistory) : Option CallStatus :=
  ((w.inds.filter (fun x => x.1 = s)).getLast?).map (fun x => x.2)

def Standing (s : ℕ) (w : CallHistory) : Prop := ∃ p, w.ao.status p ≠ none ∧ w.serial p = s

/-- Every session that was removed was announced as NO_NET at the last, and one whose stop was
answered with success is DISCONNECTING for as long as it is there. -/
structure Announced (w : CallHistory) : Prop where
  ends : ∀ s < w.opened, ¬ w.Standing s → w.lastInd s = some .noNet
  stops : ∀ p, w.serial p ∈ w.stops → ∀ st ∈ w.ao.status p, st = .disconnecting

/-- No stop meets a call that is still connecting, and no disconnect event one that is connecting
or up. -/
def announces (w : CallHistory) : Label → Bool
  | .handle =>
    match w.ao.fifo.head? with
    | some (.messageReceived q) =>
      !(q.kind = .stopDataCall && w.ao.status q.profileId = some .connecting)
    | some (.timeout .disconnect p) =>
      !(w.ao.status p = some .connecting) && !(w.ao.status p = some .connected)
    | _ => true
  | _ => true

inductive Change (l : Label) (w w' : CallHistory) : Prop → Prop
  | still (hstatus : ∀ p, w'.ao.status p = w.ao.status p) (hserial : w'.serial = w.serial)
    (hopened : w'.opened = w.opened) (hstops : w'.stops = w.stops)
    (out : List (ℕ × CallStatus)) (hinds : w'.inds = w.inds ++ out)
    (hout : ∀ x ∈ out, w.Standing x.1) : Change l w w' True
  | opened (p : ℤ) (hopening : opening w.ao l = some p) (hfree : w.ao.status p = none)
    (hstatus : w'.ao.status = Function.update w.ao.status p (some .connecting))
    (hserial : w'.serial = Function.update w.serial p w.opened)
    (hopened : w'.opened = w.opened + 1) (hstops : w'.stops = w.stops)
    (hinds : w'.inds = w.inds ++ [(w.opened, .connecting)]) : Change l w w' True
  | stopped (p : ℤ) (st : CallStatus) (hst : w.ao.status p = some st)
    (hstatus : w'.ao.status = Function.update w.ao.status p (some (CallSession.chart st .disconnect)))
    (hserial : w'.serial = w.serial) (hopened : w'.opened = w.opened)
    (hstops : w'.stops = w.stops ++ [w.serial p])
    (hinds : w'.inds = w.inds ++ [(w.serial p, CallSession.chart st .disconnect)]) :
    Change l w w' (st ≠ .connecting)
  | connected (p : ℤ) (hst : w.ao.status p = some .connecting)
    (hstatus : w'.ao.status = Function.update w.ao.status p (some .connected))
    (hserial : w'.serial = w.serial) (hopened : w'.opened = w.opened)
    (hstops : w'.stops = w.stops) (hinds : w'.inds = w.inds ++ [(w.serial p, .connected)]) :
    Change l w w' True
  | ended (p : ℤ) (hst : w.ao.status p ≠ none)
    (hstatus : w'.ao.status = Function.update w.ao.status p none)
    (hserial : w'.serial = w.serial) (hopened : w'.opened = w.opened)
    (hstops : w'.stops = w.stops) (st : CallStatus)
    (hinds : w'.inds = w.inds ++ [(w.serial p, st)]) : Change l w w' (st = .noNet)

section Steps

variable {w w' : CallHistory} {l : Label} {m : DataConnectionAO} {out : List Message}

theorem record_plain (hopening : opening w.ao l = none) (hstopping : stopping w.ao out l = none)
    (hw' : w' = w.record l (m, out)) :
    w'.ao = m ∧ w'.serial = w.serial ∧ w'.opened = w.opened ∧ w'.stops = w.stops ∧
      w'.inds = w.inds ++ out.filterMap (published w.serial) := by
  subst hw'
  simp [record, renumber, hopening, hstopping]

theorem change_still (hopening : opening w.ao l = none) (hstopping : stopping w.ao out l = none)
    (hw' : w' = w.record l (m, out)) (hstatus : m.status = w.ao.status)
    (hout : ∀ data, .ind data ∈ out → w.ao.status data.profileId ≠ none) : Change l w w' True := by
  obtain ⟨hao, hserial, hopened, hstops, hinds⟩ := record_plain hopening hstopping hw'
  refine .still (fun p => by rw [hao]; exact congrFun hstatus p) hserial hopened hstops _ hinds ?_
  intro x hx
  obtain ⟨msg, hmsg, hpub⟩ := List.mem_filterMap.mp hx
  cases msg with
  | ind data =>
    obtain rfl := Option.some.inj hpub
    exact ⟨data.profileId, hout data hmsg, rfl⟩
  | rsp corrId rsp => cases hpub

theorem status_of_lookup {p : ℤ} {c : CallSession} (hc : m.sessions.lookup p = some c) :
    m.status p = some c.status := by
  rw [DataConnectionAO.status, hc]
  rfl

/-- A session leaves the table on the signal `sg`. -/
theorem change_ended {p : ℤ} {c : CallSession} {sg : CallSignal}
    (hopening : opening w.ao l = none)
    (hstopping : stopping w.ao [.ind (c.dispatch sg).toDataCallState] l = none)
    (hw' : w' = w.record l
      (m.dropSession p (c.dispatch sg), [.ind (c.dispatch sg).toDataCallState]))
    (hm : m.status = w.ao.status) (hst : w.ao.status p = some c.status) (hid : c.profileId = p) :
    Change l w w' (CallSession.chart c.status sg = .noNet) := by
  obtain ⟨hao, hserial, hopened, hstops, hinds⟩ := record_plain hopening hstopping hw'
  refine .ended p (by simp [hst]) ?_ hserial hopened hstops (CallSession.chart c.status sg) ?_
  · rw [hao, status_dropped, hm]
  · rw [hinds]
    simp [published, CallSession.toDataCallState, CallSession.dispatch, hid]

section Handle

variable {e : MpssEvent} {rest : List MpssEvent}

theorem opening_handle (hfifo : w.ao.fifo = e :: rest)
    (h : ∀ q, e = .messageReceived q → q.kind = .startDataCall → w.ao.opens q = false) :
    opening w.ao .handle = none := by
  cases e with
  | messageReceived q =>
    simp only [opening, hfifo, List.head?_cons, Bool.and_eq_true, decide_eq_true_eq,
      ite_eq_right_iff, reduceCtorEq, imp_false, not_and]
    intro hkind
    rw [h q rfl hkind]
    decide
  | _ => simp [opening, hfifo]

theorem stopping_handle (hfifo : w.ao.fifo = e :: rest)
    (h : ∀ q, e = .messageReceived q → q.kind = .stopDataCall → ∀ c d, .rsp c (.ok d) ∉ out) :
    stopping w.ao out .handle = none := by
  cases e with
  | messageReceived q =>
    simp only [stopping, hfifo, List.head?_cons, Bool.and_eq_true, decide_eq_true_eq,
      List.contains_eq_mem, ite_eq_right_iff, reduceCtorEq, imp_false, not_and]
    intro hkind
    exact h q rfl hkind _ _
  | _ => simp [stopping, hfifo]

theorem change_handle (hw : w.ao.Pooled) (hfifo : w.ao.fifo = e :: rest)
    (hw' : w' = w.record .handle ({ w.ao with fifo := rest }.dispatch e)) :
    ∃ ok, Change .handle w w' ok ∧ (w.announces .handle ↔ ok) := by
  have htail : ({ w.ao with fifo := rest } : DataConnectionAO).Pooled := hw.of_same rfl rfl
  have hreact := reaction_dispatch htail.live e
  generalize ({ w.ao with fifo := rest } : DataConnectionAO).dispatch e = r at hreact hw'
  cases hreact with
  | refused code hstart hstop =>
    rename_i q
    have hopening := opening_handle hfifo (by rintro _ ⟨⟩; exact hstart)
    refine ⟨_, change_still hopening (stopping_handle hfifo ?_) hw' rfl ?_, ?_⟩
    · simp [sendError]
    · simp [sendError]
    · simp only [announces, hfifo, List.head?_cons, iff_true]
      by_cases hkind : q.kind = .stopDataCall
      · have hnone : w.ao.status q.profileId = none := hstop hkind
        simp [hnone]
      · simp [hkind]
  | answered hkind hstart =>
    rename_i q data
    have hopening := opening_handle hfifo (by rintro _ ⟨⟩; exact hstart)
    refine ⟨_, change_still hopening (stopping_handle hfifo ?_) hw' rfl (by simp), ?_⟩
    · rintro _ ⟨⟩ h
      exact absurd h hkind
    · simp [announces, hfifo, hkind]
  | opened hkind hopens halloc =>
    rename_i q assigned pool
    have hopens : w.ao.opens q := hopens
    have hopening : opening w.ao .handle = some q.profileId := by
      simp [opening, hfifo, hkind, hopens]
    have hfree : w.ao.status q.profileId = none := by
      simp only [opens, Bool.and_eq_true, Option.isNone_iff_eq_none] at hopens
      exact hopens.1.1
    refine ⟨_, .opened q.profileId hopening hfree ?_ ?_ ?_ ?_ ?_, ?_⟩
    · rw [hw']
      exact status_scheduled _ _ _ _ _
    · simp [hw', record, renumber, hopening]
    · simp [hw', record, hopening]
    · simp [hw', record, stopping, hfifo, hkind]
    · simp [hw', record, renumber, hopening, List.filterMap_cons, published,
        CallSession.toDataCallState, CallSession.create, CallSession.dispatch, CallSession.chart]
    · simp [announces, hfifo, hkind]
  | stopped hkind hc =>
    rename_i q c
    have hst := status_of_lookup hc
    have hid : c.profileId = q.profileId := htail.keyed _ c hc
    have hopening := opening_handle hfifo (by rintro _ ⟨⟩ h; rw [hkind] at h; cases h)
    refine ⟨_, .stopped q.profileId c.status hst ?_ ?_ ?_ ?_ ?_, ?_⟩
    · rw [hw']
      exact status_scheduled _ _ _ _ _
    · simp [hw', record, renumber, hopening]
    · simp [hw', record, hopening]
    · simp [hw', record, renumber, hopening, stopping, hfifo, hkind]
    · simp [hw', record, renumber, hopening, List.filterMap_cons, published,
        CallSession.toDataCallState, CallSession.dispatch, hid]
    · have hst : w.ao.status q.profileId = some c.status := hst
      simp [announces, hfifo, hkind, hst]
  | stale hc hgone =>
    rename_i t p
    refine ⟨_, change_still (opening_handle hfifo (by simp)) (stopping_handle hfifo (by simp)) hw' rfl
      (by simp), ?_⟩
    cases t with
    | connect => simp [announces, hfifo]
    | disconnect =>
      have hnone : w.ao.status p = none := hgone rfl
      simp [announces, hfifo, hnone]
  | connected hc hconnecting =>
    rename_i p c
    have hid : c.profileId = p := htail.keyed _ c hc
    obtain ⟨hao, hserial, hopened, hstops, hinds⟩ := record_plain (opening_handle hfifo (by simp))
      (stopping_handle hfifo (by simp)) hw'
    refine ⟨_, .connected p ?_ ?_ hserial hopened hstops ?_, ?_⟩
    · rw [← hconnecting]
      exact status_of_lookup hc
    · rw [hao]
      refine (status_setSession _ _ _).trans ?_
      simp only [CallSession.dispatch, CallSession.chart, hconnecting]
      rfl
    · rw [hinds]
      simp [published, CallSession.toDataCallState, CallSession.dispatch, CallSession.chart, hid,
        hconnecting]
    · simp [announces, hfifo]
  | terminated hc =>
    rename_i p c
    have hst : w.ao.status p = some c.status := status_of_lookup hc
    refine ⟨_, change_ended (opening_handle hfifo (by simp)) (stopping_handle hfifo (by simp)) hw' rfl
      hst (htail.keyed _ c hc), ?_⟩
    rcases htail.status_live hc with h | h | h <;>
      simp [announces, hfifo, hst, h, CallSession.chart]
  | missing hgone =>
    rename_i p
    exact ⟨_, change_still (opening_handle hfifo (by simp)) (stopping_handle hfifo (by simp)) hw' rfl
      (by simp), by simp [announces, hfifo]⟩
  | dropped hc =>
    rename_i p c
    have hst : w.ao.status p = some c.status := status_of_lookup hc
    refine ⟨_, change_ended (opening_handle hfifo (by simp)) (stopping_handle hfifo (by simp)) hw' rfl
      hst (htail.keyed _ c hc), ?_⟩
    rcases htail.status_live hc with h | h | h <;>
      simp [announces, hfifo, h, CallSession.chart]

end Handle

theorem change_ratChanged (hw : w.ao.Pooled)
    (hw' : w' = w.record .onNetworkRatChanged w.ao.applyNetworkRatChanged) :
    Change .onNetworkRatChanged w w' True := by
  refine change_still rfl rfl hw' rfl ?_
  intro data hdata
  obtain ⟨⟨p, c⟩, hmem, hc⟩ := List.mem_map.mp hdata
  have hlookup : c ∈ w.ao.sessions.lookup p :=
    AList.mem_lookup_iff.mpr (List.mem_filter.mp hmem).1
  obtain rfl := Message.ind.inj hc
  change w.ao.status c.profileId ≠ none
  rw [hw.keyed p c hlookup, status_of_lookup hlookup]
  simp

theorem change_forceDns (hw : w.ao.Pooled) {p : ℤ} {patch : Option (String → String)}
    (hw' : w' = w.record (.forceDns p patch) (w.ao.applyForceDns p patch)) :
    Change (.forceDns p patch) w w' True := by
  unfold applyForceDns at hw'
  split at hw'
  · exact change_still rfl rfl hw' rfl (by simp)
  · rename_i c hc
    split at hw'
    · exact change_still rfl rfl hw' rfl (by simp)
    · split at hw'
      · exact change_still rfl rfl hw' rfl (by simp)
      · have hst := status_of_lookup hc
        refine change_still rfl rfl hw' ?_ ?_
        · refine (status_setSession _ _ _).trans ?_
          exact Function.update_eq_self_iff.mpr hst.symm
        · intro data hdata
          obtain rfl := Message.ind.inj (List.mem_singleton.mp hdata)
          change w.ao.status c.profileId ≠ none
          rw [hw.keyed p c hc, hst]
          simp

theorem step_change (hw : w.ao.Pooled) (hstep : w.step l = some w') :
    ∃ ok, Change l w w' ok ∧ (w.announces l ↔ ok) := by
  obtain ⟨r, hr, rfl⟩ := Option.map_eq_some_iff.mp hstep
  cases l with
  | handleMessage q =>
    obtain rfl := Option.some.inj hr
    exact ⟨_, change_still rfl rfl rfl rfl (by simp), by simp [announces]⟩
  | forceCallDrop q =>
    obtain rfl := Option.some.inj hr
    exact ⟨_, change_still rfl rfl rfl rfl (by simp), by simp [announces]⟩
  | onNetworkRatChanged =>
    obtain rfl := Option.some.inj hr
    exact ⟨_, change_ratChanged hw rfl, by simp [announces]⟩
  | forceDns q patch =>
    obtain rfl := Option.some.inj hr
    exact ⟨_, change_forceDns hw rfl, by simp [announces]⟩
  | elapse q =>
    obtain ⟨m', hm', rfl⟩ := Option.map_eq_some_iff.mp hr
    refine ⟨_, change_still rfl rfl rfl ?_ (by simp), by simp [announces]⟩
    funext p
    exact (elapse_frame hm' p).1
  | handle =>
    simp only [DataConnectionAO.react, handle] at hr
    split at hr
    · cases hr
    · rename_i e rest hfifo
      obtain rfl := Option.some.inj hr
      exact change_handle hw hfifo rfl

end Steps

structure Numbered (w : CallHistory) : Prop where
  pooled : w.ao.Pooled
  below : ∀ p, w.ao.status p ≠ none → w.serial p < w.opened
  distinct : ∀ p q, w.ao.status p ≠ none → w.ao.status q ≠ none → w.serial p = w.serial q → p = q
  stops : ∀ s ∈ w.stops, s < w.opened

section Changes

variable {l : Label} {w w' : CallHistory} {ok : Prop} {s : ℕ} {st : CallStatus}

theorem Numbered.of_same (hw : w.Numbered) (hpooled : w'.ao.Pooled)
    (hstatus : ∀ p, w'.ao.status p ≠ none → w.ao.status p ≠ none) (hserial : w'.serial = w.serial)
    (hopened : w'.opened = w.opened) (hstops : ∀ s ∈ w'.stops, s < w.opened) : w'.Numbered where
  pooled := hpooled
  below p hp := by
    rw [hserial, hopened]
    exact hw.below p (hstatus p hp)
  distinct p q hp hq := by
    rw [hserial]
    exact hw.distinct p q (hstatus p hp) (hstatus q hq)
  stops s hs := by
    rw [hopened]
    exact hstops s hs

theorem update_ne_none {f : ℤ → Option CallStatus} {p q : ℤ} {x : Option CallStatus}
    (hp : f p ≠ none) (h : Function.update f p x q ≠ none) : f q ≠ none := by
  by_cases hq : q = p
  · rw [hq]
    exact hp
  · rwa [Function.update_of_ne hq] at h

theorem Change.numbered (hw : w.Numbered) (hpooled : w'.ao.Pooled) (h : Change l w w' ok) :
    w'.Numbered := by
  cases h with
  | still hstatus hserial hopened hstops out hinds hout =>
    exact hw.of_same hpooled (fun p hp => hstatus p ▸ hp) hserial hopened (hstops ▸ hw.stops)
  | opened p hopening hfree hstatus hserial hopened hstops hinds =>
    -- the sessions that were there keep their numbers, below that of the new one
    have hcase : ∀ q, w'.ao.status q ≠ none →
        (q = p ∧ w'.serial q = w.opened) ∨
          (q ≠ p ∧ w'.serial q = w.serial q ∧ w.ao.status q ≠ none) := by
      intro q hq
      by_cases hqp : q = p
      · subst hqp
        exact .inl ⟨rfl, by rw [hserial, Function.update_self]⟩
      · have hq' := congrFun hstatus q
        rw [Function.update_of_ne hqp] at hq'
        exact .inr ⟨hqp, by rw [hserial, Function.update_of_ne hqp], hq' ▸ hq⟩
    refine ⟨hpooled, ?_, ?_, ?_⟩
    · intro q hq
      rcases hcase q hq with ⟨-, h⟩ | ⟨-, h, hold⟩
      · omega
      · have hlt := hw.below q hold
        omega
    · intro q r hq hr hsame
      rcases hcase q hq with ⟨rfl, h⟩ | ⟨hne, h, hold⟩ <;>
        rcases hcase r hr with ⟨rfl, h'⟩ | ⟨hne', h', hold'⟩
      · rfl
      · have hlt := hw.below r hold'
        omega
      · have hlt := hw.below q hold
        omega
      · exact hw.distinct q r hold hold' (by rw [← h, ← h', hsame])
    · intro s hs
      rw [hstops] at hs
      have hlt := hw.stops s hs
      omega
  | stopped p st hst hstatus hserial hopened hstops hinds =>
    have hp : w.ao.status p ≠ none := by simp [hst]
    refine hw.of_same hpooled (fun q hq => update_ne_none hp (congrFun hstatus q ▸ hq)) hserial
      hopened ?_
    intro s hs
    rw [hstops] at hs
    rcases List.mem_append.mp hs with hs | hs
    · exact hw.stops s hs
    · rw [List.mem_singleton.mp hs]
      exact hw.below p hp
  | connected p hst hstatus hserial hopened hstops hinds =>
    exact hw.of_same hpooled
      (fun q hq => update_ne_none (by simp [hst]) (congrFun hstatus q ▸ hq)) hserial hopened
      (hstops ▸ hw.stops)
  | ended p hst hstatus hserial hopened hstops st hinds =>
    exact hw.of_same hpooled (fun q hq => update_ne_none hst (congrFun hstatus q ▸ hq)) hserial
      hopened (hstops ▸ hw.stops)

theorem step_numbered (hw : w.Numbered) (hstep : w.step l = some w') : w'.Numbered := by
  obtain ⟨ok, hchange, -⟩ := step_change hw.pooled hstep
  exact hchange.numbered hw (step_pooled hw.pooled hstep)

/-- Only indications for session `s` count. -/
theorem lastInd_append {out : List (ℕ × CallStatus)} (hinds : w'.inds = w.inds ++ out)
    (hout : ∀ x ∈ out, x.1 ≠ s) : w'.lastInd s = w.lastInd s := by
  have hnil : out.filter (fun x => x.1 = s) = [] := by
    rw [List.filter_eq_nil_iff]
    intro x hx
    simpa using hout x hx
  rw [lastInd, lastInd, hinds, List.filter_append, hnil, List.append_nil]

theorem lastInd_snoc (hinds : w'.inds = w.inds ++ [(s, st)]) : w'.lastInd s = some st := by
  simp [lastInd, hinds]

theorem ends_of (hw : w.Announced) (hopened : w'.opened = w.opened)
    {out : List (ℕ × CallStatus)} (hinds : w'.inds = w.inds ++ out) (hs : s < w'.opened)
    (hgone : ¬ w.Standing s) (hout : ∀ x ∈ out, x.1 ≠ s) : w'.lastInd s = some .noNet := by
  rw [lastInd_append hinds hout]
  exact hw.ends s (hopened ▸ hs) hgone

theorem standing_update {p : ℤ} (hp : w.ao.status p ≠ none)
    (hstatus : w'.ao.status = Function.update w.ao.status p (some st))
    (hserial : w'.serial = w.serial) (s : ℕ) : w'.Standing s ↔ w.Standing s := by
  unfold Standing
  rw [hserial]
  refine exists_congr (fun q => and_congr_left' ?_)
  have hq := congrFun hstatus q
  by_cases hqp : q = p
  · subst hqp
    simp [hq, hp]
  · rw [hq, Function.update_of_ne hqp]

theorem stops_update (hw : w.Announced) {p : ℤ} {x : Option CallStatus}
    (hstatus : w'.ao.status = Function.update w.ao.status p x)
    (hstops : ∀ q, w.ao.status q ≠ none → q ≠ p → w'.serial q ∈ w'.stops → w.serial q ∈ w.stops)
    (hself : w'.serial p ∈ w'.stops → ∀ st ∈ x, st = .disconnecting) (q : ℤ)
    (hq : w'.serial q ∈ w'.stops) : ∀ st ∈ w'.ao.status q, st = .disconnecting := by
  intro st hst
  rw [congrFun hstatus q] at hst
  by_cases hqp : q = p
  · subst hqp
    rw [Function.update_self] at hst
    exact hself hq st hst
  · rw [Function.update_of_ne hqp] at hst
    have hne : w.ao.status q ≠ none := by
      rintro h
      rw [h] at hst
      cases hst
    exact hw.stops q (hstops q hne hqp hq) st hst

theorem Change.announced_opened (hn : w.Numbered) (hw : w.Announced) {p : ℤ}
    (hfree : w.ao.status p = none)
    (hstatus : w'.ao.status = Function.update w.ao.status p (some .connecting))
    (hserial : w'.serial = Function.update w.serial p w.opened)
    (hopened : w'.opened = w.opened + 1) (hstops : w'.stops = w.stops)
    (hinds : w'.inds = w.inds ++ [(w.opened, .connecting)]) : w'.Announced := by
  constructor
  · intro s hs hgone
    have hne : s ≠ w.opened := by
      rintro rfl
      exact hgone ⟨p, by simp [congrFun hstatus p], by rw [hserial, Function.update_self]⟩
    rw [lastInd_append hinds (by simpa using hne.symm)]
    refine hw.ends s (by omega) ?_
    rintro ⟨q, hq, rfl⟩
    have hqp : q ≠ p := by
      rintro rfl
      exact hq hfree
    refine hgone ⟨q, ?_, by rw [hserial, Function.update_of_ne hqp]⟩
    rw [congrFun hstatus q, Function.update_of_ne hqp]
    exact hq
  · intro q hq st hst
    rw [hstops] at hq
    by_cases hqp : q = p
    · subst hqp
      rw [hserial, Function.update_self] at hq
      exact absurd (hn.stops w.opened hq) (Nat.lt_irrefl _)
    · rw [hserial, Function.update_of_ne hqp] at hq
      rw [congrFun hstatus q, Function.update_of_ne hqp] at hst
      exact hw.stops q hq st hst

theorem Change.announced_stopped (hn : w.Numbered) (hw : w.Announced) {p : ℤ}
    (hst : w.ao.status p = some st)
    (hstatus : w'.ao.status =
      Function.update w.ao.status p (some (CallSession.chart st .disconnect)))
    (hserial : w'.serial = w.serial) (hopened : w'.opened = w.opened)
    (hstops : w'.stops = w.stops ++ [w.serial p])
    (hinds : w'.inds = w.inds ++ [(w.serial p, CallSession.chart st .disconnect)]) :
    st ≠ .connecting ↔ w'.Announced := by
  have hp : w.ao.status p ≠ none := by simp [hst]
  have hstop : w'.serial p ∈ w'.stops := by simp [hserial, hstops]
  constructor
  · intro hne
    constructor
    · intro s hs hgone
      rw [standing_update hp hstatus hserial] at hgone
      refine ends_of hw hopened hinds hs hgone ?_
      intro x hx
      rw [List.mem_singleton.mp hx]
      rintro rfl
      exact hgone ⟨p, hp, rfl⟩
    · refine stops_update hw hstatus ?_ ?_
      · intro q hq hqp hmem
        rw [hserial, hstops] at hmem
        rcases List.mem_append.mp hmem with h | h
        · exact h
        · exact absurd (hn.distinct q p hq hp (List.mem_singleton.mp h)) hqp
      · rintro - _ ⟨⟩
        rcases hn.pooled.live p st hst with h | h | h
        · exact absurd h hne
        · rw [h]
          rfl
        · rw [h]
          rfl
  · rintro h rfl
    have hmem : .connecting ∈ w'.ao.status p := by
      rw [congrFun hstatus p, Function.update_self]
      rfl
    exact absurd (h.stops p hstop _ hmem) (by decide)

theorem Change.announced_ended (hn : w.Numbered) (hw : w.Announced) {p : ℤ}
    (hp : w.ao.status p ≠ none) (hstatus : w'.ao.status = Function.update w.ao.status p none)
    (hserial : w'.serial = w.serial) (hopened : w'.opened = w.opened)
    (hstops : w'.stops = w.stops) (hinds : w'.inds = w.inds ++ [(w.serial p, st)]) :
    st = .noNet ↔ w'.Announced := by
  have hstanding : ∀ s, w.Standing s → s ≠ w.serial p → w'.Standing s := by
    rintro s ⟨q, hq, rfl⟩ hne
    have hqp : q ≠ p := by
      rintro rfl
      exact hne rfl
    exact ⟨q, by rw [congrFun hstatus q, Function.update_of_ne hqp]; exact hq, by rw [hserial]⟩
  constructor
  · rintro rfl
    constructor
    · intro s hs hgone
      by_cases hsp : s = w.serial p
      · rw [hsp]
        exact lastInd_snoc hinds
      · exact ends_of hw hopened hinds hs (fun h => hgone (hstanding s h hsp))
          (by simpa using Ne.symm hsp)
    · refine stops_update hw hstatus ?_ (fun _ _ h => by cases h)
      intro q _ _ h
      rwa [hserial, hstops] at h
  · intro h
    have hgone : ¬ w'.Standing (w.serial p) := by
      rintro ⟨q, hq, hsame⟩
      by_cases hqp : q = p
      · rw [hqp, congrFun hstatus p, Function.update_self] at hq
        exact hq rfl
      · rw [congrFun hstatus q, Function.update_of_ne hqp] at hq
        rw [hserial] at hsame
        exact hqp (hn.distinct q p hq hp hsame)
    have hlast := h.ends (w.serial p) (by rw [hopened]; exact hn.below p hp) hgone
    rw [lastInd_snoc hinds] at hlast
    exact Option.some.inj hlast

/-- A step keeps every session announced if and only if it says what it should. -/
theorem Change.announced (hn : w.Numbered) (hw : w.Announced) (h : Change l w w' ok) :
    ok ↔ w'.Announced := by
  cases h with
  | still hstatus hserial hopened hstops out hinds hout =>
    have hsame : w'.ao.status = w.ao.status := funext hstatus
    have hstanding : ∀ s, w'.Standing s ↔ w.Standing s := by
      intro s
      unfold Standing
      rw [hserial]
      exact exists_congr (fun q => by rw [hstatus q])
    rw [true_iff]
    constructor
    · intro s hs hgone
      rw [hstanding] at hgone
      refine ends_of hw hopened hinds hs hgone ?_
      rintro x hx rfl
      exact hgone (hout x hx)
    · intro q hq
      rw [hserial, hstops] at hq
      rw [hstatus q]
      exact hw.stops q hq
  | opened p hopening hfree hstatus hserial hopened hstops hinds =>
    rw [true_iff]
    exact announced_opened hn hw hfree hstatus hserial hopened hstops hinds
  | stopped p st hst hstatus hserial hopened hstops hinds =>
    exact announced_stopped hn hw hst hstatus hserial hopened hstops hinds
  | connected p hst hstatus hserial hopened hstops hinds =>
    have hp : w.ao.status p ≠ none := by simp [hst]
    rw [true_iff]
    constructor
    · intro s hs hgone
      rw [standing_update hp hstatus hserial] at hgone
      refine ends_of hw hopened hinds hs hgone ?_
      intro x hx
      rw [List.mem_singleton.mp hx]
      rintro rfl
      exact hgone ⟨p, hp, rfl⟩
    · refine stops_update hw hstatus ?_ ?_
      · intro q _ _ h
        rwa [hserial, hstops] at h
      · intro h
        rw [hserial, hstops] at h
        exact absurd (hw.stops p h .connecting hst) (by decide)
  | ended p hst hstatus hserial hopened hstops st hinds =>
    exact announced_ended hn hw hst hstatus hserial hopened hstops hinds

end Changes

theorem numbered_begin (timing : CallTimingPreset) (stem : String) (poolSize : ℕ)
    (addrInfo : String → Option String) :
    (begin (.start timing stem poolSize addrInfo)).Numbered where
  pooled := pooled_start timing stem poolSize addrInfo
  below _ hp := absurd rfl hp
  distinct _ _ hp := absurd rfl hp
  stops _ hs := by cases hs

/-- In a run of the modem every session that is removed has NO_NET as its last indication and every
session whose stop was accepted is DISCONNECTING until it is removed, in every state, if and only
if no stop is handled while its call is CONNECTING and no disconnect event while its profile's call
is CONNECTING or CONNECTED. -/
theorem announced_iff_announces {timing : CallTimingPreset} {stem : String} {poolSize : ℕ}
    {addrInfo : String → Option String} {l : List Label} {w : CallHistory}
    (hrun : Trace.run step (begin (.start timing stem poolSize addrInfo)) l = some w) :
    Trace.Always step Announced (begin (.start timing stem poolSize addrInfo)) l ↔
      Trace.AllSteps step (fun w l => w.announces l) (begin (.start timing stem poolSize addrInfo))
        l := by
  refine Trace.always_iff_allSteps (J := Numbered) (fun _ _ _ => step_numbered) ?_ hrun
    (numbered_begin timing stem poolSize addrInfo)
    ⟨fun s hs => absurd hs (Nat.not_lt_zero s), fun p h => by cases h⟩
  intro w l w' hn hw hstep
  obtain ⟨ok, hchange, hok⟩ := step_change hn.pooled hstep
  rw [hok]
  exact hchange.announced hn hw

/-- A modem that takes its time to connect and to disconnect. -/
def modem : DataConnectionAO := .start ⟨100, 100⟩ "rmnet_data" 2 (fun _ => none)

def stopRun : List Label :=
  [.handleMessage ⟨0, .startDataCall, 1, ""⟩, .handle, .elapse 1, .handle,
    .handleMessage ⟨1, .stopDataCall, 1, ""⟩, .handle, .elapse 1, .handle]

theorem announced_iff_announces_stopRun : ∃ w, Trace.run step (begin modem) stopRun = some w ∧
    w.opened = 1 ∧ w.ao.status 1 = none ∧ Trace.Always step Announced (begin modem) stopRun := by
  have hrun : (Trace.run step (begin modem) stopRun).map (fun w => (w.opened, w.ao.status 1)) =
      some (1, none) := by
    decide +kernel
  obtain ⟨w, hw, heq⟩ := Option.map_eq_some_iff.mp hrun
  obtain ⟨hopened, hstatus⟩ := Prod.mk.inj heq
  exact ⟨w, hw, hopened, hstatus, (announced_iff_announces hw).mpr (by decide +kernel)⟩

def earlyStopRun : List Label :=
  [.handleMessage ⟨0, .startDataCall, 1, ""⟩, .handle,
    .handleMessage ⟨1, .stopDataCall, 1, ""⟩, .handle]

/-- Its stop is answered with success and it stays CONNECTING; once its timer has fired it is gone,
last announced as CONNECTING. -/
theorem earlyStop_unannounced :
    (∃ w, Trace.run step (begin modem) earlyStopRun = some w ∧ w.serial 1 ∈ w.stops ∧
      w.ao.status 1 = some .connecting ∧ ¬ w.Announced) ∧
    ∃ w, Trace.run step (begin modem) (earlyStopRun ++ [.elapse 1, .handle]) = some w ∧
      w.opened = 1 ∧ w.ao.status 1 = none ∧ w.lastInd 0 = some .connecting := by
  constructor
  · have hrun : (Trace.run step (begin modem) earlyStopRun).map
        (fun w => (decide (w.serial 1 ∈ w.stops), w.ao.status 1)) =
          some (true, some .connecting) := by
      decide +kernel
    obtain ⟨w, hw, heq⟩ := Option.map_eq_some_iff.mp hrun
    obtain ⟨hstop, hstatus⟩ := Prod.mk.inj heq
    have hstop := of_decide_eq_true hstop
    exact ⟨w, hw, hstop, hstatus, fun h => absurd (h.stops 1 hstop _ hstatus) (by decide)⟩
  · have hrun : (Trace.run step (begin modem) (earlyStopRun ++ [.elapse 1, .handle])).map
        (fun w => (w.opened, w.ao.status 1, w.lastInd 0)) = some (1, none, some .connecting) := by
      decide +kernel
    obtain ⟨w, hw, heq⟩ := Option.map_eq_some_iff.mp hrun
    obtain ⟨hopened, heq⟩ := Prod.mk.inj heq
    obtain ⟨hstatus, hlast⟩ := Prod.mk.inj heq
    exact ⟨w, hw, hopened, hstatus, hlast⟩

end CallHistory

end TelafSim.Mpss
