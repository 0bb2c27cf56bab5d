import TelafSim.CallHistory

/-!
# Timer events and the sessions they were posted for

A timer event names a profile only, and one that is in the fifo cannot be cancelled. So an event of
a session that was dropped meets the next session of its profile, unless that session is opened
after the event was handled: as long as no session is opened for a profile with a timer event in the
fifo, every timer event acts on the session it was posted for.
-/

namespace TelafSim.Mpss

open Data DataConnectionAO

def MpssEvent.isTimeout (p : ℤ) : MpssEvent → Bool
  | .timeout _ q => q = p
  | _ => false

namespace DataConnectionAO

theorem schedule_fifo (t : CallTimer) (delayMs : ℕ) (p : ℤ) (c : CallSession)
    (m : DataConnectionAO) : ∃ new, (m.schedule t delayMs p c).fifo = m.fifo ++ new := by
  unfold schedule
  split
  · exact ⟨_, rfl⟩
  · exact ⟨[], (List.append_nil _).symm⟩

theorem reaction_fifo {m : DataConnectionAO} {e : MpssEvent} {r : DataConnectionAO × List Message}
    (h : m.Reaction e r) : ∃ new, r.1.fifo = m.fifo ++ new := by
  cases h with
  | opened => exact schedule_fifo _ _ _ _ _
  | stopped => exact schedule_fifo _ _ _ _ _
  | _ => exact ⟨[], (List.append_nil _).symm⟩

theorem elapse_fifo {m m' : DataConnectionAO} {p : ℤ} (h : m.elapse p = some m') :
    ∃ new, m'.fifo = m.fifo ++ new := by
  unfold elapse at h
  split at h
  · cases h
  · obtain ⟨t, -, rfl⟩ := Option.map_eq_some_iff.mp h
    exact ⟨_, rfl⟩

theorem applyForceDns_fifo (p : ℤ) (patch : Option (String → String)) (m : DataConnectionAO) :
    (m.applyForceDns p patch).1.fifo = m.fifo := by
  unfold applyForceDns
  split
  · rfl
  · split
    · rfl
    · split <;> rfl

theorem react_fifo {m : DataConnectionAO} {l : Label} {r : DataConnectionAO × List Message}
    (hm : m.Pooled) (h : m.react l = some r) :
    ∃ new, r.1.fifo = m.fifo.drop (CallHistory.taken l) ++ new := by
  cases l with
  | handleMessage q =>
    obtain rfl := Option.some.inj h
    exact ⟨_, rfl⟩
  | forceCallDrop q =>
    obtain rfl := Option.some.inj h
    exact ⟨_, rfl⟩
  | onNetworkRatChanged =>
    obtain rfl := Option.some.inj h
    exact ⟨[], (List.append_nil _).symm⟩
  | forceDns q patch =>
    obtain rfl := Option.some.inj h
    exact ⟨[], (applyForceDns_fifo q patch m).trans (List.append_nil _).symm⟩
  | elapse q =>
    obtain ⟨m', hm', rfl⟩ := Option.map_eq_some_iff.mp h
    exact elapse_fifo hm'
  | handle =>
    simp only [DataConnectionAO.react, handle] at h
    split at h
    · cases h
    · rename_i e rest hfifo
      obtain rfl := Option.some.inj h
      have htail : ({ m with fifo := rest } : DataConnectionAO).Pooled := hm.of_same rfl rfl
      obtain ⟨new, hnew⟩ := reaction_fifo (reaction_dispatch htail.live e)
      exact ⟨new, by rw [hnew, hfifo]; rfl⟩

end DataConnectionAO

namespace CallHistory

/-- A step opens no session for a profile with a timer event in the fifo. -/
def opensFresh (w : CallHistory) (l : Label) : Bool :=
  (opening w.ao l).all (fun p => !w.ao.fifo.any (MpssEvent.isTimeout p))

/-- A timer event that is not of the standing session leaves it alone and publishes nothing. -/
def OwnTimers (w : CallHistory) : Prop :=
  ∀ t p rest c w', w.ao.fifo = .timeout t p :: rest → w.ao.sessions.lookup p = some c →
    w.posters.head? ≠ some (some (w.serial p)) → w.step .handle = some w' →
    w'.ao.sessions.lookup p = some c ∧ w'.inds = w.inds

/-- Every timer event in the fifo is of the session that stands for its profile. -/
structure Tagged (w : CallHistory) : Prop where
  length : w.posters.length = w.ao.fifo.length
  own : ∀ x ∈ w.ao.fifo.zip w.posters, ∀ t p, x.1 = .timeout t p → w.ao.status p ≠ none →
    x.2 = some (w.serial p)

section Steps

variable {w w' : CallHistory} {l : Label}

theorem Change.standing {ok : Prop} (h : Change l w w' ok) {p : ℤ} (hp : w'.ao.status p ≠ none) :
    (w.ao.status p ≠ none ∧ w'.serial p = w.serial p) ∨ opening w.ao l = some p := by
  cases h with
  | still hstatus hserial _ _ _ _ _ =>
    exact .inl ⟨hstatus p ▸ hp, by rw [hserial]⟩
  | opened q hopening hfree hstatus hserial _ _ _ =>
    by_cases hpq : p = q
    · exact .inr (hpq ▸ hopening)
    · rw [congrFun hstatus p, Function.update_of_ne hpq] at hp
      exact .inl ⟨hp, by rw [hserial, Function.update_of_ne hpq]⟩
  | stopped q st hst hstatus hserial _ _ _ =>
    exact .inl ⟨update_ne_none (by simp [hst]) (congrFun hstatus p ▸ hp), by rw [hserial]⟩
  | connected q hst hstatus hserial _ _ _ =>
    exact .inl ⟨update_ne_none (by simp [hst]) (congrFun hstatus p ▸ hp), by rw [hserial]⟩
  | ended q hst hstatus hserial _ _ _ _ =>
    exact .inl ⟨update_ne_none hst (congrFun hstatus p ▸ hp), by rw [hserial]⟩

theorem step_tagged (hn : w.Numbered) (hw : w.Tagged) (hok : w.opensFresh l)
    (hstep : w.step l = some w') : w'.Tagged := by
  obtain ⟨ok, hchange, -⟩ := step_change hn.pooled hstep
  obtain ⟨r, hr, rfl⟩ := Option.map_eq_some_iff.mp hstep
  obtain ⟨new, hnew⟩ := react_fifo hn.pooled hr
  have hposters : (w.record l r).posters =
      w.posters.drop (taken l) ++ new.map (poster (w.record l r).serial) := by
    change w.posters.drop (taken l) ++ (r.1.fifo.drop _).map _ = _
    rw [hnew, ← List.length_drop, List.drop_left]
    rfl
  have hlen : (w.posters.drop (taken l)).length = (w.ao.fifo.drop (taken l)).length := by
    rw [List.length_drop, List.length_drop, hw.length]
  have hfifo : (w.record l r).ao.fifo = w.ao.fifo.drop (taken l) ++ new := hnew
  refine ⟨?_, ?_⟩
  · rw [hposters, hfifo, List.length_append, List.length_append, hlen, List.length_map]
  · intro x hx t p hxp hp
    rw [hposters, hfifo, List.zip_append hlen.symm] at hx
    rcases List.mem_append.mp hx with hx | hx
    · -- an event that was in the fifo: no session was opened for its profile
      have hold : x ∈ w.ao.fifo.zip w.posters := by
        rw [List.zip, ← List.drop_zipWith] at hx
        exact List.mem_of_mem_drop hx
      rcases hchange.standing hp with ⟨hstood, hserial⟩ | hopening
      · rw [hserial]
        exact hw.own x hold t p hxp hstood
      · have hmem : MpssEvent.timeout t p ∈ w.ao.fifo := hxp ▸ (List.of_mem_zip hold).1
        simp only [opensFresh, hopening, Option.all_some, Bool.not_eq_true',
          List.any_eq_false] at hok
        exact absurd (decide_eq_true rfl) (hok _ hmem)
    · have hzip : new.zip (new.map (poster (w.record l r).serial)) =
          new.map (fun e => (e, poster (w.record l r).serial e)) := by
        simpa using List.zip_map' (f := id) (g := poster (w.record l r).serial) (l := new)
      rw [hzip, List.mem_map] at hx
      obtain ⟨e, -, rfl⟩ := hx
      obtain rfl : e = .timeout t p := hxp
      rfl

theorem Tagged.ownTimers (hw : w.Tagged) : w.OwnTimers := by
  intro t p rest c w' hfifo hc hforeign
  exfalso
  apply hforeign
  cases hposters : w.posters with
  | nil =>
    have hlen := hw.length
    rw [hposters, hfifo] at hlen
    cases hlen
  | cons x posters =>
    have hmem : (MpssEvent.timeout t p, x) ∈ w.ao.fifo.zip w.posters := by
      rw [hfifo, hposters]
      exact List.mem_cons_self
    have hx : x = some (w.serial p) := hw.own _ hmem t p rfl (by simp [status_of_lookup hc])
    rw [List.head?_cons, hx]

end Steps

/-- In a run in which no session is opened for a profile with a timer event in the fifo, a timer
event never changes, removes or publishes another session than the one it was posted for, whatever
the delays are. -/
theorem ownTimers_of_opensFresh {timing : CallTimingPreset} {stem : String} {poolSize : ℕ}
    {addrInfo : String → Option String} {l : List Label} {w : CallHistory}
    (hok : Trace.AllSteps step (fun w l => w.opensFresh l)
      (begin (.start timing stem poolSize addrInfo)) l)
    (hrun : Trace.run step (begin (.start timing stem poolSize addrInfo)) l = some w) :
    w.OwnTimers := by
  obtain ⟨-, hw⟩ := Trace.run_invariant_of (I := fun w => w.Numbered ∧ w.Tagged)
    (fun _ _ _ h hok hstep => ⟨step_numbered h.1 hstep, step_tagged h.1 h.2 hok hstep⟩) hok hrun
    ⟨numbered_begin timing stem poolSize addrInfo, rfl, fun _ h => by cases h⟩
  exact hw.ownTimers

/-- A call is dropped with its disconnect event in the fifo, and the next one is opened after that
event was handled. -/
def reopenRun : List Label :=
  [.handleMessage ⟨0, .startDataCall, 1, ""⟩, .handle, .elapse 1, .handle,
    .handleMessage ⟨1, .stopDataCall, 1, ""⟩, .handle, .forceCallDrop 1, .elapse 1, .handle, .handle,
    .handleMessage ⟨2, .startDataCall, 1, ""⟩, .handle, .elapse 1]

theorem ownTimers_reopenRun : ∃ w, Trace.run step (begin modem) reopenRun = some w ∧
    w.opened = 2 ∧ w.ao.fifo = [.timeout .connect 1] ∧ w.OwnTimers := by
  have hrun : (Trace.run step (begin modem) reopenRun).map (fun w => (w.opened, w.ao.fifo)) =
      some (2, [.timeout .connect 1]) := by
    decide +kernel
  obtain ⟨w, hw, heq⟩ := Option.map_eq_some_iff.mp hrun
  obtain ⟨hopened, hfifo⟩ := Prod.mk.inj heq
  exact ⟨w, hw, hopened, hfifo, ownTimers_of_opensFresh (by decide +kernel) hw⟩

def staleRun : List Label :=
  [.handleMessage ⟨0, .startDataCall, 1, ""⟩, .handle, .elapse 1, .handle,
    .handleMessage ⟨1, .stopDataCall, 1, ""⟩, .handle, .forceCallDrop 1,
    .handleMessage ⟨2, .startDataCall, 1, ""⟩, .elapse 1, .handle, .handle]

theorem stale_removes_next : ∃ w w', Trace.run step (begin modem) staleRun = some w ∧
    w.ao.fifo = [.timeout .disconnect 1] ∧ w.posters = [some 0] ∧ w.serial 1 = 1 ∧
    w.ao.status 1 = some .connecting ∧ w.step .handle = some w' ∧ w'.ao.status 1 = none ∧
    ¬ w.OwnTimers := by
  have hrun : (Trace.run step (begin modem) staleRun).map
      (fun w => decide (w.ao.fifo = [.timeout .disconnect 1] ∧ w.posters = [some 0] ∧
        w.serial 1 = 1 ∧ w.ao.status 1 = some .connecting ∧
        (w.step .handle).map (fun w' => w'.ao.status 1) = some none)) = some true := by
    decide +kernel
  obtain ⟨w, hw, heq⟩ := Option.map_eq_some_iff.mp hrun
  obtain ⟨hfifo, hposters, hserial, hstatus, hnext⟩ := of_decide_eq_true heq
  obtain ⟨w', hstep, hgone⟩ := Option.map_eq_some_iff.mp hnext
  refine ⟨w, w', hw, hfifo, hposters, hserial, hstatus, hstep, hgone, ?_⟩
  intro h
  obtain ⟨c, hc, -⟩ := status_eq_some.mp hstatus
  obtain ⟨hkept, -⟩ := h .disconnect 1 [] c w' hfifo hc (by simp [hposters, hserial]) hstep
  rw [status_of_lookup hkept] at hgone
  cases hgone

end CallHistory

end TelafSim.Mpss
