import TelafSim.StartUp

/-!
# What start-up delivers

Until Ready is entered every event the object holds stands in the order of its arrival, the
deferred ones before the fifo. From then on the dispatched messages followed by those in the fifo
never change but for later arrivals, so what one `recall()` put back decides what is delivered.
-/

namespace TelafSim.StartUp

namespace AO

variable {ω μ : Type} (C : StartUpChart ω)

@[simp] theorem messages_append (l m : List (Posted ω μ)) :
    messages (l ++ m) = messages l ++ messages m := by
  simp [messages]

def SeqLt (a b : Posted ω μ) : Prop := a.seq < b.seq

/-- Events are held in the order of their arrival until Ready is entered. Afterwards what was
dispatched and what waits in the fifo make up what `recall()` left to be dispatched. -/
structure Inv (ao : AO ω μ) : Prop where
  bound : ∀ e ∈ ao.deferQueue ++ ao.fifo, e.seq < ao.nextSeq
  unheld : ao.phase = .off ∨ ao.phase = .starting → ao.held = none ∧ ao.dispatched = [] ∧
    (ao.deferQueue ++ ao.fifo).Pairwise SeqLt
  entered : ao.phase = .ready → ∃ p, ao.held = some p
  held_bound : ∀ e ∈ ao.reached, e.seq < ao.nextSeq
  held_sorted : ao.reached.Pairwise SeqLt
  owed : ∀ d f, ao.phase = .ready → ao.held = some (d, f) →
    (ao.dispatched ++ messages ao.fifo).filter (among ao.reached) = messages (f ++ d.take 1)

theorem initial_inv : (initial : AO ω μ).Inv := by
  constructor <;> simp [initial, reached]

theorem inv_postFifo {ao : AO ω μ} (h : ao.Inv) (sig : Signal ω μ) : (ao.postFifo sig).Inv := by
  have hnew : ∀ e ∈ ao.reached, e.seq ≠ ao.nextSeq := fun e he => (h.held_bound e he).ne
  refine ⟨?_, ?_, h.entered, ?_, h.held_sorted, ?_⟩
  · intro e he
    simp only [postFifo, ← List.append_assoc, List.mem_append, List.mem_singleton] at he ⊢
    rcases he with he | rfl
    · exact (h.bound e (List.mem_append.mpr he)).trans (Nat.lt_succ_self _)
    · exact Nat.lt_succ_self _
  · intro hp
    obtain ⟨h₁, h₂, h₃⟩ := h.unheld hp
    refine ⟨h₁, h₂, ?_⟩
    simp only [postFifo, ← List.append_assoc, List.pairwise_append]
    refine ⟨List.pairwise_append.mp h₃, by simp, ?_⟩
    intro a ha b hb
    obtain rfl := List.mem_singleton.mp hb
    exact h.bound a ha
  · intro e he
    exact (h.held_bound e he).trans (Nat.lt_succ_self _)
  · intro d f hp hh
    have hout : (messages [Posted.mk ao.nextSeq sig]).filter (among ao.reached) = [] := by
      rw [List.filter_eq_nil_iff]
      intro e he hr
      obtain rfl := List.mem_singleton.mp (List.mem_of_mem_filter he)
      obtain ⟨x, hx, hseq⟩ := List.mem_map.mp (of_decide_eq_true hr)
      exact hnew x hx hseq
    change (ao.dispatched ++ messages (ao.fifo ++ [Posted.mk ao.nextSeq sig])).filter
      (among ao.reached) = _
    rw [← h.owed d f hp hh, messages_append, ← List.append_assoc, List.filter_append, hout,
      List.append_nil]

/-- Taking an event from the fifo that Ready does not have to dispatch. -/
theorem inv_pop {ao : AO ω μ} (h : ao.Inv) {e : Posted ω μ} {rest : List (Posted ω μ)}
    (hf : ao.fifo = e :: rest) (hm : ao.phase = .ready → isMessage e = false) :
    { ao with fifo := rest }.Inv := by
  have hsub : (ao.deferQueue ++ rest).Sublist (ao.deferQueue ++ ao.fifo) := by
    rw [hf]
    exact (List.sublist_cons_self e rest).append_left _
  refine ⟨?_, ?_, h.entered, h.held_bound, h.held_sorted, ?_⟩
  · intro x hx
    exact h.bound x (hsub.subset hx)
  · intro hp
    obtain ⟨h₁, h₂, h₃⟩ := h.unheld hp
    exact ⟨h₁, h₂, h₃.sublist hsub⟩
  · intro d f hp hh
    rw [← h.owed d f hp hh, hf, messages, messages, List.filter_cons_of_neg (by simp [hm hp])]
    rfl

theorem inv_defer {ao : AO ω μ} (h : ao.Inv) {e : Posted ω μ} {rest : List (Posted ω μ)}
    (hf : ao.fifo = e :: rest) (hp : ao.phase = .starting) :
    (defer e { ao with fifo := rest }).Inv := by
  have hsame : ao.deferQueue ++ [e] ++ rest = ao.deferQueue ++ ao.fifo := by simp [hf]
  refine ⟨?_, ?_, h.entered, h.held_bound, h.held_sorted, ?_⟩
  · intro x hx
    exact h.bound x (hsame ▸ hx)
  · intro _
    obtain ⟨h₁, h₂, h₃⟩ := h.unheld (Or.inr hp)
    exact ⟨h₁, h₂, hsame ▸ h₃⟩
  · intro d f hr
    exact absurd (hp.symm.trans hr) (by decide)

theorem inv_enterStopping {ao : AO ω μ} (h : ao.Inv) : ao.enterStopping.Inv :=
  ⟨h.bound, by simp [enterStopping], by simp [enterStopping], h.held_bound, h.held_sorted,
    by simp [enterStopping]⟩

theorem inv_enterReady {ao : AO ω μ} (h : ao.Inv) (hp : ao.phase = .starting) :
    ao.enterReady.Inv := by
  obtain ⟨-, hd, hsorted⟩ := h.unheld (Or.inr hp)
  rw [enterReady, recallOldest_eq]
  refine ⟨?_, by simp, by simp, ?_, hsorted.filter _, ?_⟩
  · intro x hx
    refine h.bound x ?_
    simp only [List.mem_append] at hx ⊢
    rcases hx with hx | hx | hx
    · exact Or.inl (List.mem_of_mem_tail hx)
    · exact Or.inr hx
    · exact Or.inl (List.mem_of_mem_take hx)
  · intro x hx
    exact h.bound x (List.mem_of_mem_filter hx)
  · rintro d f - ⟨⟩
    simp only [hd, List.nil_append]
    rw [List.filter_eq_self]
    intro x hx
    refine decide_eq_true (List.mem_map_of_mem ?_)
    change x ∈ messages (ao.deferQueue ++ ao.fifo)
    simp only [messages, List.mem_filter, List.mem_append] at hx ⊢
    refine ⟨?_, hx.2⟩
    rcases hx.1 with hx | hx
    · exact Or.inr hx
    · exact Or.inl (List.mem_of_mem_take hx)

theorem inv_dispatchMessage {ao : AO ω μ} (h : ao.Inv) {e : Posted ω μ} {rest : List (Posted ω μ)}
    (hf : ao.fifo = e :: rest) (hm : isMessage e = true) (hp : ao.phase = .ready) :
    (dispatchMessage e { ao with fifo := rest }).Inv := by
  refine ⟨?_, by simp [dispatchMessage, hp], h.entered, h.held_bound, h.held_sorted, ?_⟩
  · intro x hx
    refine h.bound x ?_
    rw [hf]
    exact (List.sublist_cons_self e rest).append_left _ |>.subset hx
  · intro d f _ hh
    rw [← h.owed d f hp hh, hf]
    simp only [dispatchMessage, messages, List.filter_cons_of_pos hm, List.append_assoc]
    rfl

theorem inv_enterStarting {ao : AO ω μ} (h : ao.Inv) (hp : ao.phase = .off) :
    ao.enterStarting.Inv := by
  have hstart : { ao with phase := .starting }.Inv :=
    ⟨h.bound, fun _ => h.unheld (Or.inl hp), by simp, h.held_bound, h.held_sorted, by simp⟩
  exact inv_postFifo hstart .startingDone

theorem step_post {ao ao' : AO ω μ} {sig : Signal ω μ} (hs : step C ao (.post sig) = some ao') :
    ao' = ao.postFifo sig := by
  cases sig <;> simp only [step, Option.some.injEq, reduceCtorEq] at hs <;> exact hs.symm

theorem step_dispatch {ao ao' : AO ω μ} (hs : step C ao .dispatch = some ao') :
    ∃ e rest, ao.fifo = e :: rest ∧ ao' = handle C e { ao with fifo := rest } := by
  simp only [step] at hs
  split at hs
  · cases hs
  · exact ⟨_, _, by assumption, (Option.some.inj hs).symm⟩

theorem inv_handle {ao : AO ω μ} (h : ao.Inv) {e : Posted ω μ} {rest : List (Posted ω μ)}
    (hf : ao.fifo = e :: rest) : (handle C e { ao with fifo := rest }).Inv := by
  have hpop : ao.phase ≠ .ready → { ao with fifo := rest }.Inv := fun hp =>
    inv_pop h hf (fun hr => absurd hr hp)
  unfold handle
  dsimp only
  split
  · rename_i hp
    unfold smfnOff
    split
    · exact inv_enterStarting (hpop (by simp [hp])) hp
    · exact hpop (by simp [hp])
  · rename_i hp
    have hpop := hpop (by simp [hp])
    unfold smfnStarting
    split
    · exact inv_enterReady hpop hp
    · unfold smfnOperating
      split
      · exact inv_enterStopping hpop
      · exact inv_defer h hf hp
      · split
        · exact inv_defer h hf hp
        · exact hpop
      · exact hpop
  · rename_i hp
    unfold smfnReady
    split
    · rename_i hsig
      exact inv_dispatchMessage h hf (by simp [isMessage, hsig]) hp
    · rename_i hsig
      exact inv_pop h hf (by simp [isMessage, hsig])
    · rename_i hsig
      exact inv_pop h hf (by simp [isMessage, hsig])
    · rename_i hmsg hres hown
      have hpop : { ao with fifo := rest }.Inv := by
        refine inv_pop h hf (fun _ => ?_)
        unfold isMessage
        split
        · rename_i m hsig
          exact absurd hsig (hmsg m)
        · rfl
      unfold smfnOperating
      split
      · exact inv_enterStopping hpop
      · rename_i m hsig
        exact absurd hsig (hmsg m)
      · rename_i o hsig
        exact absurd hsig (hown o)
      · exact hpop
  · rename_i hp
    exact hpop (by simp [hp])

theorem inv_step (ao : AO ω μ) (l : Label ω μ) (ao' : AO ω μ) (h : ao.Inv)
    (hs : step C ao l = some ao') : ao'.Inv := by
  cases l with
  | post sig =>
    rw [step_post C hs]
    exact inv_postFifo h sig
  | dispatch =>
    obtain ⟨e, rest, hf, rfl⟩ := step_dispatch C hs
    exact inv_handle C h hf

theorem handle_held_ready (e : Posted ω μ) (ao : AO ω μ) (hp : ao.phase = .starting)
    (he : e.sig = .startingDone) : (handle C e ao).held = some (ao.deferQueue, ao.fifo) := by
  simp [handle, hp, smfnStarting, he, enterReady, recallOldest_eq]

theorem handle_held_keep (e : Posted ω μ) (ao : AO ω μ)
    (h : ¬ (ao.phase = .starting ∧ e.sig = .startingDone)) : (handle C e ao).held = ao.held := by
  obtain ⟨_, sig⟩ := e
  have hop : ∀ e : Posted ω μ, (smfnOperating C e ao).held = ao.held := by
    intro e
    unfold smfnOperating
    split
    · rfl
    · rfl
    · split <;> rfl
    · rfl
  unfold handle
  split
  · cases sig <;> rfl
  · cases sig with
    | startingDone => exact absurd ⟨by assumption, rfl⟩ h
    | _ => exact hop _
  · cases sig with
    | messageReceived m => rfl
    | resubscribe => rfl
    | own o => rfl
    | _ => exact hop _
  · rfl

/-- The condition under which Ready was entered. -/
def Sufficed (ao : AO ω μ) : Prop := ∀ d f, ao.held = some (d, f) → RecallSuffices d f

theorem recallable_iff_sufficed (ao : AO ω μ) (l : Label ω μ) (ao' : AO ω μ) (h : ao.Sufficed)
    (hs : step C ao l = some ao') : Recallable ao l ↔ ao'.Sufficed := by
  cases l with
  | post sig =>
    rw [step_post C hs]
    exact ⟨fun _ => h, fun _ => by simp [Recallable]⟩
  | dispatch =>
    obtain ⟨e, rest, hf, rfl⟩ := step_dispatch C hs
    unfold Sufficed
    by_cases hc : ao.phase = .starting ∧ e.sig = .startingDone
    · rw [handle_held_ready C e { ao with fifo := rest } hc.1 hc.2]
      constructor
      · rintro hr d f ⟨⟩
        exact hr e rest rfl hc.1 hf hc.2
      · intro hr e' rest' _ _ hf' _
        obtain ⟨rfl, rfl⟩ := List.cons.inj (hf.symm.trans hf')
        exact hr _ _ rfl
    · rw [handle_held_keep C e { ao with fifo := rest } hc]
      refine ⟨fun _ => h, fun _ e' rest' _ hp hf' hsig => ?_⟩
      obtain ⟨rfl, rfl⟩ := List.cons.inj (hf.symm.trans hf')
      exact absurd ⟨hp, hsig⟩ hc

theorem not_sufficed_step (ao : AO ω μ) (l : Label ω μ) (ao' : AO ω μ) (hi : ao.Inv)
    (h : ¬ ao.Sufficed) (hs : step C ao l = some ao') : ¬ ao'.Sufficed := by
  cases l with
  | post sig =>
    rw [step_post C hs]
    exact h
  | dispatch =>
    obtain ⟨e, rest, hf, rfl⟩ := step_dispatch C hs
    unfold Sufficed at h ⊢
    rw [handle_held_keep C e { ao with fifo := rest }]
    · exact h
    · rintro ⟨hp, -⟩
      rw [(hi.unheld (Or.inr hp)).1] at h
      exact h (by simp)

/-- What one `recall()` leaves to be dispatched is what reached the object, in order, exactly when
it suffices. -/
theorem recalled_eq_iff (d f : List (Posted ω μ)) (hs : (messages (d ++ f)).Pairwise SeqLt) :
    messages (f ++ d.take 1) = messages (d ++ f) ↔ RecallSuffices d f := by
  cases d with
  | nil => simp [RecallSuffices, messages]
  | cons e d =>
    have hsplit : messages (e :: d ++ f) = messages [e] ++ messages d ++ messages f := by
      rw [← messages_append, ← messages_append]
      rfl
    rw [hsplit] at hs
    rw [hsplit, messages_append]
    change messages f ++ messages [e] = _ ↔ messages d = [] ∧ (messages [e] = [] ∨ messages f = [])
    constructor
    · intro heq
      have hd : messages d = [] := by
        have hlen := congrArg List.length heq
        simp only [List.length_append] at hlen
        exact List.length_eq_zero_iff.mp (by omega)
      refine ⟨hd, ?_⟩
      rw [hd, List.append_nil] at heq hs
      by_contra hne
      push Not at hne
      obtain ⟨x, xs, hx⟩ := List.exists_cons_of_ne_nil hne.1
      obtain ⟨y, ys, hy⟩ := List.exists_cons_of_ne_nil hne.2
      -- the oldest deferred message would have to come first and last
      rw [hx, hy] at heq hs
      obtain rfl : y = x := (List.cons.inj heq).1
      have hlt : SeqLt y y := (List.pairwise_append.mp hs).2.2 y (by simp) y (by simp)
      exact Nat.lt_irrefl _ hlt
    · rintro ⟨hd, h | h⟩ <;> simp [hd, h]

theorem deliveredInOrder_iff {ao : AO ω μ} (hi : ao.Inv) :
    ao.DeliveredInOrder ↔ ao.delivered = ao.reached := by
  constructor
  · rintro ⟨hperm, hsorted⟩
    have hanti : ∀ a b : Posted ω μ, a ∈ ao.delivered → b ∈ ao.reached → SeqLt a b →
        SeqLt b a → a = b := fun a b _ _ hab hba => absurd hba (Nat.lt_asymm hab)
    exact List.Perm.eq_of_pairwise hanti hsorted hi.held_sorted hperm
  · intro h
    refine ⟨h ▸ List.Perm.refl _, ?_⟩
    rw [h]
    exact hi.held_sorted

theorem inv_of_run {ao : AO ω μ} {ls : List (Label ω μ)}
    (hrun : Trace.run (step C) initial ls = some ao) : ao.Inv :=
  Trace.run_invariant (inv_step C) hrun initial_inv

/-- In every run that reaches Ready and has drained the fifo, the messages that reached the object
in Starting were each dispatched once and in order if and only if, when StartingDone was handled,
no message stood behind the oldest deferred event and, if that event was itself a message, none
waited in the fifo. -/
theorem deliveredInOrder_iff_recallable (ls : List (Label ω μ)) (ao : AO ω μ)
    (hrun : Trace.run (step C) initial ls = some ao) (hp : ao.phase = .ready)
    (hdrained : ao.fifo = []) :
    ao.DeliveredInOrder ↔ Trace.AllSteps (step C) Recallable initial ls := by
  have hi := inv_of_run C hrun
  rw [deliveredInOrder_iff hi, Trace.allSteps_iff (inv_step C)
    (fun s a s' _ h hs => recallable_iff_sufficed C s a s' h hs)
    (fun s a s' hj h hs => not_sufficed_step C s a s' hj h hs) hrun initial_inv
    (by simp [Sufficed, initial])]
  obtain ⟨⟨d, f⟩, hh⟩ := hi.entered hp
  have howed := hi.owed d f hp hh
  rw [hdrained, messages, List.filter_nil, List.append_nil] at howed
  have hreached : ao.reached = messages (d ++ f) := by rw [reached, hh]
  rw [delivered, howed, hreached, recalled_eq_iff d f (hreached ▸ hi.held_sorted)]
  simp [Sufficed, hh]

end AO

section Runs

variable {ω : Type}

/-- `n` messages behind Start, all dispatched in Starting. -/
def messagesBehindStart (n : ℕ) : List (AO.Label ω ℕ) :=
  .post .start :: (List.range n).map (fun m => .post (.messageReceived m)) ++
    List.replicate (n + 3) .dispatch

theorem run_one (C : StartUpChart ω) :
    Trace.run (AO.step C) AO.initial (messagesBehindStart 1) =
      some ⟨.ready, [], [], 3, [⟨1, .messageReceived 0⟩], some ([⟨1, .messageReceived 0⟩], [])⟩ :=
  rfl

theorem run_two (C : StartUpChart ω) :
    Trace.run (AO.step C) AO.initial (messagesBehindStart 2) =
      some ⟨.ready, [], [⟨2, .messageReceived 1⟩], 4, [⟨1, .messageReceived 0⟩],
        some ([⟨1, .messageReceived 0⟩, ⟨2, .messageReceived 1⟩], [])⟩ :=
  rfl

theorem run_two_lost (C : StartUpChart ω) :
    ∃ ao, Trace.run (AO.step C) AO.initial (messagesBehindStart 2) = some ao ∧
      ao.phase = .ready ∧ ao.fifo = [] ∧ ¬ ao.DeliveredInOrder := by
  refine ⟨_, run_two C, rfl, rfl, ?_⟩
  rintro ⟨hperm, -⟩
  have hlen : 1 = 2 := hperm.length_eq
  omega

end Runs

/-- A single deferred message is recalled and dispatched. -/
theorem recallable_one :
    Trace.AllSteps (AO.step powerSubsystem) AO.Recallable AO.initial (messagesBehindStart 1) := by
  refine (AO.deliveredInOrder_iff_recallable powerSubsystem _ _ (run_one powerSubsystem) rfl
    rfl).mp ⟨?_, ?_⟩
  · exact List.Perm.refl _
  · exact List.pairwise_singleton _ _

/-- Of two messages deferred in Starting the second is never dispatched. -/
theorem second_deferred_lost :
    (∃ ao, Trace.run (AO.step dataConnectionAO) AO.initial (messagesBehindStart 2) = some ao ∧
      ao.phase = .ready ∧ ao.fifo = [] ∧ ¬ ao.DeliveredInOrder) ∧
    (∃ ao, Trace.run (AO.step powerSubsystem) AO.initial (messagesBehindStart 2) = some ao ∧
      ao.phase = .ready ∧ ao.fifo = [] ∧ ¬ ao.DeliveredInOrder) ∧
    ∃ ao, Trace.run (AO.step ecallManagerAO) AO.initial (messagesBehindStart 2) = some ao ∧
      ao.phase = .ready ∧ ao.fifo = [] ∧ ¬ ao.DeliveredInOrder :=
  ⟨run_two_lost _, run_two_lost _, run_two_lost _⟩

end TelafSim.StartUp
