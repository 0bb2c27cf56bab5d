import TelafSim.HsmIndexed

/-!
# The engine comes to an end

A chart has finitely many states, each below its super-state, and its INIT transitions lead
downwards; nothing bounds its depth. Walking up from a state takes no more steps than there are
states, and every INIT transition leaves fewer states below. With the arrays of the engine in
bounds, `init` and `dispatch` have a result from every state and for every event.
-/

namespace TelafSim

/-- A chart of any depth. What the handlers do to the object's data is up to them. -/
structure RootedChart (S ε X : Type) extends Chart S ε X where
  forest : Forest S
  empty_temp : ∀ s x, (handler s .empty x).temp = some (forest.parent s)
  super_temp : ∀ s e x, (handler s (.user e) x).status = .toSuper →
    (handler s (.user e) x).temp = some (forest.parent s)
  exit_temp : ∀ s x, (handler s .exit x).status = .handled ∨
    (handler s .exit x).temp = some (forest.parent s)
  init_target : ∀ s x, (handler s .init x).status = .needToTransfer →
    ∃ t, (handler s .init x).temp = some (some t) ∧ s ∈ forest.path (forest.parent t)

namespace RootedChart

variable {S ε X : Type} [DecidableEq S] (W : RootedChart S ε X)

omit [DecidableEq S] in
theorem call_empty_temp (h : Hsm S ε X) (s : S) :
    (W.call h (some s) .empty).2.temp = W.forest.parent s := by
  simp [Chart.call, W.empty_temp]

omit [DecidableEq S] in
theorem exitState_temp (h : Hsm S ε X) (s : S) :
    (W.exitState h (some s)).temp = W.forest.parent s := by
  unfold Chart.exitState
  dsimp only
  split
  · exact W.call_empty_temp _ s
  · rename_i hne
    obtain hstatus | htemp := W.exit_temp s h.ext
    · exact absurd hstatus hne
    · simp [Chart.call, htemp]

omit [DecidableEq S] in
theorem call_state (h : Hsm S ε X) (q : StateFn S) (ev : Event ε) :
    (W.call h q ev).2.state = h.state := by
  cases q <;> rfl

omit [DecidableEq S] in
/-- The walk up ends at a state above the one it starts from, or at the root. -/
theorem walkUp_ends (e : ε) (q : StateFn S) (n : ℕ) (h : Hsm S ε X) (ht : h.temp = q)
    (hn : (W.forest.path q).length < n) :
    ∃ s r h', W.walkUp e n h = some (s, r, h') ∧ W.forest.Above s q ∧ h'.state = h.state := by
  induction q using W.forest.induct generalizing n h with
  | root =>
    obtain ⟨n, rfl⟩ := Nat.exists_eq_succ_of_ne_zero (Nat.pos_iff_ne_zero.mp (by omega : 0 < n))
    refine ⟨none, .ignored, h, ?_, W.forest.above_root none, rfl⟩
    rw [Chart.walkUp, ht]
    rfl
  | node s ih =>
    obtain ⟨n, rfl⟩ := Nat.exists_eq_succ_of_ne_zero (Nat.pos_iff_ne_zero.mp (by omega : 0 < n))
    rw [W.forest.path_some, List.length_cons] at hn
    have hup : ∀ h', h'.temp = W.forest.parent s → h'.state = h.state →
        ∃ t r h'', W.walkUp e n h' = some (t, r, h'') ∧ W.forest.Above t (some s) ∧
          h''.state = h.state := by
      intro h' htemp hstate
      obtain ⟨t, r, h'', hwalk, habove, hstate'⟩ := ih n h' htemp (by omega)
      exact ⟨t, r, h'', hwalk, W.forest.above_step habove, hstate'.trans hstate⟩
    have hself : W.forest.Above (some s) (some s) := W.forest.above_refl _
    have hstate : (W.call h (some s) (.user e)).2.state = h.state := W.call_state h _ _
    rw [Chart.walkUp, ht]
    dsimp only
    cases hr : (W.call h (some s) (.user e)).1 with
    | unhandled =>
      exact hup _ (W.call_empty_temp _ s) ((W.call_state _ _ _).trans hstate)
    | toSuper =>
      refine hup _ ?_ hstate
      have htemp := W.super_temp s e h.ext hr
      simp [Chart.call, htemp]
    | handled => exact ⟨some s, .handled, _, rfl, hself, hstate⟩
    | ignored => exact ⟨some s, .ignored, _, rfl, hself, hstate⟩
    | needToTransfer => exact ⟨some s, .needToTransfer, _, rfl, hself, hstate⟩

theorem exitUpTo_ends (s q : StateFn S) (n : ℕ) (h : Hsm S ε X) (hs : W.forest.Above s q)
    (hn : (W.forest.path q).length ≤ n) : (W.exitUpTo s n q h).isSome := by
  induction q using W.forest.induct generalizing n h with
  | root =>
    have hroot : s = none := by
      cases s with
      | none => rfl
      | some l => exact absurd (hs l rfl) (by simp)
    rw [hroot, W.exitUpTo_self]
    rfl
  | node t ih =>
    by_cases heq : s = some t
    · rw [heq, W.exitUpTo_self]
      rfl
    · rw [W.forest.path_some, List.length_cons] at hn
      obtain ⟨n, rfl⟩ := Nat.exists_eq_succ_of_ne_zero (Nat.pos_iff_ne_zero.mp (by omega : 0 < n))
      rw [Chart.exitUpTo, if_neg (Ne.symm heq)]
      dsimp only
      rw [W.exitState_temp]
      exact ih n _ (W.forest.above_parent hs heq) (by omega)

theorem exitToLca_ends (tpath : List (StateFn S)) (q : StateFn S) (n : ℕ) (h : Hsm S ε X)
    (hn : (W.forest.path q).length ≤ n) : (W.exitToLca tpath n q h).isSome := by
  induction q using W.forest.induct generalizing n h with
  | root =>
    rw [W.exitToLca_top]
    rfl
  | node t ih =>
    rw [W.forest.path_some, List.length_cons] at hn
    obtain ⟨n, rfl⟩ := Nat.exists_eq_succ_of_ne_zero (Nat.pos_iff_ne_zero.mp (by omega : 0 < n))
    rw [Chart.exitToLca, if_neg (by simp)]
    split
    · rfl
    · dsimp only
      rw [W.exitState_temp]
      exact ih n _ (by omega)

omit [DecidableEq S] in
/-- INIT of a state leaves a state below in the scratch slot when it asks for a transition. -/
theorem init_below (h : Hsm S ε X) (s : S) (hr : (W.call h (some s) .init).1 = .needToTransfer) :
    ∃ t ∈ W.forest.below s, (W.call h (some s) .init).2.temp = some t := by
  obtain ⟨t, htemp, hbelow⟩ := W.init_target s h.ext hr
  exact ⟨t, hbelow, by simp [Chart.call, htemp]⟩

section Finite

variable [Finite S]

theorem drill_ends (n : ℕ) (q : StateFn S) (h : Hsm S ε X)
    (hn : ∀ s, q = some s → (W.forest.below s).ncard < n) (hpos : 0 < n) :
    (W.drill n q h).isSome := by
  induction n generalizing q h with
  | zero => omega
  | succ n ih =>
    rw [Chart.drill]
    dsimp only
    split
    · rename_i hr
      cases q with
      | none => cases hr
      | some s =>
        obtain ⟨t, hbelow, htemp⟩ := W.init_below { h with temp := some s } s hr
        have hlt := W.forest.ncard_below_lt hbelow
        have hs := hn s rfl
        refine ih _ _ ?_ (by omega)
        rw [htemp]
        rintro t' ⟨⟩
        omega
    · rfl

theorem initLoop_ends (n : ℕ) (t : StateFn S) (h : Hsm S ε X)
    (hn : ∀ s, h.temp = some s → (W.forest.below s).ncard < n) (hpos : 0 < n) :
    (W.initLoop n t h).isSome := by
  induction n generalizing t h with
  | zero => omega
  | succ n ih =>
    obtain ⟨rest, hrest⟩ := W.pathUp_ne_nil (fun q => q = t) h h.temp
    rw [Chart.initLoop]
    dsimp only
    rw [hrest, List.headD_cons]
    split
    · rename_i hr
      cases hq : h.temp with
      | none =>
        rw [hq] at hr
        cases hr
      | some s =>
        rw [hq] at hr
        obtain ⟨t', hbelow, htemp⟩ := W.init_below _ s hr
        have hlt := W.forest.ncard_below_lt hbelow
        have hs := hn s hq
        refine ih _ _ ?_ (by omega)
        rw [htemp]
        rintro u ⟨⟩
        omega
    · rfl

theorem init_ends {n : ℕ} (hn : Nat.card S < n) (initial : StateFn S) (h : Hsm S ε X) :
    (W.init n initial h).isSome :=
  W.initLoop_ends n none _ (fun s _ => (W.forest.ncard_below_lt_card s).trans hn) (by omega)

theorem transfer_ends {n : ℕ} (hn : Nat.card S < n) (s : StateFn S) (h : Hsm S ε X)
    (hs : W.forest.Above s h.state) : (W.transfer n s h).isSome := by
  have hlen : ∀ q, (W.forest.path q).length ≤ n := fun q => (W.forest.length_path_le q).trans hn.le
  obtain ⟨h₁, hexit⟩ := Option.isSome_iff_exists.mp (W.exitUpTo_ends s h.state n h hs (hlen _))
  have hcross : (W.cross n s h.temp h₁).isSome := by
    unfold Chart.cross
    split
    · rfl
    · obtain ⟨r, hr⟩ := Option.isSome_iff_exists.mp
        (W.exitToLca_ends (W.collectLineage h₁ h.temp).1 s n (W.collectLineage h₁ h.temp).2 (hlen _))
      simp [hr]
  obtain ⟨h₂, hcross⟩ := Option.isSome_iff_exists.mp hcross
  obtain ⟨r, hdrill⟩ := Option.isSome_iff_exists.mp (W.drill_ends n h.temp h₂
    (fun s _ => (W.forest.ncard_below_lt_card s).trans hn) (by omega))
  simp [Chart.transfer, hexit, hcross, hdrill]

theorem dispatch_ends {n : ℕ} (hn : Nat.card S < n) (e : ε) (h : Hsm S ε X) :
    (W.dispatch n e h).isSome := by
  have hlen : (W.forest.path h.state).length < n :=
    lt_of_le_of_lt (W.forest.length_path_le _) hn
  obtain ⟨s, r, h', hwalk, habove, hstate⟩ :=
    W.walkUp_ends e h.state n { h with lastIgnored := false, temp := h.state } rfl hlen
  rw [Chart.dispatch, hwalk, Option.bind_eq_bind, Option.bind_some]
  dsimp only
  split
  · exact W.transfer_ends hn s h' (hstate.symm ▸ habove)
  · rfl

end Finite

/-- For every chart of finitely many states, of any depth, there is a number of rounds within which
every loop of `init` and of `dispatch` is left, from every state and for every event, and no access
to `path`, `tpath` or `npath` is out of bounds, whatever these arrays hold at first. -/
theorem engine_total [Finite S] (W : RootedChart S ε X) : ∃ bound, ∀ fuel ≥ bound,
    (∀ path initial (h : Hsm S ε X), (W.initIndexed fuel path initial h).isSome) ∧
      ∀ tpath npath e (h : Hsm S ε X), (W.dispatchIndexed fuel tpath npath e h).isSome := by
  refine ⟨max (Nat.card S) kMaxNest + 1, ?_⟩
  intro fuel hfuel
  have hcard : Nat.card S < fuel := by omega
  have hnest : kMaxNest < fuel := by omega
  constructor
  · intro path initial h
    rw [W.initIndexed_eq hnest]
    exact W.init_ends hcard initial h
  · intro tpath npath e h
    rw [W.dispatchIndexed_eq hnest]
    exact W.dispatch_ends hcard e h

end RootedChart

/-- The chain of ten states in `test_hsm_deep_nest.cpp`: each lies in the one before, and the first
has an INIT transition and takes the user event. -/
def deepNest : RootedChart (Fin 10) Unit Unit where
  handler s ev x :=
    match ev with
    | .entry => .handled x
    | .exit => .handled x
    | .init => if s = 0 then .toState (some 1) x else .super (if s = 0 then none else some (s - 1)) x
    | .user _ => if s = 0 then .handled x else .super (if s = 0 then none else some (s - 1)) x
    | .empty => .super (if s = 0 then none else some (s - 1)) x
  forest := {
    parent := fun s => if s = 0 then none else some (s - 1)
    wf := by
      have hlt : ∀ a b : Fin 10, (if b = 0 then none else some (b - 1)) = some a → a.val < b.val := by
        decide
      exact Subrelation.wf (fun {a b} h => hlt a b h) (InvImage.wf Fin.val wellFounded_lt) }
  empty_temp s x := rfl
  super_temp s e x h := by
    by_cases hs : s = 0
    · simp [hs, Reply.handled] at h
    · simp [hs, Reply.super]
  exit_temp s x := .inl rfl
  init_target s x h := by
    by_cases hs : s = 0
    · refine ⟨1, by simp [hs, Reply.toState], ?_⟩
      simp [hs, Forest.path_some]
    · simp [hs, Reply.super] at h

/-- The deepest state is entered, and takes an event. -/
theorem engine_total_deepNest : ∃ bound, ∀ fuel ≥ bound,
    (∀ path, (deepNest.initIndexed fuel path (some 9) ⟨none, none, false, (), []⟩).isSome) ∧
      ∀ tpath npath, (deepNest.dispatchIndexed fuel tpath npath ()
        ⟨some 9, some 9, false, (), []⟩).isSome := by
  obtain ⟨bound, hbound⟩ := RootedChart.engine_total deepNest
  refine ⟨bound, ?_⟩
  intro fuel hfuel
  obtain ⟨hinit, hdispatch⟩ := hbound fuel hfuel
  exact ⟨fun path => hinit path (some 9) _, fun tpath npath => hdispatch tpath npath () _⟩

end TelafSim
