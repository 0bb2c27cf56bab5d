import TelafSim.Hsm

/-!
# Charts whose control does not read the data

When the status and the target a handler answers with depend on the signal alone, dispatching an
event can be split: the engine runs on the bare signals, without data, and the actions it logged
are then applied to the data in order. The bare run is a closed computation.
-/

namespace TelafSim

variable {S ε σ X : Type*}

/-- Acts on the user events. -/
def Event.map (f : ε → σ) : Event ε → Event σ
  | .empty => .empty
  | .entry => .entry
  | .exit => .exit
  | .init => .init
  | .user e => .user (f e)

namespace Chart

/-- Bare actions of the event `e`. -/
def liftEvent (e : ε) : Event σ → Event ε
  | .empty => .empty
  | .entry => .entry
  | .exit => .exit
  | .init => .init
  | .user _ => .user e

def liftAction (e : ε) (a : Action S σ) : Action S ε := (a.1, liftEvent e a.2)

/-- The handlers of `C` answer as those of `K`, and the empty event leaves the data alone. -/
structure Controlled (C : Chart S ε X) (K : Chart S σ Unit) (sig : ε → σ) : Prop where
  status : ∀ s ev x, (C.handler s ev x).status = (K.handler s (ev.map sig) ()).status
  temp : ∀ s ev x, (C.handler s ev x).temp = (K.handler s (ev.map sig) ()).temp
  empty : ∀ s x, (C.handler s .empty x).ext = x

/-- The control of a chart, read off at representative events and data. -/
def bare (C : Chart S ε X) (event : σ → ε) (x₀ : X) : Chart S σ Unit where
  handler s ev _ :=
    let r := C.handler s (ev.map event) x₀
    ⟨r.status, r.temp, ()⟩

def applyAll (C : Chart S ε X) (x : X) (acts : List (Action S ε)) : X :=
  acts.foldl (fun x a => (C.handler a.1 a.2 x).ext) x

theorem applyAll_append (C : Chart S ε X) (x : X) (acts acts' : List (Action S ε)) :
    C.applyAll x (acts ++ acts') = C.applyAll (C.applyAll x acts) acts' :=
  List.foldl_append

theorem applyAll_keeps {C : Chart S ε X} {P : X → Prop} {acts : List (Action S ε)}
    (hact : ∀ a ∈ acts, ∀ x, P x → P (C.handler a.1 a.2 x).ext) {x : X} (hx : P x) :
    P (C.applyAll x acts) := by
  induction acts generalizing x with
  | nil => exact hx
  | cons a acts ih =>
    apply ih
    · intro a' ha'
      exact hact a' (List.mem_cons_of_mem a ha')
    · exact hact a List.mem_cons_self x hx

/-- What the handlers of two charts keep related, the actions of one event keep related. -/
theorem applyAll_related {ε' X' : Type*} {C : Chart S ε X} {C' : Chart S ε' X'} {f : ε → ε'}
    {R : X → X' → Prop} (hact : ∀ s ev x x', R x x' →
      R (C.handler s ev x).ext (C'.handler s (ev.map f) x').ext) (e : ε)
    (acts : List (Action S σ)) {x : X} {x' : X'} (hx : R x x') :
    R (C.applyAll x (acts.map (liftAction e))) (C'.applyAll x' (acts.map (liftAction (f e)))) := by
  induction acts generalizing x x' with
  | nil => exact hx
  | cons a acts ih =>
    apply ih
    have hlift : liftEvent (f e) a.2 = (liftEvent e a.2).map f := by cases a.2 <;> rfl
    dsimp only [liftAction]
    rw [hlift]
    exact hact a.1 _ x x' hx

/-- `h` is `h₀` after the actions the bare machine `k` has logged. -/
structure Follows (C : Chart S ε X) (e : ε) (h₀ h : Hsm S ε X) (k : Hsm S σ Unit) : Prop where
  state : h.state = k.state
  temp : h.temp = k.temp
  ignored : h.lastIgnored = k.lastIgnored
  log : h.log = h₀.log ++ k.log.map (liftAction e)
  ext : h.ext = C.applyAll h₀.ext (k.log.map (liftAction e))

variable {C : Chart S ε X} {K : Chart S σ Unit} {sig : ε → σ} (hC : C.Controlled K sig) {e : ε}
  {h₀ h : Hsm S ε X} {k : Hsm S σ Unit}

/-- The events a dispatch of `e` makes. -/
def OfEvent (sig : ε → σ) (e : ε) (ev : Event ε) (ev' : Event σ) : Prop :=
  ev' = ev.map sig ∧ ev = liftEvent e ev'

include hC in
theorem Follows.call (hf : C.Follows e h₀ h k) (s : StateFn S) {ev : Event ε} {ev' : Event σ}
    (hev : OfEvent sig e ev ev') : (C.call h s ev).1 = (K.call k s ev').1 ∧
      C.Follows e h₀ (C.call h s ev).2 (K.call k s ev').2 := by
  obtain ⟨rfl, hlift⟩ := hev
  cases s with
  | none => exact ⟨rfl, hf⟩
  | some s =>
    refine ⟨hC.status s ev h.ext, ⟨hf.state, ?_, hf.ignored, ?_, ?_⟩⟩
    · simp only [Chart.call, hC.temp s ev h.ext, hf.temp]
    · cases ev <;> simp [Chart.call, Chart.record, Event.map, hf.log, liftAction, liftEvent]
      simpa [Event.map, liftEvent] using hlift
    · cases ev with
      | empty => simpa [Chart.call, Chart.record, Event.map, hC.empty] using hf.ext
      | user u =>
        simp only [Event.map, liftEvent, Event.user.injEq] at hlift
        subst hlift
        simp [Chart.call, Chart.record, Event.map, applyAll, liftAction, liftEvent, hf.ext]
      | _ => simp [Chart.call, Chart.record, Event.map, applyAll, liftAction, liftEvent, hf.ext]

theorem ofEvent_empty : OfEvent sig e .empty .empty := ⟨rfl, rfl⟩

theorem ofEvent_entry : OfEvent sig e .entry .entry := ⟨rfl, rfl⟩

theorem ofEvent_exit : OfEvent sig e .exit .exit := ⟨rfl, rfl⟩

theorem ofEvent_init : OfEvent sig e .init .init := ⟨rfl, rfl⟩

theorem ofEvent_user : OfEvent sig e (.user e) (.user (sig e)) := ⟨rfl, rfl⟩

theorem Follows.setTemp (hf : C.Follows e h₀ h k) (q : StateFn S) :
    C.Follows e h₀ { h with temp := q } { k with temp := q } :=
  ⟨hf.state, rfl, hf.ignored, hf.log, hf.ext⟩

include hC in
theorem Follows.exitState (hf : C.Follows e h₀ h k) (s : StateFn S) :
    C.Follows e h₀ (C.exitState h s) (K.exitState k s) := by
  obtain ⟨hr, hf'⟩ := hf.call hC s ofEvent_exit
  unfold Chart.exitState
  dsimp only
  rw [hr]
  split
  · exact (hf'.call hC s ofEvent_empty).2
  · exact hf'

include hC in
theorem Follows.enterAll (hf : C.Follows e h₀ h k) (states : List (StateFn S)) :
    C.Follows e h₀ (C.enterAll h states) (K.enterAll k states) := by
  induction states generalizing h k with
  | nil => exact hf
  | cons s states ih => exact ih (hf.call hC s ofEvent_entry).2

include hC in
theorem Follows.pathLoop (stop : StateFn S → Bool) (room : ℕ) (out : List (StateFn S))
    (hf : C.Follows e h₀ h k) :
    (C.pathLoop stop room out h).1 = (K.pathLoop stop room out k).1 ∧
      C.Follows e h₀ (C.pathLoop stop room out h).2 (K.pathLoop stop room out k).2 := by
  induction room generalizing out h k with
  | zero =>
    unfold Chart.pathLoop
    rw [hf.temp]
    split <;> exact ⟨rfl, hf⟩
  | succ room ih =>
    unfold Chart.pathLoop
    rw [hf.temp]
    split
    · exact ⟨rfl, hf⟩
    · exact ih _ (hf.call hC _ ofEvent_empty).2

include hC in
theorem Follows.pathUp (stop : StateFn S → Bool) (target : StateFn S)
    (hf : C.Follows e h₀ h k) :
    (C.pathUp stop h target).1 = (K.pathUp stop k target).1 ∧
      C.Follows e h₀ (C.pathUp stop h target).2 (K.pathUp stop k target).2 :=
  Follows.pathLoop hC stop _ _ (hf.call hC target ofEvent_empty).2

include hC in
theorem Follows.walkUp (n : ℕ) (hf : C.Follows e h₀ h k) {s : StateFn S} {r : Status}
    {k' : Hsm S σ Unit} (hk : K.walkUp (sig e) n k = some (s, r, k')) :
    ∃ h', C.walkUp e n h = some (s, r, h') ∧ C.Follows e h₀ h' k' := by
  induction n generalizing h k with
  | zero => simp [Chart.walkUp] at hk
  | succ n ih =>
    obtain ⟨hr, hf'⟩ := hf.call hC k.temp ofEvent_user
    unfold Chart.walkUp at hk ⊢
    dsimp only at hk ⊢
    rw [hf.temp, hr]
    cases hst : (K.call k k.temp (.user (sig e))).1 with
    | unhandled =>
      rw [hst] at hk
      exact ih (hf'.call hC k.temp ofEvent_empty).2 hk
    | toSuper =>
      rw [hst] at hk
      exact ih hf' hk
    | _ =>
      rw [hst] at hk
      simp only [Option.some.injEq, Prod.mk.injEq] at hk
      obtain ⟨rfl, rfl, rfl⟩ := hk
      exact ⟨_, rfl, hf'⟩

variable [DecidableEq S]

include hC in
theorem Follows.lineageLoop (room : ℕ) (cur : StateFn S) (out : List (StateFn S))
    (hf : C.Follows e h₀ h k) :
    (C.lineageLoop room cur out h).1 = (K.lineageLoop room cur out k).1 ∧
      C.Follows e h₀ (C.lineageLoop room cur out h).2 (K.lineageLoop room cur out k).2 := by
  induction room generalizing cur out h k with
  | zero =>
    unfold Chart.lineageLoop
    rw [hf.temp]
    split <;> exact ⟨rfl, hf⟩
  | succ room ih =>
    unfold Chart.lineageLoop
    rw [hf.temp]
    split
    · exact ih _ _ (hf.call hC _ ofEvent_empty).2
    · exact ⟨rfl, hf⟩

include hC in
theorem Follows.collectLineage (start : StateFn S) (hf : C.Follows e h₀ h k) :
    (C.collectLineage h start).1 = (K.collectLineage k start).1 ∧
      C.Follows e h₀ (C.collectLineage h start).2 (K.collectLineage k start).2 := by
  obtain ⟨hl, hf'⟩ := Follows.lineageLoop hC (kMaxNest - 1) start [start]
    ((hf.setTemp start).call hC start ofEvent_empty).2
  refine ⟨hl, ?_⟩
  have ht := hf'.setTemp h.temp
  unfold Chart.collectLineage
  dsimp only
  rw [← hf.temp]
  exact ht

include hC in
theorem Follows.exitUpTo (s : StateFn S) (n : ℕ) (cur : StateFn S) (hf : C.Follows e h₀ h k)
    {k' : Hsm S σ Unit} (hk : K.exitUpTo s n cur k = some k') :
    ∃ h', C.exitUpTo s n cur h = some h' ∧ C.Follows e h₀ h' k' := by
  induction n generalizing cur h k with
  | zero =>
    by_cases hs : cur = s
    · rw [Chart.exitUpTo, if_pos hs] at hk ⊢
      obtain rfl := Option.some.inj hk
      exact ⟨h, rfl, hf⟩
    · rw [Chart.exitUpTo, if_neg hs] at hk
      cases hk
  | succ n ih =>
    by_cases hs : cur = s
    · rw [Chart.exitUpTo, if_pos hs] at hk ⊢
      obtain rfl := Option.some.inj hk
      exact ⟨h, rfl, hf⟩
    · have hf' := hf.exitState hC cur
      rw [Chart.exitUpTo, if_neg hs] at hk ⊢
      dsimp only at hk ⊢
      rw [hf'.temp]
      exact ih _ hf' hk

include hC in
theorem Follows.exitToLca (tpath : List (StateFn S)) (n : ℕ) (cur : StateFn S)
    (hf : C.Follows e h₀ h k) {i : ℕ} {k' : Hsm S σ Unit}
    (hk : K.exitToLca tpath n cur k = some (i, k')) :
    ∃ h', C.exitToLca tpath n cur h = some (i, h') ∧ C.Follows e h₀ h' k' := by
  induction n generalizing cur h k with
  | zero =>
    unfold Chart.exitToLca at hk ⊢
    by_cases hs : cur = none
    · rw [if_pos hs] at hk ⊢
      obtain ⟨rfl, rfl⟩ := Prod.mk.inj (Option.some.inj hk)
      exact ⟨h, rfl, hf⟩
    · rw [if_neg hs] at hk ⊢
      split at hk
      · obtain ⟨rfl, rfl⟩ := Prod.mk.inj (Option.some.inj hk)
        exact ⟨h, rfl, hf⟩
      · cases hk
  | succ n ih =>
    unfold Chart.exitToLca at hk ⊢
    by_cases hs : cur = none
    · rw [if_pos hs] at hk ⊢
      obtain ⟨rfl, rfl⟩ := Prod.mk.inj (Option.some.inj hk)
      exact ⟨h, rfl, hf⟩
    · rw [if_neg hs] at hk ⊢
      split at hk
      · obtain ⟨rfl, rfl⟩ := Prod.mk.inj (Option.some.inj hk)
        exact ⟨h, rfl, hf⟩
      · have hf' := hf.exitState hC cur
        dsimp only at hk ⊢
        rw [hf'.temp]
        exact ih _ hf' hk

include hC in
theorem Follows.drill (n : ℕ) (cur : StateFn S) (hf : C.Follows e h₀ h k) {leaf : StateFn S}
    {k' : Hsm S σ Unit} (hk : K.drill n cur k = some (leaf, k')) :
    ∃ h', C.drill n cur h = some (leaf, h') ∧ C.Follows e h₀ h' k' := by
  induction n generalizing cur h k with
  | zero => simp [Chart.drill] at hk
  | succ n ih =>
    obtain ⟨hr, hf'⟩ := (hf.setTemp cur).call hC cur ofEvent_init
    unfold Chart.drill at hk ⊢
    dsimp only at hk ⊢
    rw [hr]
    split at hk
    · rename_i hst
      obtain ⟨hp, hf''⟩ := Follows.pathUp hC (fun q => q = cur ∨ q = none)
        (K.call { k with temp := cur } cur .init).2.temp hf'
      rw [if_pos hst, hf'.temp, hp]
      exact ih _ (hf''.enterAll hC _) hk
    · rename_i hst
      rw [if_neg hst]
      obtain ⟨rfl, rfl⟩ := Prod.mk.inj (Option.some.inj hk)
      exact ⟨_, rfl, hf'⟩

include hC in
theorem Follows.cross (n : ℕ) (s target : StateFn S) (hf : C.Follows e h₀ h k)
    {k' : Hsm S σ Unit} (hk : K.cross n s target k = some k') :
    ∃ h', C.cross n s target h = some h' ∧ C.Follows e h₀ h' k' := by
  unfold Chart.cross at hk ⊢
  by_cases hs : s = target
  · rw [if_pos hs] at hk ⊢
    obtain rfl := Option.some.inj hk
    exact ⟨_, rfl, ((hf.call hC s ofEvent_exit).2.call hC target ofEvent_entry).2⟩
  · rw [if_neg hs] at hk ⊢
    obtain ⟨hl, hf'⟩ := hf.collectLineage hC target
    dsimp only at hk ⊢
    obtain ⟨⟨i, k₁⟩, hk₁, hk₂⟩ := Option.bind_eq_some_iff.mp hk
    obtain ⟨h₁, hh₁, hf₁⟩ := Follows.exitToLca hC _ n s hf' hk₁
    obtain rfl := Option.some.inj hk₂
    rw [hl, hh₁]
    exact ⟨_, rfl, hf₁.enterAll hC _⟩

include hC in
theorem Follows.transfer (n : ℕ) (s : StateFn S) (hf : C.Follows e h₀ h k)
    {k' : Hsm S σ Unit} (hk : K.transfer n s k = some k') :
    ∃ h', C.transfer n s h = some h' ∧ C.Follows e h₀ h' k' := by
  unfold Chart.transfer at hk ⊢
  dsimp only at hk ⊢
  obtain ⟨k₁, hk₁, hk⟩ := Option.bind_eq_some_iff.mp hk
  obtain ⟨k₂, hk₂, hk⟩ := Option.bind_eq_some_iff.mp hk
  obtain ⟨⟨leaf, k₃⟩, hk₃, hk⟩ := Option.bind_eq_some_iff.mp hk
  obtain rfl := Option.some.inj hk
  obtain ⟨h₁, hh₁, hf₁⟩ := Follows.exitUpTo hC s n k.state hf hk₁
  obtain ⟨h₂, hh₂, hf₂⟩ := Follows.cross hC n s k.temp hf₁ hk₂
  obtain ⟨h₃, hh₃, hf₃⟩ := Follows.drill hC n k.temp hf₂ hk₃
  rw [hf.state, hf.temp, hh₁]
  dsimp only [Option.bind_eq_bind, Option.bind_some]
  rw [hh₂]
  dsimp only [Option.bind_some]
  rw [hh₃]
  exact ⟨_, rfl, ⟨rfl, rfl, hf₃.ignored, hf₃.log, hf₃.ext⟩⟩

include hC in
/-- Dispatching is running the bare machine and applying the actions it logged. -/
theorem dispatch_eq_of_bare (n : ℕ) {k' : Hsm S σ Unit}
    (hk : K.dispatch n (sig e) ⟨h.state, h.state, false, (), []⟩ = some k') :
    C.dispatch n e h = some ⟨k'.state, k'.temp, k'.lastIgnored,
      C.applyAll h.ext (k'.log.map (liftAction e)), h.log ++ k'.log.map (liftAction e)⟩ := by
  have hf : C.Follows e h { h with lastIgnored := false, temp := h.state }
      (⟨h.state, h.state, false, (), []⟩ : Hsm S σ Unit) := ⟨rfl, rfl, rfl, by simp, rfl⟩
  unfold Chart.dispatch at hk ⊢
  dsimp only at hk ⊢
  obtain ⟨⟨s, r, k₁⟩, hk₁, hk⟩ := Option.bind_eq_some_iff.mp hk
  obtain ⟨h₁, hh₁, hf₁⟩ := Follows.walkUp hC n hf hk₁
  rw [hh₁]
  dsimp only [Option.bind_eq_bind, Option.bind_some] at hk ⊢
  split at hk
  · rename_i hr
    obtain ⟨h₂, hh₂, hf₂⟩ := Follows.transfer hC n s hf₁ hk
    rw [if_pos hr, hh₂, ← hf₂.log, ← hf₂.ext, ← hf₂.state, ← hf₂.temp, ← hf₂.ignored]
  · rename_i hr
    obtain rfl := Option.some.inj hk
    rw [if_neg hr, ← hf₁.log, ← hf₁.ext, ← hf₁.state]

end Chart
end TelafSim
