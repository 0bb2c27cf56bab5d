import Mathlib.Tactic

/-!
# Procedures that may raise

A procedure works on a state, and returns a value or raises an exception: what it has done to the
state until then stays done. `wp x Q R` is the weakest condition on the state before `x` under
which it ends in `Q` when it returns and in `R` when it raises. The conditions of composed
procedures are computed by the simp lemmas below, and `after` is the state that is left either way.
-/

namespace TelafSim.Procedure

variable {ε σ α β : Type}

def wp (x : EStateM ε σ α) (Q : α → σ → Prop) (R : ε → σ → Prop) (s : σ) : Prop :=
  match x s with
  | .ok a s' => Q a s'
  | .error e s' => R e s'

variable {x : EStateM ε σ α} {f : α → EStateM ε σ β} {Q Q' : α → σ → Prop} {R R' : ε → σ → Prop}
  {s : σ}

@[simp] theorem wp_pure (a : α) : wp (pure a : EStateM ε σ α) Q R s ↔ Q a s := Iff.rfl

@[simp] theorem wp_bind {Q : β → σ → Prop} :
    wp (x >>= f) Q R s ↔ wp x (fun a => wp (f a) Q R) R s := by
  simp only [wp, bind, EStateM.bind]
  cases x s <;> rfl

@[simp] theorem wp_get {Q : σ → σ → Prop} : wp (get : EStateM ε σ σ) Q R s ↔ Q s s := Iff.rfl

@[simp] theorem wp_modify {Q : PUnit → σ → Prop} (g : σ → σ) :
    wp (modify g : EStateM ε σ PUnit) Q R s ↔ Q ⟨⟩ (g s) := Iff.rfl

@[simp] theorem wp_throw (e : ε) : wp (throw e : EStateM ε σ α) Q R s ↔ R e s := Iff.rfl

@[simp] theorem wp_ite {c : Prop} [Decidable c] {y : EStateM ε σ α} :
    wp (if c then x else y) Q R s ↔ if c then wp x Q R s else wp y Q R s := by
  split <;> rfl

theorem wp_mono (h : wp x Q R s) (hQ : ∀ a s', Q a s' → Q' a s') (hR : ∀ e s', R e s' → R' e s') :
    wp x Q' R' s := by
  unfold wp at h ⊢
  cases hx : x s with
  | ok a s' =>
    rw [hx] at h
    exact hQ a s' h
  | error e s' =>
    rw [hx] at h
    exact hR e s' h

theorem wp_and (h : wp x Q R s) (h' : wp x Q' R' s) :
    wp x (fun a s' => Q a s' ∧ Q' a s') (fun e s' => R e s' ∧ R' e s') s := by
  unfold wp at h h' ⊢
  cases hx : x s <;> rw [hx] at h h' <;> exact ⟨h, h'⟩

section Leaves

variable {P : σ → Prop}

/-- `P` holds after `x`, whether it has returned or raised. -/
abbrev Leaves (P : σ → Prop) (x : EStateM ε σ α) (s : σ) : Prop := wp x (fun _ => P) (fun _ => P) s

theorem Leaves.bind (hx : Leaves P x s) (hf : ∀ a s', P s' → Leaves P (f a) s') :
    Leaves P (x >>= f) s := by
  rw [Leaves, wp_bind]
  exact wp_mono hx hf (fun _ _ h => h)

/-- The state that is left, whether the procedure has returned or raised. -/
def after (x : EStateM ε σ α) (s : σ) : σ :=
  match x s with
  | .ok _ s' => s'
  | .error _ s' => s'

theorem Leaves.after (h : Leaves P x s) : P (after x s) := by
  unfold Leaves wp at h
  unfold Procedure.after
  cases hx : x s <;> rw [hx] at h <;> exact h

end Leaves

section Yields

variable {P P' : σ → Prop}

/-- `x` returns, and `P` holds after it. -/
abbrev Yields (P : σ → Prop) (x : EStateM ε σ α) (s : σ) : Prop :=
  wp x (fun _ => P) (fun _ _ => False) s

theorem Yields.bind (hx : Yields P x s) (hf : ∀ a s', P s' → Yields P' (f a) s') :
    Yields P' (x >>= f) s := by
  rw [Yields, wp_bind]
  exact wp_mono hx hf (fun _ _ h => h)

theorem Yields.leaves (h : Yields P x s) : Leaves P x s :=
  wp_mono h (fun _ _ hs => hs) (fun _ _ hfalse => hfalse.elim)

end Yields

section Keeps

variable {τ : Type}

/-- What `v` reads of the state is the same after `x`, whether it has returned or raised. -/
def Keeps (v : σ → τ) (x : EStateM ε σ α) : Prop :=
  ∀ s, wp x (fun _ s' => v s' = v s) (fun _ s' => v s' = v s) s

variable {v : σ → τ}

theorem Keeps.leaves (h : Keeps v x) {P : τ → Prop} (hs : P (v s)) :
    Leaves (fun s' => P (v s')) x s :=
  wp_mono (h s) (fun _ _ heq => heq ▸ hs) (fun _ _ heq => heq ▸ hs)

theorem Keeps.after (h : Keeps v x) (s : σ) : v (after x s) = v s :=
  Leaves.after (P := fun s' => v s' = v s) (h s)

theorem Keeps.of_eq {ρ : Type} {u : σ → ρ} (h : Keeps v x) (g : τ → ρ) (hg : ∀ s, u s = g (v s)) :
    Keeps u x := by
  intro s
  refine wp_mono (h s) ?_ ?_ <;>
  · intro _ s' heq
    rw [hg, hg, heq]

theorem keeps_pure (a : α) : Keeps v (pure a : EStateM ε σ α) := fun _ => rfl

theorem keeps_get : Keeps v (get : EStateM ε σ σ) := fun _ => rfl

theorem keeps_throw (e : ε) : Keeps v (throw e : EStateM ε σ α) := fun _ => rfl

theorem keeps_modify {g : σ → σ} (h : ∀ s, v (g s) = v s) :
    Keeps v (modify g : EStateM ε σ PUnit) := h

theorem Keeps.bind (hx : Keeps v x) (hf : ∀ a, Keeps v (f a)) : Keeps v (x >>= f) := by
  intro s
  rw [wp_bind]
  refine wp_mono (hx s) ?_ (fun _ _ heq => heq)
  intro a s' heq
  exact heq ▸ hf a s'

theorem Keeps.ite {c : Prop} [Decidable c] {y : EStateM ε σ α} (hx : Keeps v x) (hy : Keeps v y) :
    Keeps v (if c then x else y) := by
  split
  · exact hx
  · exact hy

end Keeps

section Goes

/-- Where `x` goes to, whether it has returned or raised, is related to where it comes from. -/
def Goes (r : σ → σ → Prop) (x : EStateM ε σ α) : Prop :=
  ∀ s, wp x (fun _ s' => r s s') (fun _ s' => r s s') s

variable {r : σ → σ → Prop}

theorem Goes.after (h : Goes r x) (s : σ) : r s (after x s) := Leaves.after (P := r s) (h s)

theorem goes_of_keeps {τ : Type} {v : σ → τ} (hr : ∀ s s', v s' = v s → r s s') (h : Keeps v x) :
    Goes r x := by
  intro s
  exact wp_mono (h s) (fun _ s' heq => hr s s' heq) (fun _ s' heq => hr s s' heq)

theorem goes_modify {g : σ → σ} (h : ∀ s, r s (g s)) : Goes r (modify g : EStateM ε σ PUnit) := h

theorem Goes.bind [IsTrans σ r] (hx : Goes r x) (hf : ∀ a, Goes r (f a)) : Goes r (x >>= f) := by
  intro s
  rw [wp_bind]
  refine wp_mono (hx s) ?_ (fun _ _ h => h)
  intro a s' hs'
  have hon : ∀ s'', r s' s'' → r s s'' := fun s'' h => IsTrans.trans s s' s'' hs' h
  exact wp_mono (hf a s') (fun _ _ h => hon _ h) (fun _ _ h => hon _ h)

theorem Goes.ite {c : Prop} [Decidable c] {y : EStateM ε σ α} (hx : Goes r x) (hy : Goes r y) :
    Goes r (if c then x else y) := by
  split
  · exact hx
  · exact hy

section Reflexive

variable [Std.Refl r]

theorem goes_pure (a : α) : Goes r (pure a : EStateM ε σ α) := fun s => Std.Refl.refl s

theorem goes_get : Goes r (get : EStateM ε σ σ) := fun s => Std.Refl.refl s

theorem goes_throw (e : ε) : Goes r (throw e : EStateM ε σ α) := fun s => Std.Refl.refl s

end Reflexive

end Goes

end TelafSim.Procedure
