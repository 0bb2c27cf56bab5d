import TelafSim.Hsm

/-!
# Dispatch by least common ancestors

What `Hsm::dispatch` is for, said without the scratch slot and the path arrays. A well-formed chart
carries its forest of super-states; every super call names the parent, lineages have at most
`kMaxNest` states, and INIT only drills downwards.

An event walks up from the current state until a state answers neither TO_SUPER nor UNHANDLED. A
transfer to `t` leaves, innermost first, every active state strictly below the least common
ancestor of the source and `t`, enters, outermost first, every state above or equal to `t`
strictly below it, and then follows the INIT transitions of `t` down to a leaf.
-/

namespace TelafSim

structure WellFormedChart (S ε X : Type*) extends Chart S ε X where
  forest : Forest S
  empty_reply : ∀ s x, handler s .empty x = .super (forest.parent s) x
  super_parent : ∀ s ev x, (handler s ev x).status = .toSuper →
    (handler s ev x).temp = some (forest.parent s)
  transfer_target : ∀ s e x, (handler s (.user e) x).status = .needToTransfer →
    (handler s (.user e) x).temp ≠ none
  exit_reply : ∀ s x, (handler s .exit x).status = .handled ∨ (handler s .exit x).status = .toSuper
  entry_reply : ∀ s x,
    (handler s .entry x).status = .handled ∨ (handler s .entry x).status = .toSuper
  init_reply : ∀ s x, (handler s .init x).status = .needToTransfer →
    ∃ t, (handler s .init x).temp = some (some t) ∧ s ∈ forest.path (forest.parent t)
  nest : ∀ s, (forest.path (some s)).length ≤ kMaxNest

namespace WellFormedChart

variable {S ε X : Type*} (W : WellFormedChart S ε X)

theorem path_length_le (q : StateFn S) : (W.forest.path q).length ≤ kMaxNest := by
  cases q with
  | none => simp
  | some s => exact W.nest s

def effects (x : X) (acts : List (Action S ε)) : X :=
  acts.foldl (fun x a => (W.handler a.1 a.2 x).ext) x

theorem effects_append (x : X) (as bs : List (Action S ε)) :
    W.effects x (as ++ bs) = W.effects (W.effects x as) bs := by
  simp [effects]

/-- The upward walk of an event along a path: the states asked, the first one that answers neither
TO_SUPER nor UNHANDLED with its answer, and the data after. -/
def ascent (e : ε) : List S → X → List S × Option (S × Reply S X) × X
  | [], x => ([], none, x)
  | s :: rest, x =>
    let r := W.handler s (.user e) x
    if r.status = .toSuper ∨ r.status = .unhandled then
      let a := ascent e rest r.ext
      (s :: a.1, a.2)
    else ([s], some (s, r), r.ext)

theorem ascent_transfer {e : ε} {l asked : List S} {s : S} {r : Reply S X} {x x' : X}
    (h : W.ascent e l x = (asked, some (s, r), x')) (hs : r.status = .needToTransfer) :
    r.temp ≠ none := by
  induction l generalizing x asked with
  | nil => simp [ascent] at h
  | cons a l ih =>
    simp only [ascent] at h
    split at h
    · obtain ⟨rfl, ht⟩ := Prod.mk.inj h
      exact ih (Prod.ext rfl ht)
    · simp only [Prod.mk.injEq, Option.some.injEq] at h
      obtain ⟨-, ⟨rfl, rfl⟩, -⟩ := h
      exact W.transfer_target _ _ _ hs

noncomputable def entries (b t : StateFn S) : List (Action S ε) :=
  (W.forest.segment t b).reverse.map (fun x => (x, .entry))

/-- The INIT drill from a target just entered down to the leaf it settles on. -/
inductive Settles : StateFn S → X → List (Action S ε) → StateFn S → X → Prop
  | top (x : X) : Settles none x [] none x
  | leaf (s : S) (x : X) (h : (W.handler s .init x).status ≠ .needToTransfer) :
      Settles (some s) x [(s, .init)] (some s) (W.handler s .init x).ext
  | step (s t : S) (x : X) {acts : List (Action S ε)} {leaf : StateFn S} {x' : X}
      (h : (W.handler s .init x).status = .needToTransfer)
      (ht : (W.handler s .init x).temp = some (some t))
      (hr : Settles (some t) (W.effects (W.handler s .init x).ext (W.entries (some s) (some t)))
        acts leaf x') :
      Settles (some s) x ((s, .init) :: W.entries (some s) (some t) ++ acts) leaf x'

theorem settles_unique {t : StateFn S} {x x₁ x₂ : X} {as bs : List (Action S ε)} {l m : StateFn S}
    (h₁ : W.Settles t x as l x₁) (h₂ : W.Settles t x bs m x₂) : as = bs ∧ l = m ∧ x₁ = x₂ := by
  induction h₁ generalizing bs m x₂ with
  | top x =>
    cases h₂
    exact ⟨rfl, rfl, rfl⟩
  | leaf s x h =>
    cases h₂ with
    | leaf => exact ⟨rfl, rfl, rfl⟩
    | step _ _ _ h' => exact absurd h' h
  | step s t x h ht _ ih =>
    cases h₂ with
    | leaf _ _ h' => exact absurd h h'
    | step _ t' _ _ ht' hr' =>
      obtain rfl : t = t' := by simpa using ht.symm.trans ht'
      obtain ⟨rfl, rfl, rfl⟩ := ih hr'
      exact ⟨rfl, rfl, rfl⟩

/-- The object after some actions, with a given value of the scratch slot. -/
def after (h : Hsm S ε X) (acts : List (Action S ε)) (temp : StateFn S) : Hsm S ε X :=
  { h with temp := temp, ext := W.effects h.ext acts, log := h.log ++ acts }

theorem set_temp_self {h : Hsm S ε X} {q : StateFn S} (ht : h.temp = q) :
    { h with temp := q } = h := by
  subst ht
  rfl

@[simp] theorem after_temp (h : Hsm S ε X) (acts : List (Action S ε)) (q : StateFn S) :
    (W.after h acts q).temp = q := rfl

@[simp] theorem after_state (h : Hsm S ε X) (acts : List (Action S ε)) (q : StateFn S) :
    (W.after h acts q).state = h.state := rfl

@[simp] theorem after_ext (h : Hsm S ε X) (acts : List (Action S ε)) (q : StateFn S) :
    (W.after h acts q).ext = W.effects h.ext acts := rfl

@[simp] theorem after_nil (h : Hsm S ε X) : W.after h [] h.temp = h := by simp [after, effects]

@[simp] theorem after_after (h : Hsm S ε X) (as bs : List (Action S ε)) (q r : StateFn S) :
    W.after (W.after h as q) bs r = W.after h (as ++ bs) r := by
  simp [after, effects_append, List.append_assoc]

theorem set_temp_after (h : Hsm S ε X) (acts : List (Action S ε)) (q r : StateFn S) :
    { W.after h acts q with temp := r } = W.after h acts r := rfl

@[simp] theorem call_top (h : Hsm S ε X) (ev : Event ε) :
    W.call h none ev = (.ignored, h) := rfl

theorem call_empty (h : Hsm S ε X) (s : S) :
    W.call h (some s) .empty = (.toSuper, { h with temp := W.forest.parent s }) := by
  simp [Chart.call, W.empty_reply, Reply.super, Chart.record]

theorem call_entry (h : Hsm S ε X) (s : S) :
    ∃ q, (W.call h (some s) .entry).2 = W.after h [(s, .entry)] q := ⟨_, rfl⟩

theorem exitState_eq (h : Hsm S ε X) (s : S) :
    W.exitState h (some s) = W.after h [(s, .exit)] (W.forest.parent s) := by
  rcases W.exit_reply s h.ext with hr | hr
  · simp only [Chart.exitState]
    rw [if_pos (by exact hr), call_empty]
    rfl
  · have ht := W.super_parent s .exit h.ext hr
    simp only [Chart.exitState]
    rw [if_neg (by simp [Chart.call, hr])]
    simp [Chart.call, ht, after, effects, Chart.record]

theorem enterAll_eq (h : Hsm S ε X) (l : List S) :
    ∃ q, W.enterAll h (l.map some) = W.after h (l.map (fun s => (s, .entry))) q := by
  induction l generalizing h with
  | nil => exact ⟨h.temp, (W.after_nil h).symm⟩
  | cons s l ih =>
    obtain ⟨q, hq⟩ := W.call_entry h s
    obtain ⟨r, hr⟩ := ih (W.after h [(s, .entry)] q)
    refine ⟨r, ?_⟩
    change W.enterAll (W.call h (some s) .entry).2 (l.map some) = _
    rw [hq, hr, after_after]
    rfl

variable [DecidableEq S]

/-- The position up to which a transfer exits and from which it enters. -/
def boundary (s : S) (t : StateFn S) : StateFn S :=
  if t = some s then W.forest.parent s else W.forest.lca (some s) t

theorem boundary_above (s : S) (t : StateFn S) : W.forest.Above (W.boundary s t) (some s) := by
  unfold boundary
  split
  · exact W.forest.above_step (W.forest.above_refl _)
  · exact W.forest.lca_above_left _ _

noncomputable def exits (cur : StateFn S) (s : S) (t : StateFn S) : List (Action S ε) :=
  (W.forest.segment cur (W.boundary s t)).map (fun x => (x, .exit))

/-- The actions an event causes in the state `cur`, the state after it and the data after it. -/
inductive Dispatches (e : ε) (cur : StateFn S) (x : X) :
    List (Action S ε) → StateFn S → X → Prop
  | stay {asked : List S} {a : Option (S × Reply S X)} {x' : X}
      (h : W.ascent e (W.forest.path cur) x = (asked, a, x'))
      (hs : ∀ p, a = some p → p.2.status ≠ .needToTransfer) :
      Dispatches e cur x (asked.map (fun s => (s, .user e))) cur x'
  | move {asked : List S} {s : S} {r : Reply S X} {t : StateFn S} {x₁ x' : X}
      {acts : List (Action S ε)} {leaf : StateFn S}
      (h : W.ascent e (W.forest.path cur) x = (asked, some (s, r), x₁))
      (hs : r.status = .needToTransfer) (ht : r.temp = some t)
      (hd : W.Settles t (W.effects x₁ (W.exits cur s t ++ W.entries (W.boundary s t) t))
        acts leaf x') :
      Dispatches e cur x
        (asked.map (fun s => (s, .user e)) ++ (W.exits cur s t ++ W.entries (W.boundary s t) t)
          ++ acts) leaf x'

theorem dispatches_unique {e : ε} {cur : StateFn S} {x x₁ x₂ : X} {as bs : List (Action S ε)}
    {l m : StateFn S} (h₁ : W.Dispatches e cur x as l x₁) (h₂ : W.Dispatches e cur x bs m x₂) :
    as = bs ∧ l = m ∧ x₁ = x₂ := by
  cases h₁ with
  | stay h hs =>
    cases h₂ with
    | stay h' _ =>
      obtain ⟨rfl, ht⟩ := Prod.mk.inj (h.symm.trans h')
      exact ⟨rfl, rfl, (Prod.mk.inj ht).2⟩
    | move h' hs' =>
      obtain ⟨-, ht⟩ := Prod.mk.inj (h.symm.trans h')
      exact absurd hs' (hs _ (Prod.mk.inj ht).1)
  | move h hs ht hd =>
    cases h₂ with
    | stay h' hs' =>
      obtain ⟨-, htl⟩ := Prod.mk.inj (h.symm.trans h')
      exact absurd hs (hs' _ (Prod.mk.inj htl).1.symm)
    | move h' _ ht' hd' =>
      obtain ⟨rfl, htl⟩ := Prod.mk.inj (h.symm.trans h')
      obtain ⟨hp, rfl⟩ := Prod.mk.inj htl
      obtain ⟨rfl, rfl⟩ := Prod.mk.inj (Option.some.inj hp)
      obtain rfl := Option.some.inj (ht.symm.trans ht')
      obtain ⟨rfl, rfl, rfl⟩ := W.settles_unique hd hd'
      exact ⟨rfl, rfl, rfl⟩

end WellFormedChart
end TelafSim
