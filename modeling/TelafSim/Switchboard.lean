import Mathlib.Data.List.Basic
import Mathlib.Logic.Function.Basic
import Mathlib.Tactic

/-!
# Switches that are announced

A board of switches, each on or off, with the announcements made for each. The board is faithful if
the announcements of every switch take turns, beginning with one that turns it on, and the switch is
on exactly if the last of them turned it on. A turn keeps a faithful board faithful exactly if it
changes the switch; what is announced wrongly once stays wrong. Switches that are cleared without an
announcement have to be off.
-/

namespace TelafSim

structure Switchboard (κ α : Type*) where
  on : κ → Bool
  log : κ → List α

namespace Switchboard

variable {κ α : Type*} (turnsOn : α → Bool)

/-- The last announcement turned the switch on. -/
def lit (l : List α) : Bool := l.getLast?.any turnsOn

/-- Each announcement changes what the one before it left. -/
def Alternates (l : List α) : Prop := ∀ l₁ a l₂, l = l₁ ++ a :: l₂ → turnsOn a = !lit turnsOn l₁

structure Faithful (b : Switchboard κ α) : Prop where
  alternates : ∀ k, Alternates turnsOn (b.log k)
  agrees : ∀ k, b.on k = lit turnsOn (b.log k)

section Alternates

variable {turnsOn} {l l' : List α} {a : α}

@[simp] theorem lit_concat : lit turnsOn (l ++ [a]) = turnsOn a := by simp [lit]

theorem alternates_nil : Alternates turnsOn [] := by
  intro l₁ a l₂ h
  simp at h

theorem Alternates.left (h : Alternates turnsOn (l ++ l')) : Alternates turnsOn l := by
  intro l₁ a l₂ hl
  refine h l₁ a (l₂ ++ l') ?_
  rw [hl, List.append_assoc, List.cons_append]

theorem alternates_concat :
    Alternates turnsOn (l ++ [a]) ↔ Alternates turnsOn l ∧ turnsOn a = !lit turnsOn l := by
  constructor
  · intro h
    exact ⟨h.left, h l a [] rfl⟩
  · rintro ⟨h, ha⟩ l₁ c l₂ hl
    rcases List.eq_nil_or_concat l₂ with rfl | ⟨l₃, d, rfl⟩
    · obtain ⟨rfl, hac⟩ := List.append_inj' hl rfl
      obtain rfl : a = c := by simpa using hac
      exact ha
    · rw [List.concat_eq_append, ← List.cons_append, ← List.append_assoc] at hl
      obtain ⟨rfl, -⟩ := List.append_inj' hl rfl
      exact h l₁ c l₃ rfl

end Alternates

variable [DecidableEq κ]

def turn (b : Switchboard κ α) (c : κ × α) : Switchboard κ α where
  on := Function.update b.on c.1 (turnsOn c.2)
  log := Function.update b.log c.1 (b.log c.1 ++ [c.2])

def turns (b : Switchboard κ α) (cs : List (κ × α)) : Switchboard κ α := cs.foldl (turn turnsOn) b

/-- The switches in `ks` are off, and nothing is announced. -/
def clear (ks : κ → Bool) (b : Switchboard κ α) : Switchboard κ α where
  on := fun k => !ks k && b.on k
  log := b.log

/-- Each of the turns changes its switch. -/
def Regular : (κ → Bool) → List (κ × α) → Prop
  | _, [] => True
  | on, c :: cs =>
    turnsOn c.2 = !on c.1 ∧ Regular (Function.update on c.1 (turnsOn c.2)) cs

/-- How the turns leave the switches. -/
def settle (on : κ → Bool) (cs : List (κ × α)) : κ → Bool :=
  cs.foldl (fun on c => Function.update on c.1 (turnsOn c.2)) on

section Turns

variable {turnsOn} {b : Switchboard κ α}

theorem on_turns (b : Switchboard κ α) (cs : List (κ × α)) :
    (b.turns turnsOn cs).on = settle turnsOn b.on cs := by
  induction cs generalizing b with
  | nil => rfl
  | cons c cs ih => exact ih (b.turn turnsOn c)

theorem log_turns (b : Switchboard κ α) (cs : List (κ × α)) (k : κ) :
    ∃ l, (b.turns turnsOn cs).log k = b.log k ++ l := by
  induction cs generalizing b with
  | nil => exact ⟨[], (List.append_nil _).symm⟩
  | cons c cs ih =>
    obtain ⟨l, hl⟩ := ih (b.turn turnsOn c)
    by_cases hk : k = c.1
    · subst hk
      refine ⟨c.2 :: l, ?_⟩
      change ((b.turn turnsOn c).turns turnsOn cs).log c.1 = _
      rw [hl]
      simp [turn]
    · refine ⟨l, ?_⟩
      change ((b.turn turnsOn c).turns turnsOn cs).log k = _
      rw [hl]
      simp [turn, hk]

theorem Faithful.turn (h : b.Faithful turnsOn) {c : κ × α} (hc : turnsOn c.2 = !b.on c.1) :
    (b.turn turnsOn c).Faithful turnsOn := by
  constructor
  · intro k
    by_cases hk : k = c.1
    · subst hk
      simp only [Switchboard.turn, Function.update_self]
      exact alternates_concat.mpr ⟨h.alternates c.1, h.agrees c.1 ▸ hc⟩
    · simpa only [Switchboard.turn, Function.update_of_ne hk] using h.alternates k
  · intro k
    by_cases hk : k = c.1
    · subst hk
      simp [Switchboard.turn]
    · simpa only [Switchboard.turn, Function.update_of_ne hk] using h.agrees k

theorem Faithful.turns (h : b.Faithful turnsOn) {cs : List (κ × α)}
    (hcs : Regular turnsOn b.on cs) : (b.turns turnsOn cs).Faithful turnsOn := by
  induction cs generalizing b with
  | nil => exact h
  | cons c cs ih => exact ih (h.turn hcs.1) hcs.2

/-- An irregular turn is seen in the announcements ever after. -/
theorem Faithful.regular_of_alternates (h : b.Faithful turnsOn) {cs : List (κ × α)}
    (halt : ∀ k, Alternates turnsOn ((b.turns turnsOn cs).log k)) : Regular turnsOn b.on cs := by
  induction cs generalizing b with
  | nil => trivial
  | cons c cs ih =>
    have hc : turnsOn c.2 = !b.on c.1 := by
      obtain ⟨l, hl⟩ : ∃ l, ((b.turn turnsOn c).turns turnsOn cs).log c.1 = _ ++ l :=
        log_turns _ cs c.1
      have hlog : (b.turns turnsOn (c :: cs)).log c.1 = (b.log c.1 ++ [c.2]) ++ l := by
        refine hl.trans ?_
        simp [Switchboard.turn]
      have hall := halt c.1
      rw [hlog] at hall
      rw [h.agrees]
      exact (alternates_concat.mp hall.left).2
    exact ⟨hc, ih (h.turn hc) halt⟩

theorem faithful_turns_iff (h : b.Faithful turnsOn) (cs : List (κ × α)) :
    (b.turns turnsOn cs).Faithful turnsOn ↔ Regular turnsOn b.on cs :=
  ⟨fun h' => h.regular_of_alternates h'.alternates, h.turns⟩

/-- Switches may be cleared behind some turns exactly if these were regular and left them off. -/
theorem faithful_clear_turns_iff (h : b.Faithful turnsOn) (ks : κ → Bool) (cs : List (κ × α)) :
    ((b.turns turnsOn cs).clear ks).Faithful turnsOn ↔
      Regular turnsOn b.on cs ∧ ∀ k, ks k → settle turnsOn b.on cs k = false := by
  constructor
  · intro h'
    have hcs : Regular turnsOn b.on cs := h.regular_of_alternates h'.alternates
    refine ⟨hcs, ?_⟩
    intro k hk
    have hagree := h'.agrees k
    simp only [clear, hk, Bool.not_true, Bool.false_and] at hagree
    rw [← on_turns, (h.turns hcs).agrees, ← hagree]
  · rintro ⟨hcs, hoff⟩
    have hturns := h.turns hcs
    refine ⟨hturns.alternates, ?_⟩
    intro k
    rw [← on_turns] at hoff
    cases hk : ks k with
    | false => simpa [clear, hk] using hturns.agrees k
    | true => simpa [clear, hk, hoff k hk] using hturns.agrees k

end Turns

end Switchboard

end TelafSim
