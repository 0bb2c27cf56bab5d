import TelafSim.Dict

/-!
# The timer service

`chart/time_event.hpp`: timers wait in `items_`, the earliest deadline first, and one worker thread
invokes them. The worker gives up the lock only to wait and to run a callback, for which it holds
a copy of an item that is in neither container. So a step is a call of `schedule` or `cancel`, by
any thread or by the callback that is running, or all the worker does between two of these.

Tokens are a 64-bit counter, which wraps. `log`, the latest event first, is recorded for the
statements only.
-/

namespace TelafSim.Timers

abbrev Token := UInt64

structure Item (φ : Type) where
  /-- In nanoseconds, as the clock. -/
  due : ℤ
  fn : φ
  /-- In milliseconds, `0` for a one-shot. -/
  period : ℤ
  tok : Token
  deriving DecidableEq

inductive Event (φ : Type)
  | scheduled (it : Item φ)
  | cancelled (tok : Token)
  | invoked (it : Item φ)
  | reinserted (it : Item φ)
  deriving DecidableEq

/-- Where the worker has given up the lock: before it takes it first or in `wait`, in `wait_until`,
in a callback, after reading the clock at `now`, or for good. -/
inductive Worker (φ : Type)
  | idle
  | sleeping
  | running (it : Item φ) (now : ℤ)
  | returned (left : Option (Item φ))
  deriving DecidableEq

structure TimerService (φ : Type) where
  items : List (Item φ)
  valid : Dict Token Bool
  next : Token
  stopping : Bool
  worker : Worker φ
  log : List (Event φ)

/-- `work now` ends a wait, for whatever reason, or a callback; `destroy` is the destructor's
critical section. -/
inductive Label (φ : Type)
  | schedule (fn : φ) (first period : ℤ)
  | cancel (tok : Token)
  | work (now : ℤ)
  | destroy
  deriving DecidableEq

variable {φ : Type}

namespace Item

/-- `operator<`. -/
def lt (a b : Item φ) : Prop := if a.due ≠ b.due then a.due < b.due else a.tok < b.tok

instance : DecidableRel (lt : Item φ → Item φ → Prop) := fun a b =>
  inferInstanceAs (Decidable (if a.due ≠ b.due then a.due < b.due else a.tok < b.tok))

def restart (now : ℤ) (it : Item φ) : Item φ := { it with due := now + it.period * 1000000 }

end Item

namespace Event

def issued : Event φ → Option Token
  | .scheduled it => some it.tok
  | _ => none

def fired : Event φ → Option Token
  | .invoked it => some it.tok
  | _ => none

end Event

def issued (log : List (Event φ)) : List Token := log.filterMap Event.issued

def fired (log : List (Event φ)) : List Token := log.filterMap Event.fired

def Cancelled (tok : Token) : List (Event φ) → Prop
  | [] => False
  | e :: log => (e = .cancelled tok ∧ tok ∈ issued log) ∨ Cancelled tok log

/-- No timer is invoked, or put back, that had been cancelled before. -/
def Heeded : List (Event φ) → Prop
  | [] => True
  | e :: log => (∀ it, e = .invoked it ∨ e = .reinserted it → ¬ Cancelled it.tok log) ∧ Heeded log

def Label.isSchedule : Label φ → Bool
  | .schedule .. => true
  | _ => false

/-- The item that is out of `items_` with its token still in `valid_`. -/
def Worker.held : Worker φ → Option (Item φ)
  | .running it _ => some it
  | .returned left => left
  | _ => none

variable {log : List (Event φ)} {tok : Token}

@[simp] theorem issued_cons (e : Event φ) (log : List (Event φ)) :
    issued (e :: log) = e.issued.toList ++ issued log := by
  cases e <;> rfl

@[simp] theorem fired_cons (e : Event φ) (log : List (Event φ)) :
    fired (e :: log) = e.fired.toList ++ fired log := by
  cases e <;> rfl

theorem mem_issued_iff : tok ∈ issued log ↔ ∃ it : Item φ, .scheduled it ∈ log ∧ it.tok = tok := by
  rw [issued, List.mem_filterMap]
  constructor
  · rintro ⟨e, he, htok⟩
    cases e with
    | scheduled it => exact ⟨it, he, Option.some.inj htok⟩
    | _ => cases htok
  · rintro ⟨it, he, htok⟩
    exact ⟨.scheduled it, he, congrArg some htok⟩

theorem mem_fired_iff : tok ∈ fired log ↔ ∃ it : Item φ, .invoked it ∈ log ∧ it.tok = tok := by
  rw [fired, List.mem_filterMap]
  constructor
  · rintro ⟨e, he, htok⟩
    cases e with
    | invoked it => exact ⟨it, he, Option.some.inj htok⟩
    | _ => cases htok
  · rintro ⟨it, he, htok⟩
    exact ⟨.invoked it, he, congrArg some htok⟩

theorem scheduled_unique (h : (issued log).Nodup) {a b : Item φ} (ha : .scheduled a ∈ log)
    (hb : .scheduled b ∈ log) (htok : a.tok = b.tok) : a = b := by
  induction log with
  | nil => cases ha
  | cons e log ih =>
    have hnew : ∀ {x y : Item φ}, e = .scheduled x → .scheduled y ∈ log → x.tok ≠ y.tok := by
      rintro x y rfl hy heq
      have hnot : x.tok ∉ issued log := (List.nodup_cons.mp h).1
      exact hnot (mem_issued_iff.mpr ⟨y, hy, heq.symm⟩)
    obtain ha | ha := List.mem_cons.mp ha
    · obtain hb | hb := List.mem_cons.mp hb
      · exact Event.scheduled.inj (ha.trans hb.symm)
      · exact absurd htok (hnew ha.symm hb)
    · obtain hb | hb := List.mem_cons.mp hb
      · exact absurd htok.symm (hnew hb.symm ha)
      · exact ih (h.sublist ((List.sublist_cons_self e log).filterMap _)) ha hb

theorem Cancelled.issued (h : Cancelled tok log) : tok ∈ issued log := by
  induction log with
  | nil => exact h.elim
  | cons e log ih =>
    have hmem : tok ∈ Timers.issued log := h.elim And.right ih
    exact ((List.sublist_cons_self e log).filterMap _).subset hmem

theorem Cancelled.append (h : Cancelled tok log) (es : List (Event φ)) :
    Cancelled tok (es ++ log) := by
  induction es with
  | nil => exact h
  | cons e es ih => exact Or.inr ih

namespace TimerService

def construct : TimerService φ where
  items := []
  valid := .empty
  next := 0
  stopping := false
  worker := .idle
  log := []

/-- `items_.insert`: behind what is equivalent. -/
def insertItem (it : Item φ) (items : List (Item φ)) : List (Item φ) :=
  items.orderedInsert Item.lt it

def schedule (fn : φ) (first period : ℤ) (s : TimerService φ) : TimerService φ :=
  let tok := s.next + 1
  let it : Item φ := { due := first, fn := fn, period := period, tok := tok }
  { s with
    next := tok
    valid := s.valid.set tok true
    items := insertItem it s.items
    log := .scheduled it :: s.log }

def cancel (tok : Token) (s : TimerService φ) : TimerService φ :=
  { s with
    valid := if (s.valid.get tok).isSome then s.valid.set tok false else s.valid
    log := .cancelled tok :: s.log }

def drain (now : ℤ) : List (Item φ) → TimerService φ → TimerService φ
  | [], s => { s with items := [], worker := .idle }
  | it :: items, s =>
    if now < it.due then { s with items := it :: items, worker := .sleeping }
    else if s.valid.get it.tok = some true then
      { s with items := items, worker := .running it now, log := .invoked it :: s.log }
    else drain now items { s with valid := s.valid.pop it.tok }

/-- What follows a callback: a periodic timer that is still alive goes back. -/
def finish (it : Item φ) (now : ℤ) (s : TimerService φ) : TimerService φ :=
  if 0 < it.period ∧ s.valid.get it.tok = some true then
    { s with
      items := insertItem (it.restart now) s.items
      worker := .sleeping
      log := .reinserted (it.restart now) :: s.log }
  else { s with valid := s.valid.pop it.tok, worker := .sleeping }

/-- The worker has the lock again. The loop that a callback interrupts goes on with the clock as it
was read at its start. -/
def work (now : ℤ) (s : TimerService φ) : Option (TimerService φ) :=
  match s.worker with
  | .idle =>
    if s.stopping then some { s with worker := .returned none }
    else if s.items.isEmpty then some s
    else some { s with worker := .sleeping }
  | .sleeping =>
    if s.stopping then some { s with worker := .returned none } else some (drain now s.items s)
  | .running it start =>
    if s.stopping then some { s with worker := .returned (some it) }
    else some (drain start (s.finish it now).items (s.finish it now))
  | .returned _ => none

def step (s : TimerService φ) : Label φ → Option (TimerService φ)
  | .schedule fn first period => some (s.schedule fn first period)
  | .cancel tok => some (s.cancel tok)
  | .work now => s.work now
  | .destroy => some { s with stopping := true }

/-- The items whose tokens are in `valid_`. -/
def holding (s : TimerService φ) : List (Item φ) := s.items ++ s.worker.held.toList

/-- A timer has been scheduled as the item says, with whatever first deadline. -/
def Scheduled (s : TimerService φ) (it : Item φ) : Prop :=
  ∃ first, .scheduled { it with due := first } ∈ s.log

def counter (s : TimerService φ) : Token × List Token := (s.next, issued s.log)

variable {s s' : TimerService φ} {it : Item φ}

theorem mem_insertItem {x : Item φ} {items : List (Item φ)} :
    x ∈ insertItem it items ↔ x = it ∨ x ∈ items := List.mem_orderedInsert Item.lt

theorem insertItem_perm (it : Item φ) (items : List (Item φ)) :
    (insertItem it items).Perm (it :: items) := List.perm_orderedInsert Item.lt it items

theorem Scheduled.issued (h : s.Scheduled it) : it.tok ∈ issued s.log := by
  obtain ⟨first, hfirst⟩ := h
  exact mem_issued_iff.mpr ⟨_, hfirst, rfl⟩

theorem Scheduled.mono (h : s.Scheduled it) (hlog : s.log ⊆ s'.log) : s'.Scheduled it := by
  obtain ⟨first, hfirst⟩ := h
  exact ⟨first, hlog hfirst⟩

/-- An item that agrees with the one scheduled in all but its deadline. -/
theorem Scheduled.restart (h : s.Scheduled it) (now : ℤ) : s.Scheduled (it.restart now) := h

theorem counter_drain (now : ℤ) (items : List (Item φ)) (s : TimerService φ) :
    (drain now items s).counter = s.counter := by
  induction items generalizing s with
  | nil => rfl
  | cons it items ih =>
    unfold drain
    split_ifs
    · rfl
    · simp [counter, Event.issued]
    · exact ih _

theorem held_finish (it : Item φ) (now : ℤ) (s : TimerService φ) :
    (s.finish it now).worker.held = none := by
  unfold finish
  split_ifs <;> rfl

theorem counter_finish (it : Item φ) (now : ℤ) (s : TimerService φ) :
    (s.finish it now).counter = s.counter := by
  unfold finish
  split_ifs <;> simp [counter, Event.issued]

/-- All the worker can do with the lock: return or wait again, or go through the loop, at its start
or from a callback on. -/
theorem work_cases {now : ℤ} (hwork : s.work now = some s') :
    (∃ w, w.held = s.worker.held ∧ (∀ left, w = .returned left → s.stopping) ∧
        (∀ it start, w ≠ .running it start) ∧ s' = { s with worker := w }) ∨
      (s.worker.held = none ∧ s' = drain now s.items s) ∨
      ∃ it start, s.worker.held = some it ∧
        s' = drain start (s.finish it now).items (s.finish it now) := by
  unfold work at hwork
  cases hworker : s.worker with
  | idle =>
    rw [hworker] at hwork
    simp only at hwork
    split_ifs at hwork with hstop <;> obtain rfl := Option.some.inj hwork
    · exact Or.inl ⟨.returned none, rfl, fun _ _ => hstop, by simp, rfl⟩
    · exact Or.inl ⟨.idle, rfl, by simp, by simp, by rw [← hworker]⟩
    · exact Or.inl ⟨.sleeping, rfl, by simp, by simp, rfl⟩
  | sleeping =>
    rw [hworker] at hwork
    simp only at hwork
    split_ifs at hwork with hstop <;> obtain rfl := Option.some.inj hwork
    · exact Or.inl ⟨.returned none, rfl, fun _ _ => hstop, by simp, rfl⟩
    · exact Or.inr (Or.inl ⟨rfl, rfl⟩)
  | running it start =>
    rw [hworker] at hwork
    simp only at hwork
    split_ifs at hwork with hstop <;> obtain rfl := Option.some.inj hwork
    · exact Or.inl ⟨.returned (some it), rfl, fun _ _ => hstop, by simp, rfl⟩
    · exact Or.inr (Or.inr ⟨it, start, rfl, rfl⟩)
  | returned left =>
    rw [hworker] at hwork
    cases hwork

theorem counter_work {now : ℤ} (hwork : s.work now = some s') : s'.counter = s.counter := by
  obtain ⟨w, -, -, -, rfl⟩ | ⟨-, rfl⟩ | ⟨it, start, -, rfl⟩ := work_cases hwork
  · rfl
  · exact counter_drain now s.items s
  · exact (counter_drain start _ _).trans (counter_finish it now s)

theorem counter_step {a : Label φ} (hstep : s.step a = some s') :
    s'.counter = if a.isSchedule then (s.next + 1, (s.next + 1) :: issued s.log)
      else s.counter := by
  cases a with
  | schedule fn first period =>
    obtain rfl := Option.some.inj hstep
    simp [schedule, counter, Event.issued, Label.isSchedule]
  | cancel tok =>
    obtain rfl := Option.some.inj hstep
    simp [cancel, counter, Event.issued, Label.isSchedule]
  | work now => exact counter_work hstep
  | destroy =>
    obtain rfl := Option.some.inj hstep
    rfl

end TimerService

end TelafSim.Timers
