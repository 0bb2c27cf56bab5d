import TelafSim.Trace

/-!
# Dining philosophers

`chart/examples/dining_philosophers.cpp`, for any number of them: active objects that publish when
they are hungry and when they are done, and a table that owns the forks and publishes whom it lets
eat. Only the table subscribes to the philosophers' signals, so such a `publish` is one post. The
table's goes to those that are subscribed when it begins, one after the other: `granted` is whom it
has still to publish, and `outbox` what is left of the `publish` under way. A philosopher is
subscribed from when it is started.
-/

namespace TelafSim.Chart

inductive PhilState
  | off
  | thinking
  | hungry
  | eating
  deriving DecidableEq, Repr

inductive PhilEvent (n : ℕ)
  | thinkTimeout
  | eatTimeout
  | eat (id : Fin n)
  deriving DecidableEq

inductive TableEvent (n : ℕ)
  | hungry (id : Fin n)
  | done (id : Fin n)
  deriving DecidableEq

def TableEvent.id {n : ℕ} : TableEvent n → Fin n
  | .hungry i | .done i => i

structure Dining (n : ℕ) where
  phil : Fin n → PhilState
  /-- The one-shot timers that are armed. -/
  thinkTimer : Fin n → Bool
  eatTimer : Fin n → Bool
  queue : Fin n → List (PhilEvent n)
  /-- The subscribers of `Eat_Signal`, in the order they came. -/
  subscribers : List (Fin n)
  /-- The forks in use, and who the table knows is hungry. -/
  forks : Fin n → Bool
  hungry : Fin n → Bool
  tableQueue : List (TableEvent n)
  granted : List (Fin n)
  /-- To whom the table has still to post, and who may eat. -/
  outbox : List (Fin n × Fin n)

namespace Dining

variable {n : ℕ}

def initial : Dining n where
  phil := fun _ => .off
  thinkTimer := fun _ => false
  eatTimer := fun _ => false
  queue := fun _ => []
  subscribers := []
  forks := fun _ => false
  hungry := fun _ => false
  tableQueue := []
  granted := []
  outbox := []

section Steps

variable [NeZero n]

def lfork (i : Fin n) : Fin n := i
def rfork (i : Fin n) : Fin n := i + 1
def lphil (i : Fin n) : Fin n := i - 1
def rphil (i : Fin n) : Fin n := i + 1

def tryFeed (i : Fin n) (s : Dining n) : Dining n :=
  if !s.hungry i || s.forks (lfork i) || s.forks (rfork i) then s
  else { s with
    forks := Function.update (Function.update s.forks (lfork i) true) (rfork i) true
    hungry := Function.update s.hungry i false
    granted := s.granted ++ [i] }

def tableServing (s : Dining n) : TableEvent n → Dining n
  | .hungry i => { s with hungry := Function.update s.hungry i true }.tryFeed i
  | .done i =>
    (({ s with
      forks := Function.update (Function.update s.forks (lfork i) false) (rfork i) false
      }.tryFeed (lphil i)).tryFeed (rphil i))

/-- The table posts, begins its next `publish`, or takes an event. -/
def table (s : Dining n) : Option (Dining n) :=
  match s.outbox, s.granted, s.tableQueue with
  | (i, id) :: rest, _, _ =>
    some { s with
      outbox := rest
      queue := Function.update s.queue i (s.queue i ++ [.eat id]) }
  | [], id :: rest, _ => some { s with granted := rest, outbox := s.subscribers.map (·, id) }
  | [], [], e :: rest => some ({ s with tableQueue := rest }.tableServing e)
  | [], [], [] => none

end Steps

def philThinking (i : Fin n) (s : Dining n) : PhilEvent n → Dining n
  | .thinkTimeout =>
    { s with
      phil := Function.update s.phil i .hungry
      tableQueue := s.tableQueue ++ [.hungry i] }
  | _ => s

def philHungry (i : Fin n) (s : Dining n) : PhilEvent n → Dining n
  | .eat id =>
    if id = i then { s with
      phil := Function.update s.phil i .eating
      eatTimer := Function.update s.eatTimer i true }
    else s
  | _ => s

def philEating (i : Fin n) (s : Dining n) : PhilEvent n → Dining n
  | .eatTimeout =>
    { s with
      phil := Function.update s.phil i .thinking
      thinkTimer := Function.update s.thinkTimer i true
      tableQueue := s.tableQueue ++ [.done i] }
  | _ => s

def dispatch (i : Fin n) (s : Dining n) : Option (Dining n) :=
  match s.queue i with
  | [] => none
  | e :: rest =>
    let s' := { s with queue := Function.update s.queue i rest }
    match s.phil i with
    | .off => none
    | .thinking => some (s'.philThinking i e)
    | .hungry => some (s'.philHungry i e)
    | .eating => some (s'.philEating i e)

inductive Label (n : ℕ)
  | start (i : Fin n)
  | thinkTimeout (i : Fin n)
  | eatTimeout (i : Fin n)
  | dispatch (i : Fin n)
  | table

def step [NeZero n] (s : Dining n) : Label n → Option (Dining n)
  | .start i =>
    if s.phil i = .off then some { s with
      phil := Function.update s.phil i .thinking
      thinkTimer := Function.update s.thinkTimer i true
      subscribers := s.subscribers ++ [i] }
    else none
  | .thinkTimeout i =>
    if s.thinkTimer i then some { s with
      thinkTimer := Function.update s.thinkTimer i false
      queue := Function.update s.queue i (s.queue i ++ [.thinkTimeout]) }
    else none
  | .eatTimeout i =>
    if s.eatTimer i then some { s with
      eatTimer := Function.update s.eatTimer i false
      queue := Function.update s.queue i (s.queue i ++ [.eatTimeout]) }
    else none
  | .dispatch i => s.dispatch i
  | .table => s.table

section Seats

variable {s s' : Dining n} {i j : Fin n}

/-- What the table is going to hear of a philosopher. -/
def traffic (s : Dining n) (i : Fin n) : List (TableEvent n) := s.tableQueue.filter (·.id = i)

/-- How often a philosopher is going to hear that it may eat. -/
def grants (s : Dining n) (i : Fin n) : ℕ :=
  s.granted.count i + s.outbox.count (i, i) + (s.queue i).count (.eat i)

def thinkDue (s : Dining n) (i : Fin n) : ℕ :=
  (s.thinkTimer i).toNat + (s.queue i).count .thinkTimeout

def eatDue (s : Dining n) (i : Fin n) : ℕ := (s.eatTimer i).toNat + (s.queue i).count .eatTimeout

/-- What is on its way between a philosopher and the table, by the philosopher's state. It may think
again, and be hungry again, before the table has heard that it was done. -/
inductive Talk (i : Fin n) : PhilState → List (TableEvent n) → Bool → ℕ → Prop
  | off : Talk i .off [] false 0
  | thinking : Talk i .thinking [] false 0
  | returning : Talk i .thinking [.done i] false 0
  | asking : Talk i .hungry [.hungry i] false 0
  | askingAgain : Talk i .hungry [.done i, .hungry i] false 0
  | noted : Talk i .hungry [] true 0
  | granted : Talk i .hungry [] false 1
  | eating : Talk i .eating [] false 0

theorem Talk.noted_of_hungry {p : PhilState} {traffic : List (TableEvent n)} {g : ℕ}
    (h : Talk i p traffic true g) : p = .hungry ∧ traffic = [] ∧ g = 0 := by
  cases h
  exact ⟨rfl, rfl, rfl⟩

structure Seat (s : Dining n) (i : Fin n) : Prop where
  think : s.thinkDue i = if s.phil i = .thinking then 1 else 0
  eat : s.eatDue i = if s.phil i = .eating then 1 else 0
  subscribed : s.subscribers.count i = if s.phil i = .off then 0 else 1
  talk : Talk i (s.phil i) (s.traffic i) (s.hungry i) (s.grants i)

theorem traffic_self {e : TableEvent n} {rest : List (TableEvent n)} (h : s.tableQueue = e :: rest) :
    s.traffic e.id = e :: rest.filter (·.id = e.id) := by
  unfold traffic
  rw [h, List.filter_cons_of_pos (by simp)]

theorem traffic_other {e : TableEvent n} {rest : List (TableEvent n)} (h : s.tableQueue = e :: rest)
    (hne : i ≠ e.id) : rest.filter (·.id = i) = s.traffic i := by
  unfold traffic
  rw [h, List.filter_cons_of_neg (by simpa using Ne.symm hne)]

theorem seat_initial (i : Fin n) : (initial : Dining n).Seat i :=
  ⟨rfl, rfl, rfl, .off⟩

/-- What a philosopher finds in its queue is for the state it is in, or not for it. -/
theorem Seat.head (h : s.Seat i) {e : PhilEvent n} {queue : List (PhilEvent n)}
    (hqueue : s.queue i = e :: queue) :
    match e with
    | .thinkTimeout => s.phil i = .thinking
    | .eatTimeout => s.phil i = .eating
    | .eat id => id = i → s.phil i = .hungry := by
  have hmem : e ∈ s.queue i := hqueue ▸ List.mem_cons_self
  have hpos := List.count_pos_iff.mpr hmem
  cases e with
  | thinkTimeout =>
    have hthink := h.think
    unfold thinkDue at hthink
    by_contra hne
    rw [if_neg hne] at hthink
    omega
  | eatTimeout =>
    have heat := h.eat
    unfold eatDue at heat
    by_contra hne
    rw [if_neg hne] at heat
    omega
  | eat id =>
    rintro rfl
    have hgrants : 0 < s.grants id := by
      unfold grants
      omega
    have htalk := h.talk
    generalize s.phil id = p, s.traffic id = t, s.hungry id = b, s.grants id = g at htalk hgrants ⊢
    cases htalk with
    | granted => rfl
    | _ => cases hgrants

theorem Seat.subscribed_of_grants (h : s.Seat i) (hpos : 0 < s.grants i) :
    s.subscribers.count i = 1 := by
  have htalk := h.talk
  have hsub := h.subscribed
  generalize s.phil i = p, s.traffic i = t, s.hungry i = b, s.grants i = g at htalk hpos hsub
  cases htalk with
  | granted => exact hsub
  | _ => cases hpos

theorem count_map_pair (l : List (Fin n)) (i j : Fin n) :
    (l.map (·, i)).count (j, j) = if i = j then l.count j else 0 := by
  by_cases hij : i = j
  · subst hij
    rw [if_pos rfl]
    exact List.count_map_of_injective l (·, i) (fun a b h => (Prod.mk.inj h).1) i
  · rw [if_neg hij]
    apply List.count_eq_zero.mpr
    simp [hij]

theorem Seat.congr (h : s.Seat i) (hphil : s'.phil i = s.phil i)
    (hthink : s'.thinkDue i = s.thinkDue i)
    (heat : s'.eatDue i = s.eatDue i) (hsub : s'.subscribers.count i = s.subscribers.count i)
    (htraffic : s'.traffic i = s.traffic i) (hhungry : s'.hungry i = s.hungry i)
    (hgrants : s'.grants i = s.grants i) : s'.Seat i := by
  constructor
  · rw [hthink, hphil]
    exact h.think
  · rw [heat, hphil]
    exact h.eat
  · rw [hsub, hphil]
    exact h.subscribed
  · rw [hphil, htraffic, hhungry, hgrants]
    exact h.talk

/-- When the table has nothing to do, a philosopher that is not off is in one of its waits. -/
theorem Seat.idle (hseat : s.Seat i) (hqueue : s.queue i = []) (htable : s.tableQueue = [])
    (hgranted : s.granted = []) (houtbox : s.outbox = []) (hphil : s.phil i ≠ .off) :
    s.thinkTimer i = true ∨ s.eatTimer i = true ∨ s.hungry i = true := by
  have htraffic : s.traffic i = [] := by simp [traffic, htable]
  have hgrants : s.grants i = 0 := by simp [grants, hgranted, houtbox, hqueue]
  have hthink := hseat.think
  have heat := hseat.eat
  have htalk := hseat.talk
  rw [htraffic, hgrants] at htalk
  simp only [thinkDue, eatDue, hqueue, List.count_nil, Nat.add_zero] at hthink heat
  generalize s.phil i = p, s.hungry i = b at *
  cases htalk with
  | off => exact absurd rfl hphil
  | thinking => exact .inl (Bool.toNat_eq_one.mp hthink)
  | noted => exact .inr (.inr rfl)
  | eating => exact .inr (.inl (Bool.toNat_eq_one.mp heat))

/-- The forks of a philosopher are its own from the grant on until the table hears that it is
done. -/
def Held (s : Dining n) (i : Fin n) : Prop :=
  0 < s.grants i ∨ s.phil i = .eating ∨ .done i ∈ s.traffic i

theorem held_congr (hphil : s'.phil i = s.phil i) (htraffic : s'.traffic i = s.traffic i)
    (hgrants : s'.grants i = s.grants i) : s'.Held i ↔ s.Held i := by
  unfold Held
  rw [hphil, htraffic, hgrants]

/-- Each fork is in use while one of its two philosophers holds it, never both; and who is noted as
hungry waits for a fork in use. -/
structure Forked [NeZero n] (s : Dining n) : Prop where
  used : ∀ k, s.forks k = true ↔ s.Held k ∨ s.Held (k - 1)
  apart : ∀ i, i ≠ i + 1 → ¬ (s.Held i ∧ s.Held (i + 1))

def Waits [NeZero n] (s : Dining n) (i : Fin n) : Prop :=
  s.hungry i = true → s.forks i = true ∨ s.forks (i + 1) = true

theorem Forked.congr [NeZero n] (h : s.Forked) (hforks : s'.forks = s.forks)
    (hheld : ∀ i, s'.Held i ↔ s.Held i) : s'.Forked := by
  constructor
  · intro k
    rw [hforks, hheld, hheld]
    exact h.used k
  · intro i
    rw [hheld, hheld]
    exact h.apart i

end Seats

section TryFeed

variable [NeZero n] {s : Dining n} {i j : Fin n}

/-- Either the table lets the philosopher eat, with both forks free, or nothing happens. -/
theorem tryFeed_cases (i : Fin n) (s : Dining n) :
    (s.hungry i = true ∧ s.forks i = false ∧ s.forks (i + 1) = false ∧
      s.tryFeed i = { s with
        forks := Function.update (Function.update s.forks i true) (i + 1) true
        hungry := Function.update s.hungry i false
        granted := s.granted ++ [i] }) ∨
    (s.tryFeed i = s ∧ s.Waits i) := by
  unfold tryFeed lfork rfork
  cases hhungry : s.hungry i with
  | false => exact .inr ⟨rfl, fun h => by rw [hhungry] at h; cases h⟩
  | true =>
    cases hl : s.forks i with
    | true => exact .inr ⟨rfl, fun _ => .inl hl⟩
    | false =>
      cases hr : s.forks (i + 1) with
      | true => exact .inr ⟨rfl, fun _ => .inr hr⟩
      | false => exact .inl ⟨rfl, rfl, rfl, rfl⟩

theorem waits_tryFeed (h : j = i ∨ s.Waits j) : (s.tryFeed i).Waits j := by
  rcases tryFeed_cases i s with ⟨-, -, -, heq⟩ | ⟨heq, hwaits⟩
  · rw [heq]
    intro hhungry
    have hne : j ≠ i := by
      rintro rfl
      simp at hhungry
    have hj := (h.resolve_left hne) (by simpa [hne] using hhungry)
    have hmono : ∀ k, s.forks k = true →
        Function.update (Function.update s.forks i true) (i + 1) true k = true := by
      intro k hk
      by_cases h1 : k = i + 1 <;> by_cases h2 : k = i <;> simp [Function.update_apply, h1, h2, hk]
    exact hj.imp (hmono j) (hmono (j + 1))
  · rw [heq]
    rcases h with rfl | h
    · exact hwaits
    · exact h

theorem seat_tryFeed (h : s.Seat j) (i : Fin n) : (s.tryFeed i).Seat j := by
  rcases tryFeed_cases i s with ⟨hhungry, -, -, heq⟩ | ⟨heq, -⟩
  · rw [heq]
    by_cases hj : j = i
    · subst hj
      have htalk := h.talk
      rw [hhungry] at htalk
      obtain ⟨hphil, htraffic, hgrants⟩ := htalk.noted_of_hungry
      refine ⟨h.think, h.eat, h.subscribed, ?_⟩
      have hgrants' : s.granted.count j + s.outbox.count (j, j) + (s.queue j).count (.eat j) = 0 :=
        hgrants
      change Talk j (s.phil j) (s.traffic j) (Function.update s.hungry j false j)
        ((s.granted ++ [j]).count j + s.outbox.count (j, j) + (s.queue j).count (.eat j))
      rw [hphil, htraffic, Function.update_self, List.count_append, List.count_singleton_self]
      rw [show s.granted.count j + 1 + s.outbox.count (j, j) + (s.queue j).count (.eat j) = 1 by omega]
      exact .granted
    · refine h.congr rfl rfl rfl rfl rfl ?_ ?_
      · exact Function.update_of_ne hj ..
      · unfold grants
        rw [List.count_append, List.count_singleton]
        simp [Ne.symm hj]
  · rw [heq]
    exact h

theorem forked_tryFeed (h : s.Forked) (i : Fin n) : (s.tryFeed i).Forked := by
  rcases tryFeed_cases i s with ⟨-, hl, hr, heq⟩ | ⟨heq, -⟩
  · rw [heq]
    have hfreel : ¬ s.Held i ∧ ¬ s.Held (i - 1) := by
      have := (h.used i).not.mp (by simp [hl])
      exact not_or.mp this
    have hfreer : ¬ s.Held (i + 1) := by
      have := (h.used (i + 1)).not.mp (by simp [hr])
      exact (not_or.mp this).1
    have hheld : ∀ k, Held { s with
        forks := Function.update (Function.update s.forks i true) (i + 1) true
        hungry := Function.update s.hungry i false
        granted := s.granted ++ [i] } k ↔ k = i ∨ s.Held k := by
      intro k
      unfold Held grants
      change 0 < (s.granted ++ [i]).count k + _ + _ ∨ s.phil k = .eating ∨ .done k ∈ s.traffic k ↔ _
      rw [List.count_append, List.count_singleton]
      by_cases hk : k = i
      · subst hk
        simp
      · simp [hk, Ne.symm hk]
    constructor
    · intro k
      rw [hheld, hheld, sub_eq_iff_eq_add]
      have hold := h.used k
      change Function.update (Function.update s.forks i true) (i + 1) true k = true ↔ _
      by_cases h1 : k = i + 1
      · simp [h1]
      · by_cases h2 : k = i
        · simp [h2, Function.update_apply]
        · simp [h1, h2, hold]
    · intro k hk
      rw [hheld, hheld]
      rintro ⟨h1 | h1, h2 | h2⟩
      · exact hk (h1.trans h2.symm)
      · rw [h1] at h2
        exact hfreer h2
      · rw [eq_sub_of_add_eq h2] at h1
        exact hfreel.2 h1
      · exact h.apart k hk ⟨h1, h2⟩
  · rw [heq]
    exact h

end TryFeed

section Sound

variable [NeZero n] {s s' : Dining n} {i : Fin n} {rest : List (TableEvent n)}

structure Sound (s : Dining n) : Prop where
  seats : ∀ i, s.Seat i
  forked : s.Forked
  waits : ∀ i, s.Waits i

theorem sound_initial : (initial : Dining n).Sound := by
  refine ⟨seat_initial, ⟨?_, ?_⟩, ?_⟩
  · intro k
    simp [initial, Held, grants, traffic]
  · intro i _
    simp [initial, Held, grants, traffic]
  · intro i h
    cases h

theorem Sound.tryFeed (h : s.Sound) (i : Fin n) : (s.tryFeed i).Sound :=
  ⟨fun j => seat_tryFeed (h.seats j) i, forked_tryFeed h.forked i,
    fun j => waits_tryFeed (.inr (h.waits j))⟩

theorem Sound.hungry (h : s.Sound) (hqueue : s.tableQueue = .hungry i :: rest) :
    ({ s with tableQueue := rest }.tableServing (.hungry i)).Sound := by
  have htalk := (h.seats i).talk
  have hi : s.traffic i = .hungry i :: rest.filter (·.id = i) := traffic_self hqueue
  rw [hi] at htalk
  generalize hphil : s.phil i = p, hflag : s.hungry i = b, hgrants : s.grants i = g,
    hrest : rest.filter (·.id = i) = l at htalk hi
  cases htalk
  have hnone : ∀ k ≠ i, rest.filter (·.id = k) = s.traffic k := fun k hk =>
    traffic_other hqueue hk
  have hforked : Forked { s with tableQueue := rest, hungry := Function.update s.hungry i true } := by
    refine h.forked.congr rfl ?_
    intro k
    by_cases hk : k = i
    · subst hk
      unfold Held
      change _ ∨ _ ∨ _ ∈ rest.filter _ ↔ _
      rw [hrest, hi]
      simp [grants]
    · exact held_congr rfl (hnone k hk) rfl
  refine ⟨?_, forked_tryFeed hforked i, ?_⟩
  · intro k
    refine seat_tryFeed ?_ i
    by_cases hk : k = i
    · subst hk
      refine ⟨(h.seats k).think, (h.seats k).eat, (h.seats k).subscribed, ?_⟩
      change Talk k (s.phil k) (rest.filter _) (Function.update s.hungry k true k) (s.grants k)
      rw [hphil, hrest, hgrants, Function.update_self]
      exact .noted
    · exact (h.seats k).congr rfl rfl rfl rfl (hnone k hk) (Function.update_of_ne hk ..) rfl
  · intro k
    apply waits_tryFeed
    by_cases hk : k = i
    · exact .inl hk
    · right
      intro hhungry
      exact h.waits k (by simpa [hk] using hhungry)

/-- The table hears that a philosopher is done: it takes the forks back and feeds the neighbours. -/
theorem Sound.done (h : s.Sound) (hqueue : s.tableQueue = .done i :: rest) :
    ({ s with tableQueue := rest }.tableServing (.done i)).Sound := by
  have hi : s.traffic i = .done i :: rest.filter (·.id = i) := traffic_self hqueue
  have hnone : ∀ k ≠ i, rest.filter (·.id = k) = s.traffic k := fun k hk =>
    traffic_other hqueue hk
  have hheld : s.Held i := .inr (.inr (by rw [hi]; exact List.mem_cons_self))
  -- Behind `done` there is at most the next `hungry`, and the philosopher holds nothing else.
  have htalk : Talk i (s.phil i) (rest.filter (·.id = i)) (s.hungry i) (s.grants i) ∧
      s.hungry i = false ∧ s.grants i = 0 ∧ s.phil i ≠ .eating ∧
      .done i ∉ rest.filter (·.id = i) := by
    have htalk := (h.seats i).talk
    rw [hi] at htalk
    generalize s.phil i = p, s.hungry i = b, s.grants i = g, rest.filter (·.id = i) = l at htalk ⊢
    cases htalk with
    | returning => exact ⟨.thinking, rfl, rfl, by simp, by simp⟩
    | askingAgain => exact ⟨.asking, rfl, rfl, by simp, by simp⟩
  obtain ⟨htalk, hflag, hgrants, hphil, hdone⟩ := htalk
  let s₁ : Dining n := { s with
    tableQueue := rest
    forks := Function.update (Function.update s.forks i false) (i + 1) false }
  have hheld₁ : ∀ k, s₁.Held k ↔ k ≠ i ∧ s.Held k := by
    intro k
    by_cases hk : k = i
    · subst hk
      have hnot : ¬ s₁.Held k := by
        rintro (hg | hp | hd)
        · change 0 < s.grants k at hg
          omega
        · exact hphil hp
        · exact hdone hd
      simp [hnot]
    · have hcongr : s₁.Held k ↔ s.Held k := held_congr rfl (hnone k hk) rfl
      simp [hk, hcongr]
  have hforked : s₁.Forked := by
    constructor
    · intro k
      rw [hheld₁, hheld₁]
      have hold := h.forked.used k
      change Function.update (Function.update s.forks i false) (i + 1) false k = true ↔ _
      by_cases h1 : k = i + 1
      · subst h1
        have hnot : i + 1 ≠ i → ¬ s.Held (i + 1) := fun hne hk =>
          h.forked.apart i (Ne.symm hne) ⟨hheld, hk⟩
        simpa using hnot
      · by_cases h2 : k = i
        · subst h2
          have hnot : k - 1 ≠ k → ¬ s.Held (k - 1) := by
            intro hne hk
            apply h.forked.apart (k - 1)
            · rwa [sub_add_cancel]
            · rw [sub_add_cancel]
              exact ⟨hk, hheld⟩
          simpa [Function.update_apply] using hnot
        · have h3 : k - 1 ≠ i := fun heq => h1 (sub_eq_iff_eq_add.mp heq)
          simp [h1, h2, h3, hold]
    · intro k hk
      rw [hheld₁, hheld₁]
      exact fun hboth => h.forked.apart k hk ⟨hboth.1.2, hboth.2.2⟩
  have hseats : ∀ k, s₁.Seat k := by
    intro k
    by_cases hk : k = i
    · subst hk
      exact ⟨(h.seats k).think, (h.seats k).eat, (h.seats k).subscribed, htalk⟩
    · exact (h.seats k).congr rfl rfl rfl rfl (hnone k hk) rfl rfl
  refine ⟨fun k => seat_tryFeed (seat_tryFeed (hseats k) _) _,
    forked_tryFeed (forked_tryFeed hforked _) _, ?_⟩
  intro k
  apply waits_tryFeed
  by_cases hr : k = rphil i
  · exact .inl hr
  · right
    apply waits_tryFeed
    by_cases hl : k = lphil i
    · exact .inl hl
    · right
      -- A philosopher that is no neighbour has none of the two forks.
      intro hhungry
      have hk : k ≠ i := by
        rintro rfl
        rw [show s₁.hungry k = s.hungry k from rfl, hflag] at hhungry
        cases hhungry
      have h1 : k ≠ i + 1 := hr
      have h2 : k + 1 ≠ i := fun heq => hl (eq_sub_of_add_eq heq)
      have h3 : k + 1 ≠ i + 1 := fun heq => hk (add_right_cancel heq)
      have hold := h.waits k hhungry
      change Function.update (Function.update s.forks i false) (i + 1) false k = true ∨
        Function.update (Function.update s.forks i false) (i + 1) false (k + 1) = true
      rwa [Function.update_of_ne h1, Function.update_of_ne hk, Function.update_of_ne h3,
        Function.update_of_ne h2]

/-- A step that leaves a philosopher alone, for all that concerns it. -/
structure Same (s s' : Dining n) (k : Fin n) : Prop where
  phil : s'.phil k = s.phil k
  think : s'.thinkDue k = s.thinkDue k
  eat : s'.eatDue k = s.eatDue k
  subscribed : s'.subscribers.count k = s.subscribers.count k
  traffic : s'.traffic k = s.traffic k
  grants : s'.grants k = s.grants k

theorem Sound.goOn (h : s.Sound) (hforks : s'.forks = s.forks) (hhungry : s'.hungry = s.hungry)
    (hothers : ∀ k ≠ i, Same s s' k) (hseat : s'.Seat i) (hheld : s'.Held i ↔ s.Held i) :
    s'.Sound := by
  refine ⟨?_, h.forked.congr hforks ?_, ?_⟩
  · intro k
    by_cases hk : k = i
    · rw [hk]
      exact hseat
    · have hsame := hothers k hk
      exact (h.seats k).congr hsame.phil hsame.think hsame.eat hsame.subscribed hsame.traffic
        (congrFun hhungry k) hsame.grants
  · intro k
    by_cases hk : k = i
    · rw [hk]
      exact hheld
    · have hsame := hothers k hk
      exact held_congr hsame.phil hsame.traffic hsame.grants
  · intro k hk
    rw [hforks]
    exact h.waits k (by rwa [hhungry] at hk)

theorem Sound.pass (h : s.Sound) (hforks : s'.forks = s.forks) (hhungry : s'.hungry = s.hungry)
    (hall : ∀ k, Same s s' k) : s'.Sound := by
  refine h.goOn (i := 0) hforks hhungry (fun k _ => hall k) ?_ ?_
  · have hsame := hall 0
    exact (h.seats 0).congr hsame.phil hsame.think hsame.eat hsame.subscribed hsame.traffic
      (congrFun hhungry 0) hsame.grants
  · have hsame := hall 0
    exact held_congr hsame.phil hsame.traffic hsame.grants

theorem Sound.start (h : s.Sound) (hoff : s.phil i = .off) :
    Sound { s with
      phil := Function.update s.phil i .thinking
      thinkTimer := Function.update s.thinkTimer i true
      subscribers := s.subscribers ++ [i] } := by
  have hseat := h.seats i
  have htalk := hseat.talk
  have hthink := hseat.think
  have heat := hseat.eat
  have hsub := hseat.subscribed
  rw [hoff] at htalk hthink heat hsub
  refine h.goOn (i := i) rfl rfl ?_ ⟨?_, ?_, ?_, ?_⟩ ?_
  · intro k hk
    constructor <;> simp [thinkDue, eatDue, grants, traffic, hk, Ne.symm hk]
  · simp [thinkDue] at hthink ⊢
    exact hthink.2
  · simpa [eatDue] using heat
  · simpa [List.count_append] using hsub
  · change Talk i (Function.update s.phil i .thinking i) (s.traffic i) (s.hungry i) (s.grants i)
    rw [Function.update_self]
    generalize s.traffic i = t, s.hungry i = b, s.grants i = g at htalk ⊢
    cases htalk
    exact .thinking
  · unfold Held
    change 0 < s.grants i ∨ Function.update s.phil i .thinking i = .eating ∨ .done i ∈ s.traffic i ↔ _
    rw [Function.update_self, hoff]
    simp

theorem Sound.thinkTimeout (h : s.Sound) (harmed : s.thinkTimer i = true) :
    Sound { s with
      thinkTimer := Function.update s.thinkTimer i false
      queue := Function.update s.queue i (s.queue i ++ [.thinkTimeout]) } := by
  refine h.pass rfl rfl ?_
  intro k
  by_cases hk : k = i
  · subst hk
    constructor <;> simp [thinkDue, eatDue, grants, traffic, harmed, List.count_append]
    omega
  · constructor <;> simp [thinkDue, eatDue, grants, traffic, hk]

theorem Sound.eatTimeout (h : s.Sound) (harmed : s.eatTimer i = true) :
    Sound { s with
      eatTimer := Function.update s.eatTimer i false
      queue := Function.update s.queue i (s.queue i ++ [.eatTimeout]) } := by
  refine h.pass rfl rfl ?_
  intro k
  by_cases hk : k = i
  · subst hk
    constructor <;> simp [thinkDue, eatDue, grants, traffic, harmed, List.count_append]
    omega
  · constructor <;> simp [thinkDue, eatDue, grants, traffic, hk]

theorem Sound.philThinking (h : s.Sound) {queue : List (PhilEvent n)}
    (hqueue : s.queue i = .thinkTimeout :: queue) :
    ({ s with queue := Function.update s.queue i queue }.philThinking i .thinkTimeout).Sound := by
  have hseat := h.seats i
  have hphil : s.phil i = .thinking := hseat.head hqueue
  obtain ⟨hthink, heat, hsub, htalk⟩ := hseat
  rw [hphil] at hthink heat hsub htalk
  simp only [thinkDue, eatDue, hqueue] at hthink heat
  refine h.goOn (i := i) rfl rfl ?_ ⟨?_, ?_, ?_, ?_⟩ ?_
  · intro k hk
    constructor <;>
      simp [Dining.philThinking, thinkDue, eatDue, grants, traffic, hk, Ne.symm hk, TableEvent.id]
  · simp [Dining.philThinking, thinkDue] at hthink ⊢
    exact ⟨Bool.toNat_eq_zero.mp (by omega), by omega⟩
  · simpa [Dining.philThinking, eatDue] using heat
  · simpa [Dining.philThinking] using hsub
  · have hgrants : s.grants i = grants { s with queue := Function.update s.queue i queue } i := by
      simp [grants, hqueue]
    change Talk i (Function.update s.phil i .hungry i)
      ((s.tableQueue ++ [TableEvent.hungry i]).filter (·.id = i)) (s.hungry i) (grants _ i)
    rw [Function.update_self, List.filter_append]
    change Talk i .hungry (s.traffic i ++ _) (s.hungry i) (grants _ i)
    rw [List.filter_cons_of_pos (by simp [TableEvent.id]), List.filter_nil]
    rw [hgrants] at htalk
    change Talk i .hungry (s.traffic i ++ [.hungry i]) (s.hungry i)
      (grants { s with queue := Function.update s.queue i queue } i)
    generalize s.traffic i = t, s.hungry i = b, grants _ i = g at htalk ⊢
    cases htalk with
    | thinking => exact .asking
    | returning => exact .askingAgain
  · unfold Held
    simp [Dining.philThinking, grants, traffic, hqueue, hphil, TableEvent.id]

theorem Sound.philHungry (h : s.Sound) {queue : List (PhilEvent n)}
    (hqueue : s.queue i = .eat i :: queue) :
    ({ s with queue := Function.update s.queue i queue }.philHungry i (.eat i)).Sound := by
  have hseat := h.seats i
  have hphil : s.phil i = .hungry := hseat.head hqueue rfl
  obtain ⟨hthink, heat, hsub, htalk⟩ := hseat
  rw [hphil] at hthink heat hsub htalk
  simp only [thinkDue, eatDue, hqueue] at hthink heat
  have hgrants : s.grants i = grants { s with queue := Function.update s.queue i queue } i + 1 := by
    simp [grants, hqueue]
    omega
  have heq : { s with queue := Function.update s.queue i queue }.philHungry i (.eat i) = { s with
      queue := Function.update s.queue i queue
      phil := Function.update s.phil i .eating
      eatTimer := Function.update s.eatTimer i true } := by simp [Dining.philHungry]
  rw [heq]
  refine h.goOn (i := i) rfl rfl ?_ ⟨?_, ?_, ?_, ?_⟩ ?_
  · intro k hk
    constructor <;> simp [thinkDue, eatDue, grants, traffic, hk]
  · simpa [thinkDue] using hthink
  · simp [eatDue] at heat ⊢
    exact heat.2
  · simpa using hsub
  · rw [hgrants] at htalk
    change Talk i (Function.update s.phil i .eating i) (s.traffic i) (s.hungry i)
      (grants { s with queue := Function.update s.queue i queue } i)
    rw [Function.update_self]
    generalize s.traffic i = t, s.hungry i = b, grants _ i = g at htalk ⊢
    cases htalk
    exact .eating
  · unfold Held
    rw [hgrants]
    simp

theorem Sound.philEating (h : s.Sound) {queue : List (PhilEvent n)}
    (hqueue : s.queue i = .eatTimeout :: queue) :
    ({ s with queue := Function.update s.queue i queue }.philEating i .eatTimeout).Sound := by
  have hseat := h.seats i
  have hphil : s.phil i = .eating := hseat.head hqueue
  obtain ⟨hthink, heat, hsub, htalk⟩ := hseat
  rw [hphil] at hthink heat hsub htalk
  simp only [thinkDue, eatDue, hqueue] at hthink heat
  refine h.goOn (i := i) rfl rfl ?_ ⟨?_, ?_, ?_, ?_⟩ ?_
  · intro k hk
    constructor <;>
      simp [Dining.philEating, thinkDue, eatDue, grants, traffic, hk, Ne.symm hk, TableEvent.id]
  · simp [Dining.philEating, thinkDue] at hthink ⊢
    exact hthink.2
  · simp [Dining.philEating, eatDue] at heat ⊢
    exact ⟨Bool.toNat_eq_zero.mp (by omega), by omega⟩
  · simpa [Dining.philEating] using hsub
  · have hgrants : s.grants i = grants { s with queue := Function.update s.queue i queue } i := by
      simp [grants, hqueue]
    rw [hgrants] at htalk
    change Talk i (Function.update s.phil i .thinking i)
      ((s.tableQueue ++ [TableEvent.done i]).filter (·.id = i)) (s.hungry i)
      (grants { s with queue := Function.update s.queue i queue } i)
    rw [Function.update_self, List.filter_append, List.filter_cons_of_pos (by simp [TableEvent.id]),
      List.filter_nil]
    change Talk i .thinking (s.traffic i ++ [.done i]) (s.hungry i) (grants _ i)
    generalize s.traffic i = t, s.hungry i = b, grants _ i = g at htalk ⊢
    cases htalk
    exact .returning
  · unfold Held
    simp [Dining.philEating, traffic, hphil, TableEvent.id]

theorem Sound.passOver (h : s.Sound) {queue : List (PhilEvent n)} {id : Fin n} (hne : id ≠ i)
    (hqueue : s.queue i = .eat id :: queue) :
    { s with queue := Function.update s.queue i queue }.Sound := by
  refine h.pass rfl rfl ?_
  intro k
  by_cases hk : k = i
  · subst hk
    constructor <;> simp [thinkDue, eatDue, grants, traffic, hqueue, hne]
  · constructor <;> simp [thinkDue, eatDue, grants, traffic, hk]

theorem Sound.dispatch (h : s.Sound) (hstep : s.dispatch i = some s') : s'.Sound := by
  unfold Dining.dispatch at hstep
  cases hqueue : s.queue i with
  | nil =>
    rw [hqueue] at hstep
    cases hstep
  | cons e queue =>
    rw [hqueue] at hstep
    have hhead := (h.seats i).head hqueue
    cases e with
    | thinkTimeout =>
      simp only [hhead] at hstep
      cases hstep
      exact h.philThinking hqueue
    | eatTimeout =>
      simp only [hhead] at hstep
      cases hstep
      exact h.philEating hqueue
    | eat id =>
      by_cases hid : id = i
      · subst hid
        simp only [hhead rfl] at hstep
        cases hstep
        exact h.philHungry hqueue
      · have hpass := h.passOver hid hqueue
        cases hphil : s.phil i <;> rw [hphil] at hstep <;> cases hstep
        · exact hpass
        · simpa [Dining.philHungry, hid] using hpass
        · exact hpass

theorem Sound.table (h : s.Sound) (hstep : s.table = some s') : s'.Sound := by
  unfold Dining.table at hstep
  split at hstep <;> cases hstep
  · rename_i t id outbox houtbox
    refine h.pass rfl rfl ?_
    intro k
    have hgrants : grants { s with
        outbox := outbox
        queue := Function.update s.queue t (s.queue t ++ [.eat id]) } k = s.grants k := by
      unfold grants
      rw [houtbox]
      by_cases hk : k = t
      · subst hk
        by_cases hid : id = k
        · subst hid
          simp [List.count_append]
          omega
        · simp [List.count_append, hid]
      · simp [hk, Ne.symm hk]
    refine ⟨rfl, ?_, ?_, rfl, rfl, hgrants⟩
    · by_cases hk : k = t
      · subst hk
        simp [thinkDue, List.count_append]
      · simp [thinkDue, hk]
    · by_cases hk : k = t
      · subst hk
        simp [eatDue, List.count_append]
      · simp [eatDue, hk]
  · rename_i id granted houtbox hgranted
    refine h.pass rfl rfl ?_
    intro k
    refine ⟨rfl, rfl, rfl, rfl, rfl, ?_⟩
    unfold grants
    rw [houtbox, hgranted]
    change granted.count k + (s.subscribers.map (·, id)).count (k, k) + _ = _
    rw [count_map_pair]
    by_cases hid : id = k
    · subst hid
      have hpos : 0 < s.grants id := by
        simp [grants, hgranted]
      rw [if_pos rfl, (h.seats id).subscribed_of_grants hpos, List.count_cons_self]
      simp
    · simp [hid]
  · rename_i e rest houtbox hgranted hqueue
    cases e with
    | hungry i => exact h.hungry hqueue
    | done i => exact h.done hqueue

theorem sound_step (h : s.Sound) {l : Label n} (hstep : s.step l = some s') : s'.Sound := by
  cases l with
  | start i =>
    obtain ⟨hoff, heq⟩ := Option.ite_none_right_eq_some.mp hstep
    cases heq
    exact h.start hoff
  | thinkTimeout i =>
    obtain ⟨harmed, heq⟩ := Option.ite_none_right_eq_some.mp hstep
    cases heq
    exact h.thinkTimeout harmed
  | eatTimeout i =>
    obtain ⟨harmed, heq⟩ := Option.ite_none_right_eq_some.mp hstep
    cases heq
    exact h.eatTimeout harmed
  | dispatch i => exact h.dispatch hstep
  | table => exact h.table hstep

theorem sound_run {ls : List (Label n)} (hrun : Trace.run step initial ls = some s) : s.Sound :=
  Trace.run_invariant (fun _ _ _ h hstep => sound_step h hstep) hrun sound_initial

/-- In every run, however the timers and the threads interleave: neighbours never eat at the same
time; who eats has both its forks in use, and a fork is only in use while one of its two
philosophers has been let eat and the table has not heard that it is done; and whoever is let eat
is hungry when it hears of it. -/
theorem exclusive_run {ls : List (Label n)} (hrun : Trace.run step initial ls = some s) :
    (∀ i, i ≠ rphil i → ¬ (s.phil i = .eating ∧ s.phil (rphil i) = .eating)) ∧
    (∀ i, s.phil i = .eating → s.forks (lfork i) = true ∧ s.forks (rfork i) = true) ∧
    (∀ k, s.forks k = true → s.Held k ∨ s.Held (lphil k)) ∧
    (∀ i rest, s.queue i = .eat i :: rest → s.phil i = .hungry) := by
  have h := sound_run hrun
  refine ⟨?_, ?_, fun k => (h.forked.used k).mp, fun i rest hqueue => (h.seats i).head hqueue rfl⟩
  · intro i hne heat
    exact h.forked.apart i hne ⟨.inr (.inl heat.1), .inr (.inl heat.2)⟩
  · intro i heat
    refine ⟨(h.forked.used i).mpr (.inl (.inr (.inl heat))), (h.forked.used (i + 1)).mpr (.inr ?_)⟩
    rw [add_sub_cancel_right]
    exact .inr (.inl heat)

/-- The table, a philosopher or a timer can go on. -/
def Moves (s : Dining n) : Prop :=
  s.table.isSome ∨ (∃ i, (s.dispatch i).isSome) ∨ (∃ i, s.thinkTimer i = true) ∨
    ∃ i, s.eatTimer i = true

/-- In every run there is no deadlock: once a philosopher is started, the table, a philosopher or a
timer can go on. And nobody is kept waiting without need: who is noted as hungry has a neighbour
that holds one of its forks. -/
theorem live_run {ls : List (Label n)} (hrun : Trace.run step initial ls = some s) :
    ((∃ i, s.phil i ≠ .off) → s.Moves) ∧
    ∀ i, s.hungry i = true → s.Held (lphil i) ∨ s.Held (rphil i) := by
  have h := sound_run hrun
  have hneighbour : ∀ i, s.hungry i = true → s.Held (lphil i) ∨ s.Held (rphil i) := by
    intro i hi
    have hnot : ¬ s.Held i := by
      have htalk := (h.seats i).talk
      rw [hi] at htalk
      obtain ⟨hphil, htraffic, hgrants⟩ := htalk.noted_of_hungry
      unfold Held
      rw [hphil, htraffic, hgrants]
      simp
    rcases h.waits i hi with hl | hr
    · exact .inl (((h.forked.used i).mp hl).resolve_left hnot)
    · have hheld := (h.forked.used (i + 1)).mp hr
      rw [add_sub_cancel_right] at hheld
      exact .inr (hheld.resolve_right hnot)
  refine ⟨?_, hneighbour⟩
  rintro ⟨i, hphil⟩
  by_contra hstuck
  obtain ⟨htable, hdispatch, hthink, heat⟩ : ¬ s.table.isSome ∧ (¬ ∃ i, (s.dispatch i).isSome) ∧
      (¬ ∃ i, s.thinkTimer i = true) ∧ ¬ ∃ i, s.eatTimer i = true := by
    simpa only [Moves, not_or] using hstuck
  obtain ⟨houtbox, hgranted, htableQueue⟩ : s.outbox = [] ∧ s.granted = [] ∧ s.tableQueue = [] := by
    unfold Dining.table at htable
    split at htable <;> simp_all
  have hqueue : ∀ k, s.phil k ≠ .off → s.queue k = [] := by
    intro k hk
    by_contra hne
    obtain ⟨e, queue, hcons⟩ := List.exists_cons_of_ne_nil hne
    apply hdispatch
    refine ⟨k, ?_⟩
    unfold Dining.dispatch
    rw [hcons]
    cases hp : s.phil k <;> simp_all
  have hhungry : ∀ k, s.phil k ≠ .off → s.hungry k = true := by
    intro k hk
    rcases (h.seats k).idle (hqueue k hk) htableQueue hgranted houtbox hk with ht | ht | ht
    · exact absurd ⟨k, ht⟩ hthink
    · exact absurd ⟨k, ht⟩ heat
    · exact ht
  -- The neighbour that holds a fork is itself waiting, so it holds none.
  have hnone : ∀ k, ¬ s.Held k := by
    intro k hheld
    have htalk := (h.seats k).talk
    have hoff : s.phil k ≠ .off := by
      intro hoff
      rw [hoff] at htalk
      unfold Held at hheld
      rw [hoff] at hheld
      generalize s.traffic k = t, s.hungry k = b, s.grants k = g at htalk hheld
      cases htalk
      simp at hheld
    rw [hhungry k hoff] at htalk
    obtain ⟨hp, htraffic, hgrants⟩ := htalk.noted_of_hungry
    unfold Held at hheld
    rw [hp, htraffic, hgrants] at hheld
    simp at hheld
  rcases hneighbour i (hhungry i hphil) with hheld | hheld
  · exact hnone _ hheld
  · exact hnone _ hheld

/-- Five philosophers, of whom two neighbours get hungry. -/
def twoHungry : List (Label 5) :=
  [.start 0, .start 1, .start 2, .start 3, .start 4, .thinkTimeout 0, .thinkTimeout 1, .dispatch 1,
    .dispatch 0, .table, .table, .table, .table, .table, .table, .table, .table, .dispatch 1]

theorem exclusive_twoHungry : ∃ s, Trace.run step initial twoHungry = some s ∧
    s.phil 1 = .eating ∧ s.phil 0 ≠ .eating ∧ s.forks (lfork 1) = true := by
  have hrun : Trace.run step initial twoHungry = some _ := rfl
  obtain ⟨hapart, hforks, -⟩ := exclusive_run hrun
  refine ⟨_, hrun, rfl, ?_, (hforks 1 rfl).1⟩
  exact fun heat => hapart 0 (by decide) ⟨heat, rfl⟩

theorem live_twoHungry : ∃ s, Trace.run step initial twoHungry = some s ∧ s.hungry 0 = true ∧
    (s.Held 4 ∨ s.Held 1) ∧ s.Moves := by
  have hrun : Trace.run step initial twoHungry = some _ := rfl
  obtain ⟨hmoves, hheld⟩ := live_run hrun
  exact ⟨_, hrun, rfl, hheld 0 rfl, hmoves ⟨0, fun h => by cases h⟩⟩

end Sound

end Dining

end TelafSim.Chart
