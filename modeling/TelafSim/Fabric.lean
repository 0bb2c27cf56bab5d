import TelafSim.Trace

/-!
# The publish-subscribe fabric

`chart/publish_subscribe.hpp`: the table of subscribers by signal, and `publish`, which takes a
snapshot of a list under the shared lock and posts to one after the other outside it. Any number of
threads subscribe, unsubscribe and publish; their critical sections and posts interleave. The
destructor of an active object runs `unsubscribe_all` through its cleanup hook, and then its memory
is gone; nobody subscribes an object that is being destroyed.

`posted`, `ops`, `done` and `snapshots` are recorded for the statements: the posts in order, the
changes of the table, the calls that have returned, and for each call what it found under the lock.
-/

namespace TelafSim.Chart

/-- Where a call of `publish` stands: not made, past the lock with the targets that are left, or
over. -/
inductive Publish (α : Type)
  | unused
  | posting (targets : List α)
  | returned
  deriving DecidableEq

inductive Op (α : Type)
  | subscribe (who : α) (sig : ℤ)
  | unsubscribe (who : α) (sig : ℤ)
  | unsubscribeAll (who : α)
  deriving DecidableEq

/-- What a call of `publish` finds under the lock: its signal's list, the changes that were made
before it and the calls that had returned. -/
structure Snapshot (α κ : Type) where
  sig : ℤ
  targets : List α
  ops : List (Op α)
  done : List κ

structure Fabric (α κ : Type) where
  subs : ℤ → Option (List α)
  publishes : κ → Publish α
  /-- The objects whose destructor has run its hook, and those whose memory is gone. -/
  withdrawn : List α
  freed : List α
  posted : List (κ × α)
  ops : List (Op α)
  done : List κ
  snapshots : κ → Option (Snapshot α κ)

namespace Fabric

inductive Label (α κ : Type)
  | change (op : Op α)
  | publish (c : κ) (sig : ℤ)
  /-- The next post of a `publish`, or its return. -/
  | post (c : κ)
  | cleanup (who : α)
  | free (who : α)

variable {α κ : Type}

def initial : Fabric α κ where
  subs := fun _ => none
  publishes := fun _ => .unused
  withdrawn := []
  freed := []
  posted := []
  ops := []
  done := []
  snapshots := fun _ => none

def subscribers (sig : ℤ) (f : Fabric α κ) : List α := (f.subs sig).getD []

section Steps

variable [DecidableEq α] [DecidableEq κ]

def subscribe (who : α) (sig : ℤ) (f : Fabric α κ) : Fabric α κ :=
  let list := f.subscribers sig
  { f with subs := Function.update f.subs sig (some (if who ∈ list then list else list ++ [who])) }

/-- What `erase(remove(..))` leaves of a list, which is dropped when it gets empty. -/
def without (who : α) (list : List α) : Option (List α) :=
  let rest := list.filter (· ≠ who)
  if rest = [] then none else some rest

def unsubscribe (who : α) (sig : ℤ) (f : Fabric α κ) : Fabric α κ :=
  { f with subs := Function.update f.subs sig ((f.subs sig).bind (without who)) }

def unsubscribeAll (who : α) (f : Fabric α κ) : Fabric α κ :=
  { f with subs := fun sig => (f.subs sig).bind (without who) }

def apply (f : Fabric α κ) (op : Op α) : Fabric α κ :=
  let f := { f with ops := f.ops ++ [op] }
  match op with
  | .subscribe who sig => f.subscribe who sig
  | .unsubscribe who sig => f.unsubscribe who sig
  | .unsubscribeAll who => f.unsubscribeAll who

def setPublish (c : κ) (p : Publish α) (f : Fabric α κ) : Fabric α κ :=
  { f with publishes := Function.update f.publishes c p }

def finish (c : κ) (f : Fabric α κ) : Fabric α κ :=
  { f with done := f.done ++ [c] }.setPublish c .returned

def publish (c : κ) (sig : ℤ) (f : Fabric α κ) : Fabric α κ :=
  let f := { f with
    snapshots := Function.update f.snapshots c (some ⟨sig, f.subscribers sig, f.ops, f.done⟩) }
  match f.subs sig with
  | none => f.finish c
  | some targets => f.setPublish c (.posting targets)

def allowed (f : Fabric α κ) : Op α → Bool
  | .subscribe who _ => who ∉ f.withdrawn
  | _ => true

def step (f : Fabric α κ) : Label α κ → Option (Fabric α κ)
  | .change op => if f.allowed op then some (f.apply op) else none
  | .publish c sig => if f.publishes c = .unused then some (f.publish c sig) else none
  | .post c =>
    match f.publishes c with
    | .posting (who :: rest) =>
      some ({ f with posted := f.posted ++ [(c, who)] }.setPublish c (.posting rest))
    | .posting [] => some (f.finish c)
    | _ => none
  | .cleanup who =>
    if who ∉ f.withdrawn then
      some { f.apply (.unsubscribeAll who) with withdrawn := f.withdrawn ++ [who] }
    else none
  | .free who =>
    if who ∈ f.withdrawn then some { f with freed := f.freed ++ [who] } else none

def subscribed (who : α) (sig : ℤ) (ops : List (Op α)) : Bool :=
  ops.foldl (fun b op =>
    match op with
    | .subscribe who' sig' => if who' = who ∧ sig' = sig then true else b
    | .unsubscribe who' sig' => if who' = who ∧ sig' = sig then false else b
    | .unsubscribeAll who' => if who' = who then false else b) false

/-- To whom a call of `publish` has posted. -/
def sentBy (c : κ) (f : Fabric α κ) : List α :=
  (f.posted.filter (fun p => p.1 = c)).map Prod.snd

end Steps

section Table

variable [DecidableEq α] {f f' : Fabric α κ} {who : α} {sig : ℤ} {op : Op α}

structure Tabled (f : Fabric α κ) : Prop where
  lists : ∀ sig list, f.subs sig = some list → list ≠ [] ∧ list.Nodup
  refines : ∀ who sig, who ∈ f.subscribers sig ↔ subscribed who sig f.ops = true

theorem tabled_initial : (initial : Fabric α κ).Tabled := by
  constructor <;> simp [initial, subscribers, subscribed]

theorem subscribed_concat (who : α) (sig : ℤ) (ops : List (Op α)) (op : Op α) :
    subscribed who sig (ops ++ [op]) =
      match op with
      | .subscribe who' sig' => if who' = who ∧ sig' = sig then true else subscribed who sig ops
      | .unsubscribe who' sig' => if who' = who ∧ sig' = sig then false else subscribed who sig ops
      | .unsubscribeAll who' => if who' = who then false else subscribed who sig ops := by
  unfold subscribed
  rw [List.foldl_append]
  rfl

theorem without_eq_some {list rest : List α} (h : without who list = some rest) :
    rest ≠ [] ∧ rest = list.filter (· ≠ who) := by
  unfold without at h
  dsimp only at h
  split at h
  · cases h
  · rename_i hne
    obtain rfl := Option.some.inj h
    exact ⟨hne, rfl⟩

theorem getD_without (who : α) (list : List α) :
    (without who list).getD [] = list.filter (· ≠ who) := by
  unfold without
  dsimp only
  split
  · rename_i h
    rw [h]
    rfl
  · rfl

theorem getD_bind_without (who : α) (list : Option (List α)) :
    (list.bind (without who)).getD [] = (list.getD []).filter (· ≠ who) := by
  cases list with
  | none => rfl
  | some list => exact getD_without who list

theorem lists_without {lists : Option (List α)} {rest : List α}
    (h : ∀ list, lists = some list → list ≠ [] ∧ list.Nodup)
    (hrest : lists.bind (without who) = some rest) : rest ≠ [] ∧ rest.Nodup := by
  obtain ⟨list, hlist, hwithout⟩ := Option.bind_eq_some_iff.mp hrest
  obtain ⟨hne, rfl⟩ := without_eq_some hwithout
  exact ⟨hne, (h list hlist).2.filter _⟩

theorem Tabled.apply (h : f.Tabled) (op : Op α) : (f.apply op).Tabled := by
  cases op with
  | subscribe who sig =>
    constructor
    · intro sig' list hlist
      change Function.update f.subs sig _ sig' = some list at hlist
      by_cases hsig : sig' = sig
      · subst hsig
        rw [Function.update_self] at hlist
        obtain rfl := Option.some.inj hlist
        have hnodup : (f.subscribers sig').Nodup := by
          unfold subscribers
          cases hs : f.subs sig' with
          | none => exact List.nodup_nil
          | some list => exact (h.lists sig' list hs).2
        change (if who ∈ f.subscribers sig' then f.subscribers sig'
          else f.subscribers sig' ++ [who]) ≠ [] ∧ (if who ∈ f.subscribers sig' then
            f.subscribers sig' else f.subscribers sig' ++ [who]).Nodup
        split
        · rename_i hmem
          exact ⟨List.ne_nil_of_mem hmem, hnodup⟩
        · rename_i hmem
          exact ⟨by simp, List.nodup_append.mpr ⟨hnodup, by simp, by grind⟩⟩
      · rw [Function.update_of_ne hsig] at hlist
        exact h.lists sig' list hlist
    · intro who' sig'
      change who' ∈ (Function.update f.subs sig _ sig').getD [] ↔
        subscribed who' sig' (f.ops ++ [.subscribe who sig]) = true
      rw [subscribed_concat]
      have hold := h.refines who' sig'
      by_cases hsig : sig' = sig
      · subst hsig
        rw [Function.update_self, Option.getD_some]
        change who' ∈ (if who ∈ f.subscribers sig' then f.subscribers sig'
          else f.subscribers sig' ++ [who]) ↔ _
        by_cases hwho : who = who'
        · subst hwho
          simp only [and_self, if_true, iff_true]
          split
          · assumption
          · simp
        · simp only [hwho, false_and, if_false, ← hold]
          split
          · rfl
          · simp [Ne.symm hwho]
      · rw [Function.update_of_ne hsig]
        simp only [Ne.symm hsig, and_false, if_false, ← hold]
        rfl
  | unsubscribe who sig =>
    constructor
    · intro sig' list hlist
      change Function.update f.subs sig _ sig' = some list at hlist
      by_cases hsig : sig' = sig
      · subst hsig
        rw [Function.update_self] at hlist
        exact lists_without (h.lists sig') hlist
      · rw [Function.update_of_ne hsig] at hlist
        exact h.lists sig' list hlist
    · intro who' sig'
      change who' ∈ (Function.update f.subs sig _ sig').getD [] ↔
        subscribed who' sig' (f.ops ++ [.unsubscribe who sig]) = true
      rw [subscribed_concat]
      have hold := h.refines who' sig'
      by_cases hsig : sig' = sig
      · subst hsig
        rw [Function.update_self, getD_bind_without, List.mem_filter]
        change who' ∈ f.subscribers sig' ∧ _ ↔ _
        rw [hold]
        by_cases hwho : who = who'
        · simp [hwho]
        · simp [hwho, Ne.symm hwho]
      · rw [Function.update_of_ne hsig]
        simp only [Ne.symm hsig, and_false, if_false, ← hold]
        rfl
  | unsubscribeAll who =>
    constructor
    · exact fun sig' list hlist => lists_without (h.lists sig') hlist
    · intro who' sig'
      change who' ∈ ((f.subs sig').bind (without who)).getD [] ↔
        subscribed who' sig' (f.ops ++ [.unsubscribeAll who]) = true
      rw [subscribed_concat, getD_bind_without, List.mem_filter]
      change who' ∈ f.subscribers sig' ∧ _ ↔ _
      rw [h.refines who' sig']
      by_cases hwho : who = who'
      · simp [hwho]
      · simp [hwho, Ne.symm hwho]

end Table

section Delivery

variable [DecidableEq κ] {f g : Fabric α κ} {c c' : κ} {p : Publish α}

/-- What has been posted by a call, by where it stands. -/
def Stands (f : Fabric α κ) (c : κ) : Publish α → Prop
  | .unused => f.snapshots c = none ∧ f.sentBy c = []
  | .posting rest => ∃ s, f.snapshots c = some s ∧ s.targets = f.sentBy c ++ rest
  | .returned => ∃ s, f.snapshots c = some s ∧ s.targets = f.sentBy c

/-- Each call posts to the targets of its snapshot in their order, and one that began after another
had returned posts behind it. -/
structure Delivering (f : Fabric α κ) : Prop where
  stands : ∀ c, f.Stands c (f.publishes c)
  done : ∀ c, c ∈ f.done ↔ f.publishes c = .returned
  earlier : ∀ c s, f.snapshots c = some s → ∀ c' ∈ s.done, c' ∈ f.done
  order : ∀ c s, f.snapshots c = some s → ∀ c' ∈ s.done, ∀ who l₁ l₂,
    f.posted = l₁ ++ (c, who) :: l₂ → ∀ p ∈ l₂, p.1 ≠ c'

theorem delivering_initial : (initial : Fabric α κ).Delivering := by
  constructor <;> simp [initial, sentBy, Stands]

@[simp] theorem publishes_setPublish_self (c : κ) (p : Publish α) (f : Fabric α κ) :
    (f.setPublish c p).publishes c = p := Function.update_self ..

theorem publishes_setPublish_of_ne (h : c' ≠ c) (p : Publish α) (f : Fabric α κ) :
    (f.setPublish c p).publishes c' = f.publishes c' := Function.update_of_ne h ..

theorem Stands.congr (h : f.Stands c p) (hsnapshots : g.snapshots c = f.snapshots c)
    (hsent : g.sentBy c = f.sentBy c) : g.Stands c p := by
  cases p <;> simpa only [Stands, hsnapshots, hsent] using h

theorem sentBy_post (c c' : κ) (who : α) (f : Fabric α κ) :
    { f with posted := f.posted ++ [(c, who)] }.sentBy c' =
      f.sentBy c' ++ if c = c' then [who] else [] := by
  unfold sentBy
  rw [List.filter_append, List.map_append]
  by_cases heq : c = c'
  · simp [heq]
  · simp [heq]

theorem Delivering.goOn (h : f.Delivering) (hpublishes : g.publishes = f.publishes)
    (hsnapshots : ∀ c' ≠ c, g.snapshots c' = f.snapshots c')
    (hsent : ∀ c' ≠ c, g.sentBy c' = f.sentBy c')
    (hdone : ∀ c', c' ∈ g.done ↔ if c' = c then p = .returned else c' ∈ f.done)
    (hc : g.Stands c p)
    (hearlier : ∀ c s, g.snapshots c = some s → ∀ c' ∈ s.done, c' ∈ g.done)
    (horder : ∀ c s, g.snapshots c = some s → ∀ c' ∈ s.done, ∀ who l₁ l₂,
      g.posted = l₁ ++ (c, who) :: l₂ → ∀ p ∈ l₂, p.1 ≠ c') :
    (g.setPublish c p).Delivering := by
  refine ⟨?_, ?_, hearlier, horder⟩
  · intro c'
    by_cases heq : c' = c
    · rw [heq, publishes_setPublish_self]
      exact hc.congr rfl rfl
    · rw [publishes_setPublish_of_ne heq, hpublishes]
      exact (h.stands c').congr (hsnapshots c' heq) (hsent c' heq)
  · intro c'
    refine (hdone c').trans ?_
    by_cases heq : c' = c
    · rw [if_pos heq, heq, publishes_setPublish_self]
    · rw [if_neg heq, publishes_setPublish_of_ne heq, hpublishes]
      exact h.done c'

namespace Delivering

variable (h : f.Delivering)
include h

theorem finish (hc : f.Stands c .returned) : (f.finish c).Delivering := by
  refine h.goOn (g := { f with done := f.done ++ [c] }) rfl (fun _ _ => rfl) (fun _ _ => rfl) ?_
    (hc.congr rfl rfl) ?_ h.order
  · intro c'
    rw [List.mem_append, List.mem_singleton]
    by_cases heq : c' = c <;> simp [heq]
  · exact fun c' s hs c'' hc'' => List.mem_append_left _ (h.earlier c' s hs c'' hc'')

theorem post {who : α} {rest : List α} (hc : f.publishes c = .posting (who :: rest)) :
    ({ f with posted := f.posted ++ [(c, who)] }.setPublish c (.posting rest)).Delivering := by
  have hstands := h.stands c
  rw [hc] at hstands
  obtain ⟨s, hs, htargets⟩ := hstands
  have hnot : c ∉ f.done := by
    rw [h.done, hc]
    simp
  refine h.goOn (g := { f with posted := f.posted ++ [(c, who)] }) rfl (fun _ _ => rfl) ?_ ?_ ?_
    h.earlier ?_
  · intro c' hne
    rw [sentBy_post, if_neg (Ne.symm hne), List.append_nil]
  · intro c'
    by_cases heq : c' = c
    · simp [heq, hnot]
    · simp [heq]
  · refine ⟨s, hs, ?_⟩
    rw [sentBy_post, if_pos rfl, htargets, List.append_assoc]
    rfl
  · intro c₁ s₁ hs₁ c₂ hc₂ who₁ l₁ l₂ hl
    rcases List.eq_nil_or_concat l₂ with rfl | ⟨l₃, q, rfl⟩
    · simp
    · rw [List.concat_eq_append, ← List.cons_append, ← List.append_assoc] at hl
      obtain ⟨hposted, hq⟩ := List.append_inj' hl rfl
      obtain rfl : (c, who) = q := by simpa using hq
      intro p hp
      rw [List.concat_eq_append, List.mem_append, List.mem_singleton] at hp
      rcases hp with hp | rfl
      · exact h.order c₁ s₁ hs₁ c₂ hc₂ who₁ l₁ l₃ hposted p hp
      · rintro rfl
        exact hnot (h.earlier c₁ s₁ hs₁ c hc₂)

theorem take {s : Snapshot α κ} (hc : f.publishes c = .unused) (hdone : s.done = f.done) :
    ({ f with snapshots := Function.update f.snapshots c (some s) }.setPublish c
      (.posting s.targets)).Delivering := by
  have hstands := h.stands c
  rw [hc] at hstands
  obtain ⟨hnone, hnil⟩ := hstands
  have hnot : c ∉ f.done := by
    rw [h.done, hc]
    simp
  refine h.goOn (g := { f with snapshots := Function.update f.snapshots c (some s) }) rfl ?_
    (fun _ _ => rfl) ?_ ?_ ?_ ?_
  · exact fun c' hne => Function.update_of_ne hne ..
  · intro c'
    by_cases heq : c' = c
    · simp [heq, hnot]
    · simp [heq]
  · refine ⟨s, Function.update_self .., ?_⟩
    change s.targets = f.sentBy c ++ s.targets
    rw [hnil, List.nil_append]
  · intro c₁ s₁ hs₁ c₂ hc₂
    by_cases heq : c₁ = c
    · subst heq
      obtain rfl : s = s₁ := by simpa using hs₁
      exact hdone ▸ hc₂
    · exact h.earlier c₁ s₁ (by simpa [heq] using hs₁) c₂ hc₂
  · intro c₁ s₁ hs₁ c₂ hc₂ who l₁ l₂ hl
    by_cases heq : c₁ = c
    · subst heq
      have hmem : who ∈ f.sentBy c₁ := by
        unfold sentBy
        rw [show f.posted = l₁ ++ (c₁, who) :: l₂ from hl]
        simp
      rw [hnil] at hmem
      cases hmem
    · exact h.order c₁ s₁ (by simpa [heq] using hs₁) c₂ hc₂ who l₁ l₂ hl

end Delivering

end Delivery

section Run

variable {f f' : Fabric α κ}

theorem Tabled.congr [DecidableEq α] (h : f.Tabled) (hsubs : f'.subs = f.subs)
    (hops : f'.ops = f.ops) : f'.Tabled := by
  refine ⟨hsubs ▸ h.lists, ?_⟩
  unfold subscribers
  rw [hsubs, hops]
  exact h.refines

theorem Tabled.nodup_subscribers [DecidableEq α] (h : f.Tabled) (sig : ℤ) :
    (f.subscribers sig).Nodup := by
  unfold subscribers
  cases hs : f.subs sig with
  | none => exact List.nodup_nil
  | some list => exact (h.lists sig list hs).2

theorem Delivering.congr [DecidableEq κ] (h : f.Delivering) (hpublishes : f'.publishes = f.publishes)
    (hposted : f'.posted = f.posted) (hdone : f'.done = f.done)
    (hsnapshots : f'.snapshots = f.snapshots) : f'.Delivering := by
  constructor
  · intro c
    rw [hpublishes]
    exact (h.stands c).congr (congrFun hsnapshots c) (by unfold sentBy; rw [hposted])
  · rw [hdone, hpublishes]
    exact h.done
  · rw [hsnapshots, hdone]
    exact h.earlier
  · rw [hsnapshots, hposted]
    exact h.order

/-- A snapshot holds the objects that were subscribed when it was taken, each once. -/
def Snapped [DecidableEq α] (f : Fabric α κ) : Prop := ∀ c s, f.snapshots c = some s →
  s.targets.Nodup ∧ ∀ who, who ∈ s.targets ↔ subscribed who s.sig s.ops = true

theorem apply_frame [DecidableEq α] (f : Fabric α κ) (op : Op α) :
    (f.apply op).publishes = f.publishes ∧ (f.apply op).posted = f.posted ∧
      (f.apply op).done = f.done ∧ (f.apply op).snapshots = f.snapshots ∧
      (f.apply op).withdrawn = f.withdrawn ∧ (f.apply op).freed = f.freed := by
  cases op <;> exact ⟨rfl, rfl, rfl, rfl, rfl, rfl⟩

variable [DecidableEq κ] {c : κ}

theorem publish_cases (c : κ) (sig : ℤ) (f : Fabric α κ) :
    ∃ g : Fabric α κ, g = { f with
        snapshots := Function.update f.snapshots c (some ⟨sig, f.subscribers sig, f.ops, f.done⟩)
        }.setPublish c (.posting (f.subscribers sig)) ∧
      (f.publish c sig = g ∨ f.subscribers sig = [] ∧ f.publish c sig = g.finish c) := by
  refine ⟨_, rfl, ?_⟩
  unfold publish
  cases hs : f.subs sig with
  | none =>
    right
    refine ⟨by rw [subscribers, hs]; rfl, ?_⟩
    simp only [hs, finish, setPublish, Function.update_idem]
  | some targets =>
    left
    simp only [subscribers, hs, Option.getD_some]

theorem posting_publish {c' : κ} {sig : ℤ} {targets : List α}
    (h : (f.publish c sig).publishes c' = .posting targets) :
    f.publishes c' = .posting targets ∨ targets = f.subscribers sig := by
  by_cases heq : c' = c
  · subst heq
    right
    obtain ⟨g, hg, hpublish⟩ := publish_cases c' sig f
    rcases hpublish with hp | ⟨-, hp⟩
    · rw [hp, hg, publishes_setPublish_self] at h
      cases h
      rfl
    · rw [hp] at h
      unfold finish at h
      rw [publishes_setPublish_self] at h
      cases h
  · left
    unfold publish at h
    dsimp only at h
    split at h
    · unfold finish at h
      rwa [publishes_setPublish_of_ne heq] at h
    · rwa [publishes_setPublish_of_ne heq] at h

theorem publish_frame (c : κ) (sig : ℤ) (f : Fabric α κ) :
    (f.publish c sig).subs = f.subs ∧ (f.publish c sig).ops = f.ops ∧
      (f.publish c sig).withdrawn = f.withdrawn ∧ (f.publish c sig).freed = f.freed := by
  unfold publish
  dsimp only
  split <;> exact ⟨rfl, rfl, rfl, rfl⟩

variable [DecidableEq α]

structure Sound (f : Fabric α κ) : Prop where
  tabled : f.Tabled
  delivering : f.Delivering
  snapped : f.Snapped

theorem sound_initial : (initial : Fabric α κ).Sound :=
  ⟨tabled_initial, delivering_initial, fun _ _ h => by cases h⟩

theorem Sound.apply (h : f.Sound) (op : Op α) : (f.apply op).Sound := by
  obtain ⟨hpublishes, hposted, hdone, hsnapshots, -, -⟩ := f.apply_frame op
  exact ⟨h.tabled.apply op, h.delivering.congr hpublishes hposted hdone hsnapshots,
    fun c s hs => h.snapped c s (hsnapshots ▸ hs)⟩

theorem Sound.publish (h : f.Sound) (hc : f.publishes c = .unused) (sig : ℤ) :
    (f.publish c sig).Sound := by
  obtain ⟨g, hg, hpublish⟩ := publish_cases c sig f
  have hsound : g.Sound := by
    rw [hg]
    refine ⟨h.tabled.congr rfl rfl, h.delivering.take hc rfl, ?_⟩
    intro c' s hs
    by_cases heq : c' = c
    · subst heq
      obtain rfl : (⟨sig, f.subscribers sig, f.ops, f.done⟩ : Snapshot α κ) = s := by
        simpa [setPublish] using hs
      exact ⟨h.tabled.nodup_subscribers sig, fun who => h.tabled.refines who sig⟩
    · exact h.snapped c' s (by simpa [setPublish, heq] using hs)
  rcases hpublish with heq | ⟨hnil, heq⟩
  · rw [heq]
    exact hsound
  · rw [heq]
    refine ⟨hsound.tabled.congr rfl rfl, hsound.delivering.finish ?_, hsound.snapped⟩
    have hstands := hsound.delivering.stands c
    have hposting : g.publishes c = .posting (f.subscribers sig) := by
      rw [hg, publishes_setPublish_self]
    rw [hposting] at hstands
    obtain ⟨s, hs, htargets⟩ := hstands
    exact ⟨s, hs, by rw [htargets, hnil, List.append_nil]⟩

theorem sound_step (h : f.Sound) {l : Label α κ} (hstep : f.step l = some f') : f'.Sound := by
  cases l with
  | change op =>
    obtain ⟨-, heq⟩ := Option.ite_none_right_eq_some.mp hstep
    cases heq
    exact h.apply op
  | publish c sig =>
    obtain ⟨hc, heq⟩ := Option.ite_none_right_eq_some.mp hstep
    cases heq
    exact h.publish hc sig
  | post c =>
    simp only [step] at hstep
    split at hstep <;> cases hstep
    · exact ⟨h.tabled.congr rfl rfl, h.delivering.post ‹_›, h.snapped⟩
    · refine ⟨h.tabled.congr rfl rfl, h.delivering.finish ?_, h.snapped⟩
      have hstands := h.delivering.stands c
      rw [‹f.publishes c = _›] at hstands
      obtain ⟨s, hs, htargets⟩ := hstands
      exact ⟨s, hs, by rw [htargets, List.append_nil]⟩
  | cleanup who =>
    obtain ⟨-, heq⟩ := Option.ite_none_right_eq_some.mp hstep
    cases heq
    have hsound := h.apply (.unsubscribeAll who)
    exact ⟨hsound.tabled.congr rfl rfl, hsound.delivering.congr rfl rfl rfl rfl, hsound.snapped⟩
  | free who =>
    obtain ⟨-, heq⟩ := Option.ite_none_right_eq_some.mp hstep
    cases heq
    exact ⟨h.tabled.congr rfl rfl, h.delivering.congr rfl rfl rfl rfl, h.snapped⟩

/-- In every run, whatever threads subscribe, unsubscribe and publish: the lists hold who is
subscribed; a `publish` that has returned has posted once to each object that was subscribed when it
took the lock and to no other; and its posts stand behind those of every `publish` that had returned
before. -/
theorem delivered_run {ls : List (Label α κ)} (hrun : Trace.run step initial ls = some f) :
    (∀ who sig, (f.subscribers sig).count who = if subscribed who sig f.ops then 1 else 0) ∧
    ∀ c, f.publishes c = .returned → ∃ s, f.snapshots c = some s ∧
      (∀ who, (f.sentBy c).count who = if subscribed who s.sig s.ops then 1 else 0) ∧
      ∀ c' ∈ s.done, ∀ who l₁ l₂, f.posted = l₁ ++ (c, who) :: l₂ → ∀ p ∈ l₂, p.1 ≠ c' := by
  have h := Trace.run_invariant (fun _ _ _ h hstep => sound_step h hstep) hrun sound_initial
  have hcount : ∀ (l : List α) (who : α) (b : Bool), l.Nodup → (who ∈ l ↔ b = true) →
      l.count who = if b then 1 else 0 := by
    intro l who b hnodup hmem
    cases b with
    | false => exact List.count_eq_zero.mpr (by simpa using hmem)
    | true => exact List.count_eq_one_of_mem hnodup (hmem.mpr rfl)
  constructor
  · intro who sig
    exact hcount _ who _ (h.tabled.nodup_subscribers sig) (h.tabled.refines who sig)
  · intro c hc
    have hstands := h.delivering.stands c
    rw [hc] at hstands
    obtain ⟨s, hs, htargets⟩ := hstands
    obtain ⟨hnodup, hmem⟩ := h.snapped c s hs
    refine ⟨s, hs, ?_, h.delivering.order c s hs⟩
    intro who
    rw [← htargets]
    exact hcount _ who _ hnodup (hmem who)

/-- Two threads publish, one from before the second object came and one from before it left. -/
def twoPublishes : List (Label ℕ ℕ) :=
  [.change (.subscribe 7 3), .publish 0 3, .change (.subscribe 8 3), .publish 1 3, .post 1,
    .change (.unsubscribe 8 3), .post 0, .post 0, .post 1, .post 1]

theorem delivered_twoPublishes : ∃ f, Trace.run step initial twoPublishes = some f ∧
    f.sentBy 0 = [7] ∧ f.sentBy 1 = [7, 8] ∧
    ∃ s, f.snapshots 1 = some s ∧
      ∀ who, (f.sentBy 1).count who = if subscribed who s.sig s.ops then 1 else 0 := by
  refine ⟨_, rfl, rfl, rfl, ?_⟩
  have hrun : Trace.run step initial twoPublishes = some _ := rfl
  obtain ⟨s, hs, hcount, -⟩ := (delivered_run hrun).2 1 rfl
  exact ⟨s, hs, hcount⟩

end Run

section Hazard

variable {f f' : Fabric α κ} {ls : List (Label α κ)}

/-- No `publish` in flight has an object left to post to whose memory is gone. -/
def Safe (f : Fabric α κ) : Prop :=
  ∀ c targets, f.publishes c = .posting targets → ∀ who ∈ targets, who ∉ f.freed

/-- An object is freed when no `publish` in flight has it left to post to. -/
def FreesUnheld (f : Fabric α κ) : Label α κ → Prop
  | .free who => ∀ c targets, f.publishes c = .posting targets → who ∉ targets
  | _ => True

/-- The hook has run before an object is freed, and from then on no list holds it. -/
structure Cleaned [DecidableEq α] (f : Fabric α κ) : Prop where
  tabled : f.Tabled
  freed : ∀ who ∈ f.freed, who ∈ f.withdrawn
  absent : ∀ who ∈ f.withdrawn, ∀ sig, who ∉ f.subscribers sig

variable [DecidableEq α]

theorem cleaned_initial : (initial : Fabric α κ).Cleaned := by
  constructor
  · exact tabled_initial
  · intro who h
    cases h
  · intro who h
    cases h

theorem mem_subscribers_apply (h : f.Tabled) (op : Op α) {who : α} {sig : ℤ}
    (hmem : who ∈ (f.apply op).subscribers sig) :
    who ∈ f.subscribers sig ∨ op = .subscribe who sig := by
  rw [(h.apply op).refines] at hmem
  rw [h.refines]
  have hops : (f.apply op).ops = f.ops ++ [op] := by cases op <;> rfl
  rw [hops, subscribed_concat] at hmem
  cases op <;> grind

theorem not_mem_subscribers_unsubscribeAll (h : f.Tabled) (who : α) (sig : ℤ) :
    who ∉ (f.apply (.unsubscribeAll who)).subscribers sig := by
  rw [(h.apply (.unsubscribeAll who)).refines]
  change ¬ subscribed who sig (f.ops ++ [.unsubscribeAll who]) = true
  rw [subscribed_concat]
  simp

theorem Cleaned.congr (h : f.Cleaned) (hsubs : f'.subs = f.subs) (hops : f'.ops = f.ops)
    (hfreed : f'.freed = f.freed) (hwithdrawn : f'.withdrawn = f.withdrawn) : f'.Cleaned := by
  refine ⟨h.tabled.congr hsubs hops, by rw [hfreed, hwithdrawn]; exact h.freed, ?_⟩
  unfold subscribers
  rw [hsubs, hwithdrawn]
  exact h.absent

variable [DecidableEq κ]

theorem cleaned_step (h : f.Cleaned) {l : Label α κ} (hstep : f.step l = some f') :
    f'.Cleaned := by
  cases l with
  | change op =>
    obtain ⟨hallowed, heq⟩ := Option.ite_none_right_eq_some.mp hstep
    cases heq
    obtain ⟨-, -, -, -, hwithdrawn, hfreed⟩ := f.apply_frame op
    refine ⟨h.tabled.apply op, by rw [hfreed, hwithdrawn]; exact h.freed, ?_⟩
    rw [hwithdrawn]
    intro who hwho sig hmem
    rcases mem_subscribers_apply h.tabled op hmem with hold | rfl
    · exact h.absent who hwho sig hold
    · simp [allowed, hwho] at hallowed
  | publish c sig =>
    obtain ⟨-, heq⟩ := Option.ite_none_right_eq_some.mp hstep
    cases heq
    obtain ⟨hsubs, hops, hwithdrawn, hfreed⟩ := publish_frame c sig f
    exact h.congr hsubs hops hfreed hwithdrawn
  | post c =>
    simp only [step] at hstep
    split at hstep <;> cases hstep <;> exact h.congr rfl rfl rfl rfl
  | cleanup who =>
    obtain ⟨-, heq⟩ := Option.ite_none_right_eq_some.mp hstep
    cases heq
    obtain ⟨-, -, -, -, -, hfreed⟩ := f.apply_frame (.unsubscribeAll who)
    refine ⟨(h.tabled.apply _).congr rfl rfl, ?_, ?_⟩
    · intro who' hwho'
      exact List.mem_append_left _ (h.freed who' (hfreed ▸ hwho'))
    · intro who' hwho' sig hmem
      change who' ∈ (f.apply (.unsubscribeAll who)).subscribers sig at hmem
      rcases List.mem_append.mp hwho' with hold | hnew
      · rcases mem_subscribers_apply h.tabled _ hmem with hmem | heq
        · exact h.absent who' hold sig hmem
        · cases heq
      · obtain rfl := List.mem_singleton.mp hnew
        exact not_mem_subscribers_unsubscribeAll h.tabled who' sig hmem
  | free who =>
    obtain ⟨hwho, heq⟩ := Option.ite_none_right_eq_some.mp hstep
    cases heq
    refine ⟨h.tabled.congr rfl rfl, ?_, h.absent⟩
    intro who' hwho'
    rcases List.mem_append.mp hwho' with hold | hnew
    · exact h.freed who' hold
    · obtain rfl := List.mem_singleton.mp hnew
      exact hwho

/-- A snapshot never takes an object whose memory is gone: only a `free` can break safety. -/
theorem safe_step (h : f.Cleaned) (hs : f.Safe) {l : Label α κ} (hstep : f.step l = some f') :
    f.FreesUnheld l ↔ f'.Safe := by
  cases l with
  | change op =>
    obtain ⟨-, heq⟩ := Option.ite_none_right_eq_some.mp hstep
    cases heq
    obtain ⟨hpublishes, -, -, -, -, hfreed⟩ := f.apply_frame op
    unfold Safe
    rw [hpublishes, hfreed]
    exact iff_of_true trivial hs
  | publish c sig =>
    obtain ⟨-, heq⟩ := Option.ite_none_right_eq_some.mp hstep
    cases heq
    refine iff_of_true trivial ?_
    intro c' targets hc' who hwho
    rw [(publish_frame c sig f).2.2.2]
    rcases posting_publish hc' with hold | rfl
    · exact hs c' targets hold who hwho
    · exact fun hfreed => h.absent who (h.freed who hfreed) sig hwho
  | post c =>
    refine iff_of_true trivial ?_
    simp only [step] at hstep
    split at hstep <;> cases hstep <;> intro c' targets hc' who hwho
    · by_cases heq : c' = c
      · subst heq
        rw [publishes_setPublish_self] at hc'
        cases hc'
        exact hs c' _ ‹_› who (List.mem_cons_of_mem _ hwho)
      · rw [publishes_setPublish_of_ne heq] at hc'
        exact hs c' targets hc' who hwho
    · unfold finish at hc'
      by_cases heq : c' = c
      · subst heq
        rw [publishes_setPublish_self] at hc'
        cases hc'
      · rw [publishes_setPublish_of_ne heq] at hc'
        exact hs c' targets hc' who hwho
  | cleanup who =>
    obtain ⟨-, heq⟩ := Option.ite_none_right_eq_some.mp hstep
    cases heq
    exact iff_of_true trivial hs
  | free who =>
    obtain ⟨-, heq⟩ := Option.ite_none_right_eq_some.mp hstep
    cases heq
    constructor
    · intro hok c targets hc who' hwho' hfreed
      rcases List.mem_append.mp hfreed with hold | hnew
      · exact hs c targets hc who' hwho' hold
      · obtain rfl := List.mem_singleton.mp hnew
        exact hok c targets hc hwho'
    · intro hsafe c targets hc hwho
      exact hsafe c targets hc who hwho (List.mem_append_right _ (List.mem_singleton_self who))

/-- The cleanup hook takes an object out of the lists, not out of the snapshots of the calls in
flight: no call is ever about to post to freed memory if and only if no object is freed while a call
in flight has it left. -/
theorem safe_run (hrun : Trace.run step initial ls = some f) :
    Trace.Always step Safe initial ls ↔ Trace.AllSteps step FreesUnheld initial ls := by
  apply Trace.always_iff_allSteps (J := Cleaned) (fun _ _ _ h hstep => cleaned_step h hstep)
    (fun _ _ _ h hs hstep => safe_step h hs hstep) hrun cleaned_initial
  intro c targets hc
  cases hc

/-- An object goes away while a call that found it in the table has not posted to it yet. -/
def freedInFlight : List (Label ℕ ℕ) :=
  [.change (.subscribe 7 3), .publish 0 3, .cleanup 7, .free 7]

theorem safe_freedInFlight : ¬ Trace.Always step Safe initial freedInFlight := by
  have hrun : Trace.run step initial freedInFlight = some _ := rfl
  rw [safe_run hrun]
  intro h
  have hfree := (((h.2 _ rfl).2 _ rfl).2 _ rfl).1
  exact hfree 0 [7] rfl List.mem_cons_self

end Hazard

end Fabric

end TelafSim.Chart
