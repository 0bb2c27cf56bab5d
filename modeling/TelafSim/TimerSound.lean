import TelafSim.TimerService

/-!
# The invariant of the timer service

An item is in `items_` or held by the worker, with its token in `valid_` and the flag there saying
whether it has been cancelled. Every critical section keeps this as long as `schedule` does not hand
out a token again.
-/

namespace TelafSim.Timers.TimerService

variable {φ : Type}

/-- Nothing is left to do for a timer. -/
def Over (s : TimerService φ) (it : Item φ) : Prop :=
  Cancelled it.tok s.log ∨ it.period ≤ 0 ∧ it.tok ∈ fired s.log

/-- What the service keeps to as long as its tokens are distinct. -/
structure Sound (s : TimerService φ) : Prop where
  keys : ∀ tok, tok ∈ s.valid.keys ↔ tok ∈ s.holding.map Item.tok
  nodup : (s.holding.map Item.tok).Nodup
  known : ∀ it ∈ s.holding, s.Scheduled it
  flag : ∀ tok b, s.valid.get tok = some b → (b = true ↔ ¬ Cancelled tok s.log)
  returned : ∀ left, s.worker = .returned left → s.stopping
  invoked : ∀ it, .invoked it ∈ s.log → s.Scheduled it
  waiting : ∀ it ∈ s.items, it.period ≤ 0 → it.tok ∉ fired s.log
  held : ∀ it, s.worker.held = some it → it.tok ∈ fired s.log
  kept : ∀ it, .scheduled it ∈ s.log → it.tok ∈ s.holding.map Item.tok ∨ s.Over it
  oneShot : ∀ it, .scheduled it ∈ s.log → it.period ≤ 0 → (fired s.log).count it.tok ≤ 1
  heeded : Heeded s.log

variable {s s' : TimerService φ} {it : Item φ} {tok : Token}

theorem Over.mono (h : s.Over it) {e : Event φ} (hlog : s'.log = e :: s.log) : s'.Over it := by
  unfold Over
  rw [hlog, fired_cons]
  exact h.imp Or.inr (And.imp_right (List.mem_append_right _))

theorem sound_construct : (construct : TimerService φ).Sound := by
  constructor <;>
    simp [construct, holding, Worker.held, Dict.empty, Dict.keys, Dict.get, Heeded]

namespace Sound

variable (h : s.Sound)
include h

theorem issued_of_key (htok : tok ∈ s.valid.keys) : tok ∈ issued s.log := by
  obtain ⟨it, hit, rfl⟩ := List.mem_map.mp ((h.keys tok).mp htok)
  exact (h.known it hit).issued

theorem issued_of_fired (htok : tok ∈ fired s.log) : tok ∈ issued s.log := by
  obtain ⟨it, hit, rfl⟩ := mem_fired_iff.mp htok
  exact (h.invoked it hit).issued

theorem cancelled_of_dead (hit : it ∈ s.holding) (hdead : s.valid.get it.tok ≠ some true) :
    Cancelled it.tok s.log := by
  obtain ⟨b, hb⟩ := Dict.mem_keys_iff.mp ((h.keys it.tok).mpr (List.mem_map_of_mem hit))
  by_contra hnot
  have hb' : b = true := (h.flag it.tok b hb).mpr hnot
  exact hdead (hb' ▸ hb)

theorem invoked_mono {e : Event φ} (hlog : s'.log = e :: s.log) (hnot : ∀ x, e ≠ .invoked x) :
    ∀ x, .invoked x ∈ s'.log → s'.Scheduled x := by
  rw [hlog]
  intro x hx
  have hold : .invoked x ∈ s.log := (List.mem_cons.mp hx).resolve_left (hnot x).symm
  exact (h.invoked x hold).mono (hlog ▸ List.subset_cons_self _ _)

theorem kept_mono {e : Event φ} (hlog : s'.log = e :: s.log) (hnot : ∀ x, e ≠ .scheduled x)
    (hperm : (s'.holding.map Item.tok).Perm (s.holding.map Item.tok)) :
    ∀ x, .scheduled x ∈ s'.log → x.tok ∈ s'.holding.map Item.tok ∨ s'.Over x := by
  rw [hlog]
  intro x hx
  have hold : .scheduled x ∈ s.log := (List.mem_cons.mp hx).resolve_left (hnot x).symm
  exact (h.kept x hold).imp hperm.mem_iff.mpr (fun hover => hover.mono hlog)

/-- The worker moves on, or the destructor begins, without an item changing hands. -/
theorem wake {w : Worker φ} {stopping : Bool} (hheld : w.held = s.worker.held)
    (hreturned : ∀ left, w = .returned left → stopping) :
    Sound { s with worker := w, stopping := stopping } := by
  have hsame : holding { s with worker := w, stopping := stopping } = s.holding := by
    simp [holding, hheld]
  constructor
  case keys =>
    rw [hsame]
    exact h.keys
  case nodup =>
    rw [hsame]
    exact h.nodup
  case known =>
    rw [hsame]
    exact h.known
  case returned => exact hreturned
  case flag => exact h.flag
  case invoked => exact h.invoked
  case waiting => exact h.waiting
  case held => exact fun it hit => h.held it (hheld.symm.trans hit)
  case kept =>
    rw [hsame]
    exact h.kept
  case oneShot => exact h.oneShot
  case heeded => exact h.heeded

theorem cancel (tok : Token) : (s.cancel tok).Sound := by
  have hget : ∀ tok', (s.cancel tok).valid.get tok' =
      if tok' = tok then (s.valid.get tok).map (fun _ => false) else s.valid.get tok' := by
    intro tok'
    unfold TimerService.cancel
    cases hv : s.valid.get tok with
    | none =>
      by_cases heq : tok' = tok
      · simp [heq, hv]
      · simp [heq]
    | some b => simp [Dict.get_set]
  constructor
  case keys =>
    intro tok'
    refine Iff.trans ?_ (h.keys tok')
    rw [Dict.mem_keys_iff, Dict.mem_keys_iff, hget]
    by_cases heq : tok' = tok
    · simp [heq]
    · simp [heq]
  case flag =>
    intro tok' b hb
    rw [hget] at hb
    by_cases heq : tok' = tok
    · rw [if_pos heq, Option.map_eq_some_iff] at hb
      obtain ⟨b', hb', rfl⟩ := hb
      have hissued := h.issued_of_key (Dict.mem_keys_iff.mpr ⟨b', hb'⟩)
      subst heq
      simp [TimerService.cancel, Cancelled, hissued]
    · rw [if_neg heq] at hb
      simpa [TimerService.cancel, Cancelled, Ne.symm heq] using h.flag tok' b hb
  case nodup => exact h.nodup
  case known =>
    intro it hit
    exact (h.known it hit).mono (List.subset_cons_self _ _)
  case returned => exact h.returned
  case invoked => exact h.invoked_mono rfl (by simp)
  case waiting => simpa [TimerService.cancel, Event.fired] using h.waiting
  case held => simpa [TimerService.cancel, Event.fired] using h.held
  case kept => exact h.kept_mono rfl (by simp) (List.Perm.refl _)
  case oneShot => simpa [TimerService.cancel, Event.fired] using h.oneShot
  case heeded => exact ⟨by simp, h.heeded⟩

theorem schedule (hnew : s.next + 1 ∉ issued s.log) (fn : φ) (first period : ℤ) :
    (s.schedule fn first period).Sound := by
  have hlog : s.log ⊆ (s.schedule fn first period).log := List.subset_cons_self _ _
  have hperm : ((s.schedule fn first period).holding.map Item.tok).Perm
      ((s.next + 1) :: s.holding.map Item.tok) :=
    (((insertItem_perm _ s.items).append_right _).map Item.tok)
  have hfree : s.next + 1 ∉ s.holding.map Item.tok :=
    fun hmem => hnew (h.issued_of_key ((h.keys _).mpr hmem))
  have hunfired : s.next + 1 ∉ fired s.log := fun hmem => hnew (h.issued_of_fired hmem)
  constructor
  case keys =>
    intro tok
    rw [hperm.mem_iff, List.mem_cons, ← h.keys tok, Dict.mem_keys_iff, Dict.mem_keys_iff]
    by_cases heq : tok = s.next + 1 <;> simp [TimerService.schedule, Dict.get_set, heq]
  case nodup => exact hperm.nodup_iff.mpr (List.nodup_cons.mpr ⟨hfree, h.nodup⟩)
  case known =>
    intro it hit
    obtain hit | hheld := List.mem_append.mp hit
    · obtain rfl | hold := mem_insertItem.mp hit
      · exact ⟨first, List.mem_cons_self⟩
      · exact (h.known it (List.mem_append_left _ hold)).mono hlog
    · exact (h.known it (List.mem_append_right _ hheld)).mono hlog
  case flag =>
    intro tok b hb
    have hcancelled : Cancelled tok (s.schedule fn first period).log ↔ Cancelled tok s.log := by
      simp [TimerService.schedule, Cancelled]
    rw [hcancelled]
    simp only [TimerService.schedule, Dict.get_set] at hb
    split_ifs at hb with heq
    · rw [← Option.some.inj hb, heq]
      exact iff_of_true rfl (fun hcancel => hnew hcancel.issued)
    · exact h.flag tok b hb
  case returned => exact h.returned
  case invoked => exact h.invoked_mono rfl (by simp)
  case waiting =>
    intro it hit hperiod
    obtain rfl | hold := mem_insertItem.mp hit
    · simpa [TimerService.schedule, Event.fired] using hunfired
    · simpa [TimerService.schedule, Event.fired] using h.waiting it hold hperiod
  case held => simpa [TimerService.schedule, Event.fired] using h.held
  case kept =>
    intro it hit
    rw [hperm.mem_iff, List.mem_cons]
    obtain heq | hold := List.mem_cons.mp hit
    · obtain rfl := Event.scheduled.inj heq
      exact Or.inl (Or.inl rfl)
    · exact (h.kept it hold).imp Or.inr (fun hover => hover.mono rfl)
  case oneShot =>
    intro it hit hperiod
    obtain heq | hold := List.mem_cons.mp hit
    · obtain rfl := Event.scheduled.inj heq
      simp [TimerService.schedule, Event.fired, List.count_eq_zero.mpr hunfired]
    · simpa [TimerService.schedule, Event.fired] using h.oneShot it hold hperiod
  case heeded => exact ⟨by simp, h.heeded⟩

theorem retire (hdistinct : (issued s.log).Nodup) (hover : s.Over it)
    (hperm : s.holding.Perm (it :: s'.holding)) (hvalid : s'.valid = s.valid.pop it.tok)
    (hitems : s'.items ⊆ s.items) (hheld : ∀ x, s'.worker.held = some x → s.worker.held = some x)
    (hlog : s'.log = s.log) (hreturned : ∀ left, s'.worker = .returned left → s'.stopping) :
    s'.Sound := by
  have hsub : s.log ⊆ s'.log := by rw [hlog]; exact List.Subset.refl _
  have hnodup : (it.tok :: s'.holding.map Item.tok).Nodup :=
    (hperm.map Item.tok).nodup_iff.mp h.nodup
  obtain ⟨hgone, hrest⟩ := List.nodup_cons.mp hnodup
  constructor
  case keys =>
    intro tok
    have hold : tok ∈ s.valid.keys ↔ tok = it.tok ∨ tok ∈ s'.holding.map Item.tok := by
      rw [h.keys, (hperm.map Item.tok).mem_iff, List.map_cons, List.mem_cons]
    rw [Dict.mem_keys_iff] at hold ⊢
    rw [hvalid, Dict.get_pop]
    by_cases heq : tok = it.tok
    · simpa [heq] using hgone
    · simpa [heq] using hold
  case nodup => exact hrest
  case known =>
    intro x hx
    exact (h.known x (hperm.mem_iff.mpr (List.mem_cons_of_mem _ hx))).mono hsub
  case flag =>
    intro tok b hb
    rw [hvalid, Dict.get_pop] at hb
    rw [hlog]
    exact h.flag tok b (Option.ite_none_left_eq_some.mp hb).2
  case returned => exact hreturned
  case invoked =>
    rw [hlog]
    intro x hx
    exact (h.invoked x hx).mono hsub
  case waiting =>
    rw [hlog]
    intro x hx
    exact h.waiting x (hitems hx)
  case held =>
    rw [hlog]
    intro x hx
    exact h.held x (hheld x hx)
  case kept =>
    unfold Over
    rw [hlog]
    intro x hx
    obtain hmem | hdone := h.kept x hx
    · rw [(hperm.map Item.tok).mem_iff, List.map_cons, List.mem_cons] at hmem
      obtain heq | hrest := hmem
      · obtain ⟨first, hfirst⟩ := h.known it (hperm.mem_iff.mpr List.mem_cons_self)
        obtain rfl : x = { it with due := first } := scheduled_unique hdistinct hx hfirst heq
        exact Or.inr hover
      · exact Or.inl hrest
    · exact Or.inr hdone
  case oneShot =>
    rw [hlog]
    exact h.oneShot
  case heeded =>
    rw [hlog]
    exact h.heeded

/-- The worker takes an item that is alive out of `items_` and runs its callback. -/
theorem invoke {items : List (Item φ)} (hdistinct : (issued s.log).Nodup)
    (hitems : s.items = it :: items) (hheld : s.worker.held = none)
    (halive : s.valid.get it.tok = some true) (now : ℤ) :
    Sound { s with items := items, worker := .running it now, log := .invoked it :: s.log } := by
  have hlog : s.log ⊆ .invoked it :: s.log := List.subset_cons_self _ _
  have hholding : s.holding = it :: items := by simp [holding, hitems, hheld]
  have hperm : (items ++ [it]).Perm s.holding := by
    rw [hholding]
    exact List.perm_append_singleton it items
  have hcancelled : ¬ Cancelled it.tok s.log := (h.flag it.tok true halive).mp rfl
  have hgone : it.tok ∉ items.map Item.tok := by
    have hnodup := h.nodup
    rw [hholding, List.map_cons] at hnodup
    exact (List.nodup_cons.mp hnodup).1
  constructor
  case keys =>
    intro tok
    exact (h.keys tok).trans (hperm.map Item.tok).mem_iff.symm
  case nodup => exact (hperm.map Item.tok).nodup_iff.mpr h.nodup
  case known =>
    intro x hx
    exact (h.known x (hperm.mem_iff.mp hx)).mono hlog
  case flag => simpa [Cancelled] using h.flag
  case returned => simp
  case invoked =>
    intro x hx
    obtain heq | hold := List.mem_cons.mp hx
    · obtain rfl := Event.invoked.inj heq
      exact (h.known x (hholding ▸ List.mem_cons_self)).mono hlog
    · exact (h.invoked x hold).mono hlog
  case waiting =>
    intro x hx hperiod
    have hne : x.tok ≠ it.tok := fun heq => hgone (heq ▸ List.mem_map_of_mem hx)
    have hmem : x ∈ s.items := hitems ▸ List.mem_cons_of_mem it hx
    simpa [Event.fired, hne] using h.waiting x hmem hperiod
  case held =>
    intro x hx
    obtain rfl : it = x := by simpa [Worker.held] using hx
    simp [Event.fired]
  case kept => exact h.kept_mono rfl (by simp) (hperm.map Item.tok)
  case oneShot =>
    intro x hx hperiod
    have hold : .scheduled x ∈ s.log := by simpa using hx
    by_cases heq : x.tok = it.tok
    · -- the timer is the one just invoked, so it is a one-shot that was waiting until now
      have hmem : it ∈ s.holding := hholding ▸ List.mem_cons_self
      obtain ⟨first, hfirst⟩ := h.known it hmem
      have hx : x = { it with due := first } := scheduled_unique hdistinct hold hfirst heq
      have hwaiting : it.tok ∉ fired s.log := by
        refine h.waiting it (hitems ▸ List.mem_cons_self) ?_
        simpa [hx] using hperiod
      simp [Event.fired, heq, List.count_eq_zero.mpr hwaiting]
    · simpa [Event.fired, Ne.symm heq] using h.oneShot x hold hperiod
  case heeded =>
    refine ⟨?_, h.heeded⟩
    intro x hx
    obtain rfl : it = x := by simpa using hx
    exact hcancelled

theorem reinsert (hheld : s.worker.held = some it) (hperiod : 0 < it.period)
    (halive : s.valid.get it.tok = some true) (now : ℤ) :
    Sound { s with
      items := insertItem (it.restart now) s.items
      worker := .sleeping
      log := .reinserted (it.restart now) :: s.log } := by
  have hlog : s.log ⊆ .reinserted (it.restart now) :: s.log := List.subset_cons_self _ _
  have hholding : s.holding = s.items ++ [it] := by simp [holding, hheld]
  have hperm : ((insertItem (it.restart now) s.items ++ []).map Item.tok).Perm
      (s.holding.map Item.tok) := by
    rw [hholding, List.append_nil]
    exact ((insertItem_perm _ s.items).map Item.tok).trans
      ((List.perm_append_singleton it s.items).map Item.tok).symm
  constructor
  case keys =>
    intro tok
    exact (h.keys tok).trans hperm.mem_iff.symm
  case nodup => exact hperm.nodup_iff.mpr h.nodup
  case known =>
    intro x hx
    rw [holding, List.mem_append] at hx
    obtain hx | hx := hx
    · obtain rfl | hold := mem_insertItem.mp hx
      · exact ((h.known it (by simp [hholding])).restart now).mono hlog
      · exact (h.known x (List.mem_append_left _ hold)).mono hlog
    · cases hx
  case flag => simpa [Cancelled] using h.flag
  case returned => simp
  case invoked => exact h.invoked_mono rfl (by simp)
  case waiting =>
    intro x hx hzero
    obtain rfl | hold := mem_insertItem.mp hx
    · exact absurd hperiod (not_lt.mpr hzero)
    · simpa [Event.fired] using h.waiting x hold hzero
  case held => simp [Worker.held]
  case kept => exact h.kept_mono rfl (by simp) hperm
  case oneShot => simpa [Event.fired] using h.oneShot
  case heeded =>
    refine ⟨?_, h.heeded⟩
    intro x hx
    obtain rfl : it.restart now = x := by simpa using hx
    exact (h.flag it.tok true halive).mp rfl

end Sound

theorem sound_drain {items : List (Item φ)} (hdistinct : (issued s.log).Nodup)
    (hheld : s.worker.held = none) (h : Sound { s with items := items }) (now : ℤ) :
    (drain now items s).Sound := by
  induction items generalizing s with
  | nil => exact h.wake hheld.symm (by simp)
  | cons it items ih =>
    unfold drain
    split_ifs with hdue halive
    · exact h.wake hheld.symm (by simp)
    · exact h.invoke hdistinct rfl hheld halive now
    · have hmem : it ∈ holding { s with items := it :: items } := List.mem_cons_self
      have hcancelled := h.cancelled_of_dead hmem halive
      refine ih hdistinct hheld
        (h.retire hdistinct (Or.inl hcancelled) ?_ rfl ?_ (fun _ => id) rfl h.returned)
      · simp [holding]
      · exact List.subset_cons_self it items

theorem sound_finish (hdistinct : (issued s.log).Nodup) (h : s.Sound)
    (hheld : s.worker.held = some it) (now : ℤ) : (s.finish it now).Sound := by
  unfold finish
  split_ifs with hagain
  · exact h.reinsert hheld hagain.1 hagain.2 now
  · have hholding : s.holding = s.items ++ [it] := by simp [holding, hheld]
    have hover : s.Over it := by
      by_cases halive : s.valid.get it.tok = some true
      · exact Or.inr ⟨not_lt.mp (fun hperiod => hagain ⟨hperiod, halive⟩), h.held it hheld⟩
      · exact Or.inl (h.cancelled_of_dead (by simp [hholding]) halive)
    refine h.retire hdistinct hover ?_ rfl (List.Subset.refl _) (by simp [Worker.held]) rfl
      (by simp)
    rw [hholding]
    simp [holding, Worker.held]

theorem sound_work (hdistinct : (issued s.log).Nodup) (h : s.Sound) {now : ℤ}
    (hwork : s.work now = some s') : s'.Sound := by
  obtain ⟨w, hheld, hreturned, -, rfl⟩ | ⟨hheld, rfl⟩ | ⟨it, start, hheld, rfl⟩ := work_cases hwork
  · exact h.wake hheld hreturned
  · exact sound_drain hdistinct hheld h now
  · have hissued : issued (s.finish it now).log = issued s.log :=
      congrArg Prod.snd (counter_finish it now s)
    have hfinish := sound_finish hdistinct h hheld now
    exact sound_drain (hissued ▸ hdistinct) (held_finish it now s) hfinish start

theorem sound_step {a : Label φ} (hdistinct : (issued s'.log).Nodup) (h : s.Sound)
    (hstep : s.step a = some s') : s'.Sound := by
  cases a with
  | schedule fn first period =>
    obtain rfl := Option.some.inj hstep
    exact h.schedule (List.nodup_cons.mp hdistinct).1 fn first period
  | cancel tok =>
    obtain rfl := Option.some.inj hstep
    exact h.cancel tok
  | work now =>
    have hissued : issued s'.log = issued s.log := congrArg Prod.snd (counter_work hstep)
    exact sound_work (hissued ▸ hdistinct) h hstep
  | destroy =>
    obtain rfl := Option.some.inj hstep
    exact h.wake rfl (fun _ _ => rfl)

end TelafSim.Timers.TimerService
