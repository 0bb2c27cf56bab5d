import TelafSim.HsmSpec

/-!
# The engine performs the least-common-ancestor dispatch

Each loop of `Hsm::dispatch` is matched with its part of the specification: what it logs, how it
changes the object's data, and what it leaves in the scratch slot where a later loop reads it.
On a well-formed chart no loop runs more than `kMaxNest + 1` times, so that much fuel is enough
for every event in every state.
-/

namespace TelafSim.WellFormedChart

variable {S ε X : Type*} [DecidableEq S] (W : WellFormedChart S ε X)

theorem lineageLoop_eq (q : StateFn S) (cur : StateFn S) (room : ℕ) (out : List (StateFn S))
    (h : Hsm S ε X) (hcur : ∀ s, cur = some s → W.forest.parent s = q) (ht : h.temp = q)
    (hroom : (W.forest.path q).length ≤ room) :
    W.lineageLoop room cur out h = (out ++ (W.forest.path q).map some, { h with temp := none }) := by
  induction q using W.forest.induct generalizing cur room out h with
  | root =>
    rw [W.lineageLoop_stop (Or.inl ht), set_temp_self ht]
    simp
  | node p ih =>
    have hne : h.temp ≠ cur := by
      rw [ht]
      intro he
      have hp := hcur p he.symm
      exact W.forest.not_mem_path_parent p (by rw [hp]; exact W.forest.mem_path_self p)
    rw [W.forest.path_some, List.length_cons] at hroom
    cases room with
    | zero => omega
    | succ room =>
      rw [Chart.lineageLoop, if_pos ⟨by simp [ht], hne⟩, ht, call_empty]
      dsimp only
      rw [ih (some p) room _ _ (by rintro s ⟨⟩; rfl) rfl (by omega)]
      simp [W.forest.path_some p]

theorem collectLineage_eq (h : Hsm S ε X) (s : S) :
    W.collectLineage h (some s) = ((W.forest.path (some s)).map some, h) := by
  have hn := W.nest s
  rw [W.forest.path_some, List.length_cons] at hn
  rw [Chart.collectLineage, call_empty,
    W.lineageLoop_eq (W.forest.parent s) _ _ _ _ (by rintro s ⟨⟩; rfl) rfl (by omega)]
  simp [W.forest.path_some s]

theorem collectLineage_top (h : Hsm S ε X) : W.collectLineage h none = ([none], h) := by
  rw [Chart.collectLineage, W.lineageLoop_stop (Or.inl rfl)]
  rfl

theorem pathLoop_eq (stop : StateFn S → Bool) (b : StateFn S)
    (hstop : ∀ q, W.forest.Above b q → (stop q = true ↔ q = b)) (q : StateFn S) (room : ℕ)
    (out : List (StateFn S)) (h : Hsm S ε X) (hb : W.forest.Above b q)
    (hroom : (W.forest.segment q b).length ≤ room) (ht : h.temp = q) :
    W.pathLoop stop room out h =
      (out ++ (W.forest.segment q b).map some, { h with temp := b }) := by
  induction q using W.forest.induct generalizing room out h with
  | root =>
    have hb' : b = none := by
      cases b with
      | none => rfl
      | some l => exact absurd (hb l rfl) (by simp)
    subst hb'
    rw [W.pathLoop_stop (by rw [ht]; exact (hstop none hb).2 rfl), set_temp_self ht]
    simp
  | node s ih =>
    by_cases hs : b = some s
    · subst hs
      rw [W.pathLoop_stop (by rw [ht]; exact (hstop _ hb).2 rfl), W.forest.segment_self,
        set_temp_self ht]
      simp
    · have hno : ¬ stop h.temp = true := by
        rw [ht, hstop _ hb]
        exact fun he => hs he.symm
      rw [W.forest.segment_cons hb hs, List.length_cons] at hroom
      cases room with
      | zero => omega
      | succ room =>
        rw [Chart.pathLoop, if_neg hno, ht, call_empty]
        dsimp only
        rw [ih _ _ _ (W.forest.above_parent hb hs) (by omega) rfl, W.forest.segment_cons hb hs]
        simp

theorem pathUp_eq (stop : StateFn S → Bool) (b : StateFn S)
    (hstop : ∀ q, W.forest.Above b q → (stop q = true ↔ q = b)) (t : S) (h : Hsm S ε X)
    (hb : W.forest.Above b (W.forest.parent t)) :
    W.pathUp stop h (some t) = ((W.forest.segment (some t) b).map some, { h with temp := b }) := by
  have hne : b ≠ some t := by
    rintro rfl
    exact W.forest.not_mem_path_parent t (hb t rfl)
  have hseg := W.forest.segment_cons (W.forest.above_step hb) hne
  have hlen := (W.forest.segment_length_le (some t) b).trans (W.nest t)
  rw [hseg, List.length_cons] at hlen
  rw [Chart.pathUp, call_empty, W.pathLoop_eq stop b hstop _ _ _ _ hb (by omega) rfl, hseg]
  rfl

omit [DecidableEq S] in
/-- Walking up, the engine asks the states of the ascent in turn. A transfer leaves the target in
the scratch slot. -/
theorem walkUp_eq (e : ε) (q : StateFn S) (n : ℕ) (h : Hsm S ε X)
    (hn : (W.forest.path q).length < n) (ht : h.temp = q) {asked : List S}
    {a : Option (S × Reply S X)} {x : X} (ha : W.ascent e (W.forest.path q) h.ext = (asked, a, x)) :
    x = W.effects h.ext (asked.map (fun s => (s, .user e))) ∧
    ∃ r, W.walkUp e n h = some (a.map Prod.fst, (a.map (·.2.status)).getD .ignored,
        W.after h (asked.map (fun s => (s, .user e))) r) ∧
      ∀ p, a = some p → W.forest.Above (some p.1) q ∧ r = p.2.temp.getD r := by
  induction q using W.forest.induct generalizing n h asked with
  | root =>
    cases n with
    | zero => simp at hn
    | succ n =>
      simp only [Forest.path_none, ascent, Prod.mk.injEq] at ha
      obtain ⟨rfl, rfl, rfl⟩ := ha
      refine ⟨rfl, none, ?_, by simp⟩
      simp only [Chart.walkUp, ht, call_top]
      simp [after, effects, ← ht]
  | node s ih =>
    cases n with
    | zero => simp at hn
    | succ n =>
      rw [W.forest.path_some, List.length_cons] at hn
      rw [W.forest.path_some] at ha
      simp only [ascent] at ha
      have hcall : W.call h (some s) (.user e) = ((W.handler s (.user e) h.ext).status,
          W.after h [(s, .user e)] ((W.handler s (.user e) h.ext).temp.getD h.temp)) := rfl
      by_cases hup : (W.handler s (.user e) h.ext).status = .toSuper ∨
          (W.handler s (.user e) h.ext).status = .unhandled
      · rw [if_pos hup] at ha
        obtain ⟨rfl, htail⟩ := Prod.mk.inj ha
        have hstep : W.walkUp e (n + 1) h =
            W.walkUp e n (W.after h [(s, .user e)] (W.forest.parent s)) := by
          rcases hup with hr | hr
          · have hp := W.super_parent s (.user e) h.ext hr
            simp only [Chart.walkUp, ht, hcall, hr, hp, Option.getD_some]
          · simp only [Chart.walkUp, ht, hcall, hr, call_empty]
            rfl
        obtain ⟨hx, r, hw, hr⟩ := ih n (W.after h [(s, .user e)] (W.forest.parent s)) (by omega)
          rfl (Prod.ext rfl htail)
        rw [after_after] at hw
        refine ⟨hx, r, hstep.trans hw, ?_⟩
        intro p hp
        exact ⟨W.forest.above_step (hr p hp).1, (hr p hp).2⟩
      · rw [if_neg hup] at ha
        obtain ⟨rfl, htail⟩ := Prod.mk.inj ha
        obtain ⟨rfl, rfl⟩ := Prod.mk.inj htail
        refine ⟨rfl, (W.handler s (.user e) h.ext).temp.getD h.temp, ?_, ?_⟩
        · push Not at hup
          simp only [Chart.walkUp, ht, hcall]
          cases hst : (W.handler s (.user e) h.ext).status <;> simp_all
        · rintro p ⟨⟩
          refine ⟨W.forest.above_refl _, ?_⟩
          cases (W.handler s (.user e) h.ext).temp <;> rfl

theorem exitUpTo_eq (b q : StateFn S) (n : ℕ) (h : Hsm S ε X) (hb : W.forest.Above b q)
    (hn : (W.forest.path q).length ≤ n) :
    ∃ r, W.exitUpTo b n q h =
      some (W.after h ((W.forest.segment q b).map (fun s => (s, .exit))) r) := by
  induction q using W.forest.induct generalizing n h with
  | root =>
    have hb' : b = none := by
      cases b with
      | none => rfl
      | some l => exact absurd (hb l rfl) (by simp)
    subst hb'
    exact ⟨h.temp, by rw [W.exitUpTo_self]; simp⟩
  | node s ih =>
    by_cases hs : b = some s
    · subst hs
      exact ⟨h.temp, by rw [W.exitUpTo_self, W.forest.segment_self]; simp⟩
    · rw [W.forest.path_some, List.length_cons] at hn
      cases n with
      | zero => omega
      | succ n =>
        obtain ⟨r, hr⟩ := ih n (W.after h [(s, .exit)] (W.forest.parent s))
          (W.forest.above_parent hb hs) (by omega)
        refine ⟨r, ?_⟩
        rw [Chart.exitUpTo, if_neg (fun he => hs he.symm), exitState_eq]
        dsimp only
        rw [after_temp, hr, after_after, W.forest.segment_cons hb hs]
        rfl

/-- Searching for the common ancestor, the engine exits the states below it on the source's side;
the index it finds cuts the target's lineage at it. -/
theorem exitToLca_eq (t : S) (q : StateFn S) (n : ℕ) (h : Hsm S ε X)
    (hn : (W.forest.path q).length ≤ n) :
    ∃ i r, W.exitToLca ((W.forest.path (some t)).map some) n q h = some (i, W.after h
        ((W.forest.segment q (W.forest.lca q (some t))).map (fun s => (s, .exit))) r) ∧
      ((W.forest.path (some t)).map some).take i =
        (W.forest.segment (some t) (W.forest.lca q (some t))).map some := by
  induction q using W.forest.induct generalizing n h with
  | root =>
    refine ⟨((W.forest.path (some t)).map some).length, h.temp, ?_, ?_⟩
    · rw [W.exitToLca_top, W.forest.segment_root, List.map_nil, after_nil]
    · rw [W.forest.path_eq_segment_append (W.forest.lca_above_right none (some t))]
      simp [Forest.lca]
  | node s ih =>
    by_cases hs : s ∈ W.forest.path (some t)
    · have habove : W.forest.Above (some s) (some t) := by
        rintro l ⟨⟩
        exact hs
      have hpath := W.forest.path_eq_segment_append habove
      have hidx : ((W.forest.path (some t)).map some).findIdx? (· = some s) =
          some (W.forest.segment (some t) (some s)).length := by
        rw [hpath, List.map_append, List.findIdx?_append, List.findIdx?_eq_none_iff.mpr]
        · rw [W.forest.path_some s, List.map_cons, List.findIdx?_cons]
          simp
        · intro x hx
          obtain ⟨y, hy, rfl⟩ := List.mem_map.mp hx
          have hne : y ≠ s := by
            rintro rfl
            exact W.forest.not_mem_path_parent y ((W.forest.mem_segment.mp hy).2 y rfl)
          simpa using hne
      rw [W.forest.lca_of_mem hs]
      refine ⟨(W.forest.segment (some t) (some s)).length, h.temp, ?_, ?_⟩
      · rw [W.exitToLca_found hidx, W.forest.segment_self, List.map_nil, after_nil]
      · rw [hpath, List.map_append, List.take_left' (by simp)]
    · have hnone : ((W.forest.path (some t)).map some).findIdx? (· = some s) = none := by
        rw [List.findIdx?_eq_none_iff]
        intro x hx
        obtain ⟨y, hy, rfl⟩ := List.mem_map.mp hx
        have hne : y ≠ s := fun he => hs (he ▸ hy)
        simpa using hne
      rw [W.forest.path_some, List.length_cons] at hn
      cases n with
      | zero => omega
      | succ n =>
        obtain ⟨i, r, hr, hi⟩ := ih n (W.after h [(s, .exit)] (W.forest.parent s)) (by omega)
        have hab := W.forest.lca_above_left (some s) (some t)
        have hne : W.forest.lca (some s) (some t) ≠ some s := fun he =>
          hs (W.forest.lca_above_right (some s) (some t) s he)
        rw [W.forest.segment_cons hab hne, W.forest.lca_of_not_mem hs]
        refine ⟨i, r, ?_, hi⟩
        rw [Chart.exitToLca, if_neg (by simp), hnone]
        dsimp only
        rw [exitState_eq, after_temp, hr, after_after]
        rfl

/-- The INIT recursion settles, because every drill goes at least one state deeper. -/
theorem drill_eq (n : ℕ) (t : StateFn S) (h : Hsm S ε X)
    (hn : kMaxNest < (W.forest.path t).length + n) :
    ∃ acts leaf r, W.Settles t h.ext acts leaf (W.effects h.ext acts) ∧
      W.drill n t h = some (leaf, W.after h acts r) := by
  induction n generalizing t h with
  | zero =>
    have := W.path_length_le t
    omega
  | succ n ih =>
    cases t with
    | none =>
      refine ⟨[], none, none, .top _, ?_⟩
      simp [Chart.drill, after, effects]
    | some s =>
      have hcall : W.call { h with temp := some s } (some s) .init =
          ((W.handler s .init h.ext).status,
            W.after h [(s, .init)] ((W.handler s .init h.ext).temp.getD (some s))) := rfl
      by_cases hr : (W.handler s .init h.ext).status = .needToTransfer
      · obtain ⟨t, ht, hst⟩ := W.init_reply s h.ext hr
        have habove : W.forest.Above (some s) (W.forest.parent t) := by
          rintro l ⟨⟩
          exact hst
        have hpath := W.forest.path_eq_segment_append (W.forest.above_step habove)
        have hlt : (W.forest.path (some s)).length < (W.forest.path (some t)).length := by
          rw [hpath, W.forest.segment_cons (W.forest.above_step habove)]
          · simp
          · rintro ⟨⟩
            exact W.forest.not_mem_path_parent s hst
        have hup := W.pathUp_eq (fun q => q = some s ∨ q = none) (some s)
          (fun q hq => by
            cases q with
            | none => exact absurd (hq s rfl) (by simp)
            | some y => simp) t
          (W.after h [(s, .init)] ((W.handler s .init h.ext).temp.getD (some s))) habove
        obtain ⟨p, hp⟩ := W.enterAll_eq (W.after h [(s, .init)] (some s))
          (W.forest.segment (some t) (some s)).reverse
        obtain ⟨acts, leaf, r, hsettle, hdrill⟩ := ih (some t)
          (W.after h ((s, .init) :: W.entries (some s) (some t)) p) (by omega)
        refine ⟨(s, .init) :: W.entries (some s) (some t) ++ acts, leaf, r, ?_, ?_⟩
        · rw [after_ext] at hsettle
          have heff : W.effects h.ext ((s, .init) :: W.entries (some s) (some t) ++ acts) =
              W.effects (W.effects h.ext ((s, .init) :: W.entries (some s) (some t))) acts := by
            simp [effects]
          rw [heff]
          exact .step s t h.ext hr ht hsettle
        · rw [Chart.drill, hcall]
          dsimp only
          rw [if_pos hr, after_temp, ht, Option.getD_some]
          rw [ht, Option.getD_some] at hup
          rw [hup]
          dsimp only
          rw [set_temp_after, ← List.map_reverse, hp, after_after]
          rw [show [(s, Event.init)] ++ (W.forest.segment (some t) (some s)).reverse.map
            (fun s => (s, Event.entry)) = (s, .init) :: W.entries (some s) (some t) from rfl, hdrill,
            after_after]
      · refine ⟨[(s, .init)], some s, (W.handler s .init h.ext).temp.getD (some s),
          .leaf s h.ext hr, ?_⟩
        rw [Chart.drill, hcall]
        dsimp only
        rw [if_neg hr]

/-- With the implicit root as target, `tpath` holds the root alone and every state up to it is
left. -/
theorem exitToLca_root (q : StateFn S) (n : ℕ) (h : Hsm S ε X) (hn : (W.forest.path q).length ≤ n) :
    ∃ r, W.exitToLca [none] n q h =
      some (1, W.after h ((W.forest.segment q none).map (fun s => (s, .exit))) r) := by
  induction q using W.forest.induct generalizing n h with
  | root => exact ⟨h.temp, by rw [W.exitToLca_top]; simp⟩
  | node s ih =>
    rw [W.forest.path_some, List.length_cons] at hn
    cases n with
    | zero => omega
    | succ n =>
      obtain ⟨r, hr⟩ := ih n (W.after h [(s, .exit)] (W.forest.parent s)) (by omega)
      refine ⟨r, ?_⟩
      rw [Chart.exitToLca, if_neg (by simp), List.findIdx?_eq_none_iff.mpr (by simp)]
      dsimp only
      rw [exitState_eq, after_temp, hr, after_after, W.forest.segment_cons (by simp) (by simp)]
      rfl

theorem cross_eq (s : S) (t : StateFn S) (n : ℕ) (h : Hsm S ε X) (hn : kMaxNest ≤ n) :
    ∃ r, W.cross n (some s) t h = some (W.after h
      ((W.forest.segment (some s) (W.boundary s t)).map (fun x => (x, Event.exit)) ++
        W.entries (W.boundary s t) t) r) := by
  have hlen := (W.nest s).trans hn
  by_cases hst : some s = t
  · subst hst
    have hseg : W.forest.segment (some s) (W.forest.parent s) = [s] := by
      rw [W.forest.segment_cons (W.forest.above_step (W.forest.above_refl _)),
        W.forest.segment_self]
      intro he
      exact W.forest.not_mem_path_parent s (by rw [he]; exact W.forest.mem_path_self s)
    have hexit : (W.call h (some s) .exit).2 =
        W.after h [(s, .exit)] ((W.handler s .exit h.ext).temp.getD h.temp) := rfl
    obtain ⟨r, hr⟩ := W.call_entry (W.call h (some s) .exit).2 s
    refine ⟨r, ?_⟩
    rw [Chart.cross, if_pos rfl, hr, hexit, after_after, boundary, if_pos rfl, entries, hseg]
    rfl
  · have hb : W.boundary s t = W.forest.lca (some s) t := by
      rw [boundary, if_neg (fun he => hst he.symm)]
    rw [Chart.cross, if_neg hst, hb]
    cases t with
    | none =>
      obtain ⟨r, hr⟩ := W.exitToLca_root (some s) n h hlen
      have hl : W.forest.lca (some s) none = none := by simp [Forest.lca]
      refine ⟨r, ?_⟩
      rw [collectLineage_top]
      dsimp only
      rw [hr, hl]
      simp [Chart.enterAll, entries]
    | some t =>
      obtain ⟨i, r, hr, hi⟩ := W.exitToLca_eq t (some s) n h hlen
      obtain ⟨p, hp⟩ := W.enterAll_eq (W.after h
        ((W.forest.segment (some s) (W.forest.lca (some s) (some t))).map (fun x => (x, .exit))) r)
        (W.forest.segment (some t) (W.forest.lca (some s) (some t))).reverse
      refine ⟨p, ?_⟩
      rw [collectLineage_eq]
      dsimp only
      rw [hr]
      dsimp only [Option.bind_eq_bind, Option.bind_some]
      rw [hi, ← List.map_reverse, hp, after_after]
      rfl

theorem transfer_eq (s : S) (n : ℕ) (h : Hsm S ε X) (hs : W.forest.Above (some s) h.state)
    (hn : kMaxNest < n) :
    ∃ acts leaf, W.Settles h.temp (W.effects h.ext
        (W.exits h.state s h.temp ++ W.entries (W.boundary s h.temp) h.temp)) acts leaf
        (W.effects h.ext
          (W.exits h.state s h.temp ++ W.entries (W.boundary s h.temp) h.temp ++ acts)) ∧
      W.transfer n (some s) h = some { W.after h
        (W.exits h.state s h.temp ++ W.entries (W.boundary s h.temp) h.temp ++ acts) leaf with
        state := leaf } := by
  have hpath := W.path_length_le h.state
  obtain ⟨r₁, h₁⟩ := W.exitUpTo_eq (some s) h.state n h hs (by omega)
  obtain ⟨r₂, h₂⟩ := W.cross_eq s h.temp n
    (W.after h ((W.forest.segment h.state (some s)).map (fun s => (s, .exit))) r₁) (by omega)
  have hexits : (W.forest.segment h.state (some s)).map (fun s => (s, (.exit : Event ε))) ++
      (W.forest.segment (some s) (W.boundary s h.temp)).map (fun s => (s, .exit)) =
      W.exits h.state s h.temp := by
    rw [exits, W.forest.segment_append (W.boundary_above s h.temp) hs, List.map_append]
  rw [after_after, ← List.append_assoc, hexits] at h₂
  obtain ⟨acts, leaf, r₃, hset, h₃⟩ := W.drill_eq n h.temp
    (W.after h (W.exits h.state s h.temp ++ W.entries (W.boundary s h.temp) h.temp) r₂) (by omega)
  refine ⟨acts, leaf, ?_, ?_⟩
  · rw [W.effects_append h.ext _ acts]
    exact hset
  · rw [Chart.transfer, h₁]
    dsimp only [Option.bind_eq_bind, Option.bind_some]
    rw [h₂]
    dsimp only [Option.bind_some]
    rw [h₃, after_after]
    rfl

theorem dispatch_dispatches (h : Hsm S ε X) (e : ε) (n : ℕ) (hn : kMaxNest < n) :
    ∃ acts leaf ignored, W.Dispatches e h.state h.ext acts leaf (W.effects h.ext acts) ∧
      W.dispatch n e h = some ⟨leaf, leaf, ignored, W.effects h.ext acts, h.log ++ acts⟩ := by
  have hpath := W.path_length_le h.state
  obtain ⟨⟨asked, a, x⟩, ha⟩ : ∃ p, W.ascent e (W.forest.path h.state) h.ext = p := ⟨_, rfl⟩
  obtain ⟨rfl, r, hw, hr⟩ := W.walkUp_eq e h.state n
    { h with lastIgnored := false, temp := h.state } (by omega) rfl ha
  cases a with
  | none =>
    refine ⟨_, h.state, true, .stay ha (by simp), ?_⟩
    rw [Chart.dispatch, hw]
    rfl
  | some p =>
    obtain ⟨s, rep⟩ := p
    obtain ⟨habove, htemp⟩ := hr _ rfl
    by_cases hst : rep.status = .needToTransfer
    · obtain ⟨acts, leaf, hset, htr⟩ := W.transfer_eq s n (W.after
        { h with lastIgnored := false, temp := h.state } (asked.map (fun s => (s, .user e))) r)
        habove hn
      obtain ⟨t, ht⟩ := Option.ne_none_iff_exists'.mp (W.ascent_transfer ha hst)
      obtain rfl : r = t := by rw [htemp, ht]; rfl
      refine ⟨asked.map (fun s => (s, .user e)) ++ (W.exits h.state s r ++
        W.entries (W.boundary s r) r) ++ acts, leaf, false, .move ha hst ht ?_, ?_⟩
      · rw [List.append_assoc, W.effects_append h.ext]
        exact hset
      · rw [Chart.dispatch, hw]
        dsimp only [Option.bind_eq_bind, Option.bind_some, Option.map_some, Option.getD_some]
        rw [if_pos hst, htr, after_after, ← List.append_assoc]
        rfl
    · refine ⟨_, h.state, rep.status = .ignored, .stay ha (by rintro p ⟨⟩; exact hst), ?_⟩
      rw [Chart.dispatch, hw]
      dsimp only [Option.bind_eq_bind, Option.bind_some, Option.map_some, Option.getD_some]
      rw [if_neg hst]
      rfl

/-- On every well-formed chart, in every state and for every event `Hsm::dispatch` returns, and the
actions it performs, the state it settles on and the data it leaves are exactly those of the
least-common-ancestor dispatch. -/
theorem dispatch_exact (h : Hsm S ε X) (e : ε) (k : ℕ) :
    ∃ h', W.dispatch (kMaxNest + 1 + k) e h = some h' ∧
      ∀ acts leaf x, W.Dispatches e h.state h.ext acts leaf x ↔
        h'.log = h.log ++ acts ∧ h'.state = leaf ∧ h'.ext = x := by
  obtain ⟨acts, leaf, ignored, hd, hrun⟩ := W.dispatch_dispatches h e (kMaxNest + 1 + k) (by omega)
  refine ⟨_, hrun, ?_⟩
  intro acts' leaf' x'
  constructor
  · intro hd'
    obtain ⟨rfl, rfl, rfl⟩ := W.dispatches_unique hd hd'
    exact ⟨rfl, rfl, rfl⟩
  · rintro ⟨hlog, rfl, rfl⟩
    rw [← List.append_cancel_left hlog]
    exact hd

end TelafSim.WellFormedChart
