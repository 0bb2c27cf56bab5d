import TelafSim.NetVlan

/-!
# VLAN bindings of the PA

The documents that `VlanManager.cpp` and the VLAN tables of the modem exchange for bindings:
`bindConfigToJson` on the way in, `VlanBinding.to_wire` and `jsonToBindConfig` on the way out. Slot
and profile travel for WWAN only, and the id of a VLAN that is itself the backhaul only if it is
set.

The tables know a binding by its id and backhaul. Unbinding looks at nothing else in the document,
so it may take a binding of another slot or profile. A request that fails its schema is dropped, and
the PA reports a timeout: so is a query for a negative slot, which the PA sends all the same. `bound`
is recorded for the statements only: the configurations that were bound and not since unbound.
-/

namespace TelafSim.Net

def toBackhaul (s : String) : BackhaulType :=
  if s = "USB" then .usb
  else if s = "WLAN" then .wlan
  else if s = "WWAN" then .wwan
  else if s = "BLE" then .ble
  else .eth

@[simp] theorem toBackhaul_fromBackhaul (t : BackhaulType) : toBackhaul (fromBackhaul t) = t := by
  cases t <;> decide

def backhaulOfSchema (s : String) : Option BackhaulType :=
  [BackhaulType.eth, .usb, .wlan, .wwan, .ble].find? (fun t => fromBackhaul t = s)

@[simp] theorem backhaulOfSchema_fromBackhaul (t : BackhaulType) :
    backhaulOfSchema (fromBackhaul t) = some t := by
  cases t <;> decide

/-- A slot is any value of the enumeration's integer type. -/
structure BackhaulInfo where
  backhaul : BackhaulType
  slotId : ℤ
  profileId : ℤ
  vlanId : ℤ
  deriving DecidableEq, Repr

/-- The defaults of the header; the first slot is the default one. -/
def BackhaulInfo.default : BackhaulInfo := ⟨.eth, 1, -1, -1⟩

structure VlanBindConfig where
  vlanId : ℤ
  bhInfo : BackhaulInfo
  deriving DecidableEq, Repr

/-- A JSON object with these keys, some of which may be absent. -/
structure BindDocument where
  vlanId : ℤ
  backhaul : String
  slot : Option ℤ
  profileId : Option ℤ
  bhVlanId : Option ℤ
  deriving DecidableEq, Repr

def bindConfigToJson (cfg : VlanBindConfig) : BindDocument where
  vlanId := cfg.vlanId
  backhaul := fromBackhaul cfg.bhInfo.backhaul
  slot := if cfg.bhInfo.backhaul = .wwan then some cfg.bhInfo.slotId else none
  profileId := if cfg.bhInfo.backhaul = .wwan then some cfg.bhInfo.profileId else none
  bhVlanId := if 0 ≤ cfg.bhInfo.vlanId then some cfg.bhInfo.vlanId else none

def jsonToBindConfig (j : BindDocument) : VlanBindConfig where
  vlanId := j.vlanId
  bhInfo :=
    { backhaul := toBackhaul j.backhaul
      slotId := j.slot.getD BackhaulInfo.default.slotId
      profileId := j.profileId.getD BackhaulInfo.default.profileId
      vlanId := j.bhVlanId.getD BackhaulInfo.default.vlanId }

def VlanBinding.toWire (b : VlanBinding) : BindDocument :=
  ⟨b.vlanId, fromBackhaul b.backhaul, b.slot, b.profileId, b.bhVlanId⟩

namespace BindDocument

/-- The schemas of both requests, and of each binding in the response. -/
def valid (j : BindDocument) : Bool :=
  1 ≤ j.vlanId && j.vlanId ≤ 4094 && (backhaulOfSchema j.backhaul).isSome && j.slot.all (0 ≤ ·)

def bindRequest (j : BindDocument) : Option VlanRequest :=
  if j.valid then (backhaulOfSchema j.backhaul).map (fun backhaul =>
    .bindVlan j.vlanId backhaul j.slot j.profileId j.bhVlanId) else none

def unbindRequest (j : BindDocument) : Option VlanRequest :=
  if j.valid then (backhaulOfSchema j.backhaul).map (fun backhaul =>
    .unbindVlan j.vlanId backhaul) else none

end BindDocument

structure QueryDocument where
  backhaul : Option String
  slot : Option ℤ
  deriving DecidableEq, Repr

namespace QueryDocument

def unfiltered : QueryDocument := ⟨none, none⟩

/-- The PA sends the slot in every query. -/
def ofQuery (backhaul : Option BackhaulType) (slotId : ℤ) : QueryDocument :=
  ⟨backhaul.map fromBackhaul, some slotId⟩

def valid (j : QueryDocument) : Bool :=
  j.backhaul.all (fun s => (backhaulOfSchema s).isSome) && j.slot.all (0 ≤ ·)

end QueryDocument

namespace VlanBindConfig

/-- The fields that count, with the others at their defaults: slot and profile are for WWAN, and a
negative id is no VLAN. -/
def relevant (cfg : VlanBindConfig) : VlanBindConfig where
  vlanId := cfg.vlanId
  bhInfo :=
    { backhaul := cfg.bhInfo.backhaul
      slotId := if cfg.bhInfo.backhaul = .wwan then cfg.bhInfo.slotId else 1
      profileId := if cfg.bhInfo.backhaul = .wwan then cfg.bhInfo.profileId else -1
      vlanId := if 0 ≤ cfg.bhInfo.vlanId then cfg.bhInfo.vlanId else -1 }

def key (cfg : VlanBindConfig) : ℤ × BackhaulType := (cfg.vlanId, cfg.bhInfo.backhaul)

end VlanBindConfig

structure BindingTables where
  store : VlanStore
  bound : List VlanBindConfig

/-- The calls of the PA; a document that fails its schema is dropped. -/
inductive BindCall
  | bindToBackhaul (cfg : VlanBindConfig)
  | unbindFromBackhaul (cfg : VlanBindConfig)
  deriving DecidableEq, Repr

namespace BindingTables

def initial (vlans : Dict (ℤ × InterfaceType) VlanEntry) : BindingTables := ⟨⟨vlans, .empty⟩, []⟩

def exchange (q : Option VlanRequest) (done : List VlanBindConfig) (t : BindingTables) :
    BindingTables :=
  match q with
  | none => t
  | some q =>
    if (t.store.handle q).2.isError then { t with store := (t.store.handle q).1 }
    else ⟨(t.store.handle q).1, done⟩

def step (t : BindingTables) : BindCall → Option BindingTables
  | .bindToBackhaul cfg =>
    some (t.exchange (bindConfigToJson cfg).bindRequest (t.bound ++ [cfg]))
  | .unbindFromBackhaul cfg =>
    some (t.exchange (bindConfigToJson cfg).unbindRequest
      (t.bound.filter (fun c => c.relevant ≠ cfg.relevant)))

/-- The response to a query. A request that fails its schema is dropped, and the handler raises if
the response fails its own. -/
def queryRsp (j : QueryDocument) (t : BindingTables) : Option (List BindDocument) :=
  if j.valid then
    let bindings := t.store.queryVlanBindings (j.backhaul.bind backhaulOfSchema) j.slot
    let docs := bindings.map VlanBinding.toWire
    if docs.all BindDocument.valid then some docs else none
  else none

/-- What the PA decodes from it; without a response it has an error. -/
def queried (j : QueryDocument) (t : BindingTables) : Option (List VlanBindConfig) :=
  (t.queryRsp j).map (fun docs => docs.map jsonToBindConfig)

/-- The PA reads back what it has bound, each configuration once, and the query that is filtered by
the backhaul and the slot is the part of it that they name. -/
structure Faithful (backhaul : BackhaulType) (slot : ℤ) (t : BindingTables) : Prop where
  roundTrip : t.queried .unfiltered = some (t.bound.map VlanBindConfig.relevant)
  once : (t.bound.map VlanBindConfig.relevant).Nodup
  filtered : t.queried (.ofQuery (some backhaul) slot) =
    some ((t.bound.map VlanBindConfig.relevant).filter (fun c =>
      c.bhInfo.backhaul = backhaul ∧ (backhaul = .wwan → c.bhInfo.slotId = slot)))

/-- An unbind that gets through its schema names the configuration that is bound under its id and
backhaul, if there is one. -/
def heeds (t : BindingTables) : BindCall → Prop
  | .bindToBackhaul _ => True
  | .unbindFromBackhaul cfg => (bindConfigToJson cfg).valid = true →
    ∀ c ∈ t.bound, c.key = cfg.key → c.relevant = cfg.relevant

end BindingTables

/-! ### Documents -/

section Documents

variable {cfg c : VlanBindConfig}

def VlanBindConfig.binding (cfg : VlanBindConfig) : VlanBinding :=
  ⟨cfg.vlanId, cfg.bhInfo.backhaul,
    if cfg.bhInfo.backhaul = .wwan then some cfg.bhInfo.slotId else none,
    if cfg.bhInfo.backhaul = .wwan then some cfg.bhInfo.profileId else none,
    if 0 ≤ cfg.bhInfo.vlanId then some cfg.bhInfo.vlanId else none⟩

theorem jsonToBindConfig_bindConfigToJson (cfg : VlanBindConfig) :
    jsonToBindConfig (bindConfigToJson cfg) = cfg.relevant := by
  unfold jsonToBindConfig bindConfigToJson VlanBindConfig.relevant
  simp only [toBackhaul_fromBackhaul, BackhaulInfo.default]
  by_cases hwwan : cfg.bhInfo.backhaul = .wwan <;> by_cases hset : 0 ≤ cfg.bhInfo.vlanId <;>
    simp [hwwan, hset]

theorem key_relevant (cfg : VlanBindConfig) : cfg.relevant.key = cfg.key := rfl

theorem key_eq_of_relevant (h : c.relevant = cfg.relevant) : c.key = cfg.key := by
  rw [← key_relevant c, h, key_relevant]

theorem bindRequest_eq (h : (bindConfigToJson cfg).valid = true) :
    (bindConfigToJson cfg).bindRequest = some (.bindVlan cfg.vlanId cfg.bhInfo.backhaul
      cfg.binding.slot cfg.binding.profileId cfg.binding.bhVlanId) := by
  rw [BindDocument.bindRequest, if_pos h]
  simp [bindConfigToJson, VlanBindConfig.binding]

theorem unbindRequest_eq (h : (bindConfigToJson cfg).valid = true) :
    (bindConfigToJson cfg).unbindRequest = some (.unbindVlan cfg.vlanId cfg.bhInfo.backhaul) := by
  rw [BindDocument.unbindRequest, if_pos h]
  simp [bindConfigToJson]

end Documents

namespace BindingTables

variable {t t' : BindingTables} {cfg : VlanBindConfig} {backhaul : BackhaulType} {slot : ℤ}

/-- The table holds what the PA has bound, in its order. -/
structure Mirrors (t : BindingTables) : Prop where
  entries : t.store.bindings.entries = t.bound.map (fun c => (c.key, c.binding))
  valid : ∀ c ∈ t.bound, (bindConfigToJson c).valid = true

theorem mirrors_initial (vlans : Dict (ℤ × InterfaceType) VlanEntry) : (initial vlans).Mirrors :=
  ⟨rfl, fun _ hc => absurd hc List.not_mem_nil⟩

theorem Mirrors.keys_eq (h : t.Mirrors) :
    t.store.bindings.keys = t.bound.map VlanBindConfig.key := by
  rw [Dict.keys, h.entries, List.map_map]
  rfl

theorem Mirrors.nodup (h : t.Mirrors) : (t.bound.map VlanBindConfig.key).Nodup :=
  h.keys_eq ▸ t.store.bindings.nodup_keys

def listed (backhaul : Option BackhaulType) (slot : Option ℤ) (c : VlanBindConfig) : Bool :=
  backhaul.all (c.bhInfo.backhaul = ·) &&
    slot.all (fun n => c.binding.slot = none ∨ c.binding.slot = some n)

theorem Mirrors.queried_eq (h : t.Mirrors) {j : QueryDocument} (hj : j.valid = true) :
    t.queried j = some ((t.bound.filter (listed (j.backhaul.bind backhaulOfSchema) j.slot)).map
      VlanBindConfig.relevant) := by
  generalize hfilter : j.backhaul.bind backhaulOfSchema = backhaul
  generalize hslot : j.slot = slot
  have hvalues : t.store.bindings.values = t.bound.map VlanBindConfig.binding := by
    rw [Dict.values, h.entries, List.map_map]
    rfl
  have hdocs : (t.store.queryVlanBindings backhaul slot).map VlanBinding.toWire =
      (t.bound.filter (listed backhaul slot)).map bindConfigToJson := by
    rw [VlanStore.queryVlanBindings, hvalues, List.filter_filter, List.filter_map, List.map_map]
    congr 1
    refine List.filter_congr ?_
    intro c _
    exact Bool.and_comm _ _
  have hvalid : ((t.bound.filter (listed backhaul slot)).map bindConfigToJson).all
      BindDocument.valid = true := by
    rw [List.all_map, List.all_eq_true]
    intro c hc
    exact h.valid c (List.mem_of_mem_filter hc)
  simp only [queried, queryRsp, hj, hfilter, hslot, hdocs, hvalid, if_true, Option.map_some,
    List.map_map]
  congr 2
  funext c
  exact jsonToBindConfig_bindConfigToJson c

/-- The schema lets the PA's query through if and only if the slot is not negative. -/
theorem valid_ofQuery (backhaul : BackhaulType) (slot : ℤ) :
    (QueryDocument.ofQuery (some backhaul) slot).valid = true ↔ 0 ≤ slot := by
  simp [QueryDocument.valid, QueryDocument.ofQuery]

theorem Faithful.nonneg (h : t.Faithful backhaul slot) : 0 ≤ slot := by
  rw [← valid_ofQuery backhaul]
  by_contra hinvalid
  have hnone : t.queried (.ofQuery (some backhaul) slot) = none := by
    rw [queried, queryRsp, if_neg hinvalid, Option.map_none]
  have hfiltered := h.filtered
  rw [hnone] at hfiltered
  cases hfiltered

theorem Mirrors.faithful (h : t.Mirrors) (hslot : 0 ≤ slot) : t.Faithful backhaul slot := by
  refine ⟨?_, ?_, ?_⟩
  · rw [h.queried_eq rfl]
    have hall : t.bound.filter (listed none none) = t.bound :=
      List.filter_eq_self.mpr (fun _ _ => rfl)
    exact congrArg (fun l => some (l.map VlanBindConfig.relevant)) hall
  · refine List.Nodup.of_map VlanBindConfig.key ?_
    rw [List.map_map]
    exact h.nodup
  · rw [h.queried_eq ((valid_ofQuery backhaul slot).mpr hslot), List.filter_map]
    simp only [QueryDocument.ofQuery, Option.map_some, Option.bind_some,
      backhaulOfSchema_fromBackhaul]
    congr 2
    refine List.filter_congr ?_
    intro c _
    by_cases hb : c.bhInfo.backhaul = backhaul
    · subst hb
      by_cases hwwan : c.bhInfo.backhaul = .wwan <;>
        simp [listed, VlanBindConfig.binding, VlanBindConfig.relevant, hwwan]
    · simp [listed, VlanBindConfig.relevant, hb]

theorem step_of_invalid (h : (bindConfigToJson cfg).valid = false) :
    t.step (.bindToBackhaul cfg) = some t ∧ t.step (.unbindFromBackhaul cfg) = some t := by
  simp [step, exchange, BindDocument.bindRequest, BindDocument.unbindRequest, h]

theorem handle_bind (s : VlanStore) (cfg : VlanBindConfig) :
    (∃ code detail, s.handle (.bindVlan cfg.vlanId cfg.bhInfo.backhaul cfg.binding.slot
      cfg.binding.profileId cfg.binding.bhVlanId) = (s, .error code detail)) ∨
    (cfg.key ∉ s.bindings.keys ∧ s.handle (.bindVlan cfg.vlanId cfg.bhInfo.backhaul
      cfg.binding.slot cfg.binding.profileId cfg.binding.bhVlanId) =
        (s.addBinding cfg.binding, .done)) := by
  simp only [VlanStore.handle, VlanStore.handleBindVlan]
  by_cases hlive : s.hasVlanId cfg.vlanId = false
  · rw [if_pos hlive]
    exact .inl ⟨_, _, rfl⟩
  · rw [if_neg hlive]
    by_cases hold : (s.bindings.get (cfg.vlanId, cfg.bhInfo.backhaul)).isSome = true
    · rw [if_pos hold]
      exact .inl ⟨_, _, rfl⟩
    · rw [if_neg hold]
      refine .inr ⟨Dict.get_eq_none_iff.mp (by simpa [VlanBindConfig.key] using hold), ?_⟩
      by_cases hwwan : cfg.bhInfo.backhaul = .wwan <;> simp [VlanBindConfig.binding, hwwan]

theorem handle_unbind (s : VlanStore) (cfg : VlanBindConfig) :
    (cfg.key ∉ s.bindings.keys ∧ ∃ code detail,
      s.handle (.unbindVlan cfg.vlanId cfg.bhInfo.backhaul) = (s, .error code detail)) ∨
    (cfg.key ∈ s.bindings.keys ∧ s.handle (.unbindVlan cfg.vlanId cfg.bhInfo.backhaul) =
      (s.removeBinding cfg.vlanId cfg.bhInfo.backhaul, .done)) := by
  simp only [VlanStore.handle, VlanStore.handleUnbindVlan]
  by_cases hold : (s.bindings.get (cfg.vlanId, cfg.bhInfo.backhaul)).isSome = true
  · rw [if_pos hold]
    exact .inr ⟨Dict.mem_keys_iff.mpr (Option.isSome_iff_exists.mp hold), rfl⟩
  · rw [if_neg hold]
    exact .inl ⟨Dict.get_eq_none_iff.mp (by simpa [VlanBindConfig.key] using hold), _, _, rfl⟩

theorem exchange_done {q : VlanRequest} {done : List VlanBindConfig} {s : VlanStore}
    (h : t.store.handle q = (s, .done)) : t.exchange (some q) done = ⟨s, done⟩ := by
  simp [exchange, h, VlanRsp.isError]

theorem exchange_error {q : VlanRequest} {done : List VlanBindConfig} {code : ErrorCode}
    {detail : String} (h : t.store.handle q = (t.store, .error code detail)) :
    t.exchange (some q) done = t := by
  simp [exchange, h, VlanRsp.isError]

theorem Mirrors.bind (h : t.Mirrors) (hstep : t.step (.bindToBackhaul cfg) = some t') :
    t'.Mirrors := by
  cases hvalid : (bindConfigToJson cfg).valid with
  | false =>
    obtain rfl := Option.some.inj ((step_of_invalid hvalid).1.symm.trans hstep)
    exact h
  | true =>
    obtain rfl := Option.some.inj hstep
    rw [bindRequest_eq hvalid]
    rcases handle_bind t.store cfg with ⟨code, detail, heq⟩ | ⟨hnew, heq⟩
    · rw [exchange_error heq]
      exact h
    · rw [exchange_done heq]
      constructor
      · change (t.store.bindings.set cfg.key cfg.binding).entries = _
        rw [Dict.entries_set_of_new hnew, h.entries, List.map_append]
        rfl
      · intro c hc
        rcases List.mem_append.mp hc with hc | hc
        · exact h.valid c hc
        · rw [List.mem_singleton.mp hc]
          exact hvalid

theorem Mirrors.entries_pop (h : t.Mirrors) (k : ℤ × BackhaulType) :
    (t.store.bindings.pop k).entries =
      (t.bound.filter (fun c => c.key ≠ k)).map (fun c => (c.key, c.binding)) := by
  change t.store.bindings.entries.filter _ = _
  rw [h.entries, List.filter_map]
  rfl

theorem Mirrors.unbind (h : t.Mirrors) (hheeds : t.heeds (.unbindFromBackhaul cfg))
    (hstep : t.step (.unbindFromBackhaul cfg) = some t') : t'.Mirrors := by
  cases hvalid : (bindConfigToJson cfg).valid with
  | false =>
    obtain rfl := Option.some.inj ((step_of_invalid hvalid).2.symm.trans hstep)
    exact h
  | true =>
    obtain rfl := Option.some.inj hstep
    rw [unbindRequest_eq hvalid]
    rcases handle_unbind t.store cfg with ⟨-, code, detail, heq⟩ | ⟨-, heq⟩
    · rw [exchange_error heq]
      exact h
    · rw [exchange_done heq]
      have hsame : t.bound.filter (fun c => c.key ≠ cfg.key) =
          t.bound.filter (fun c => c.relevant ≠ cfg.relevant) := by
        refine List.filter_congr ?_
        intro c hc
        have hiff : c.key = cfg.key ↔ c.relevant = cfg.relevant :=
          ⟨hheeds hvalid c hc, key_eq_of_relevant⟩
        simp [hiff]
      constructor
      · exact (h.entries_pop cfg.key).trans (congrArg _ hsame)
      · intro c hc
        exact h.valid c (List.mem_of_mem_filter hc)

/-- An unbind that names another configuration takes the binding all the same. -/
theorem Mirrors.not_faithful (h : t.Mirrors) (hnot : ¬ t.heeds (.unbindFromBackhaul cfg))
    (hstep : t.step (.unbindFromBackhaul cfg) = some t') : ¬ t'.Faithful backhaul slot := by
  simp only [heeds, not_forall] at hnot
  obtain ⟨hvalid, c, hc, hkey, hne⟩ := hnot
  have hmem : cfg.key ∈ t.store.bindings.keys := by
    rw [h.keys_eq, ← hkey]
    exact List.mem_map_of_mem hc
  obtain rfl := Option.some.inj hstep
  rw [unbindRequest_eq hvalid]
  rcases handle_unbind t.store cfg with ⟨hnew, -⟩ | ⟨-, heq⟩
  · exact absurd hmem hnew
  rw [exchange_done heq]
  intro hfaithful
  -- the table holds what is left without the key
  have hleft : Mirrors ⟨t.store.removeBinding cfg.vlanId cfg.bhInfo.backhaul,
      t.bound.filter (fun c => c.key ≠ cfg.key)⟩ :=
    ⟨h.entries_pop cfg.key, fun c hc => h.valid c (List.mem_of_mem_filter hc)⟩
  have hread := (hleft.faithful hfaithful.nonneg : Faithful backhaul slot _).roundTrip
  have hsame := Option.some.inj (hfaithful.roundTrip.symm.trans hread)
  have hstill : c.relevant ∈ (t.bound.filter (fun c => c.relevant ≠ cfg.relevant)).map
      VlanBindConfig.relevant :=
    List.mem_map_of_mem (List.mem_filter.mpr ⟨hc, by simpa using hne⟩)
  rw [hsame] at hstill
  obtain ⟨d, hd, heq⟩ := List.mem_map.mp hstill
  have hother := (List.mem_filter.mp hd).2
  rw [key_eq_of_relevant heq, hkey] at hother
  simp at hother

/-- The PA reads back what it has bound, also by backhaul and slot, in every state of a run if and
only if the slot is not negative and every unbind names the configuration that is bound. -/
theorem bindings_faithful_iff (vlans : Dict (ℤ × InterfaceType) VlanEntry) (l : List BindCall)
    (backhaul : BackhaulType) (slot : ℤ) :
    Trace.Always step (Faithful backhaul slot) (initial vlans) l ↔
      0 ≤ slot ∧ Trace.AllSteps step heeds (initial vlans) l := by
  obtain ⟨t, hrun⟩ := Trace.run_isSome_of_total
    (fun t c => by cases c <;> rfl : ∀ t c, (step t c).isSome) (initial vlans) l
  have hnonneg : Trace.Always step (Faithful backhaul slot) (initial vlans) l → 0 ≤ slot :=
    fun h => (h.run hrun).nonneg
  rw [← and_iff_right_of_imp hnonneg]
  refine and_congr_right ?_
  intro hslot
  refine Trace.always_iff_allSteps_of_fails (fun t h => h.faithful hslot) ?_ ?_ hrun
    (mirrors_initial vlans)
  · intro t c t' h hheeds hstep
    cases c with
    | bindToBackhaul cfg => exact h.bind hstep
    | unbindFromBackhaul cfg => exact h.unbind hheeds hstep
  · intro t c t' h hnot hstep
    cases c with
    | bindToBackhaul cfg => exact absurd trivial hnot
    | unbindFromBackhaul cfg => exact h.not_faithful hnot hstep

def vlanFive : Dict (ℤ × InterfaceType) VlanEntry :=
  Dict.ofList [((5, .eth), ⟨5, .eth, false, 0, .lan, true⟩)]

def onProfile (profileId : ℤ) : VlanBindConfig := ⟨5, .wwan, 1, profileId, -1⟩

/-- Bound on profile 1 and unbound from profile 2: the binding is gone. -/
theorem unbound_from_other_profile :
    ∃ t, Trace.run step (initial vlanFive)
      [.bindToBackhaul (onProfile 1), .unbindFromBackhaul (onProfile 2)] = some t ∧
      t.bound = [onProfile 1] ∧ t.queried .unfiltered = some [] ∧
      ∀ backhaul slot, ¬ t.Faithful backhaul slot := by
  have hrun : (Trace.run step (initial vlanFive)
      [.bindToBackhaul (onProfile 1), .unbindFromBackhaul (onProfile 2)]).map
        (fun t => (t.bound, t.queried .unfiltered)) = some ([onProfile 1], some []) := by
    decide +kernel
  obtain ⟨t, hrun, heq⟩ := Option.map_eq_some_iff.mp hrun
  obtain ⟨hbound, hempty⟩ := Prod.ext_iff.mp heq
  refine ⟨t, hrun, hbound, hempty, ?_⟩
  intro backhaul slot hfaithful
  have hround := hfaithful.roundTrip
  simp only at hbound hempty
  rw [hbound, hempty] at hround
  cases hround

end BindingTables

end TelafSim.Net
