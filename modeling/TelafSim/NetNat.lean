import TelafSim.NetVlan

/-!
# The static NAT entries of the modem

`NatStore` of `sml/mpss/net/nat.py` and the three requests of `NetNatAO` in its Ready state. An
entry keeps the slot and the profile of a request for WWAN, but the table knows it by backhaul,
addresses and protocol alone: two WWAN profiles share one place in the table. A request scoped to
one of them leaves the other alone as long as they do not name the same forward.
-/

namespace TelafSim.Net

structure NatEntry where
  addr : String
  port : ℤ
  globalPort : ℤ
  proto : ℤ
  backhaul : BackhaulType
  slot : Option ℤ
  profileId : Option ℤ
  bhVlanId : Option ℤ
  deriving DecidableEq, Repr

abbrev NatKey := BackhaulType × String × ℤ × ℤ × ℤ

def NatEntry.key (e : NatEntry) : NatKey := (e.backhaul, e.addr, e.port, e.globalPort, e.proto)

/-- A `NatConfig` on the wire. -/
structure NatWire where
  addr : String
  port : ℤ
  globalPort : ℤ
  proto : ℤ
  deriving DecidableEq, Repr

def NatEntry.toWire (e : NatEntry) : NatWire := ⟨e.addr, e.port, e.globalPort, e.proto⟩

/-- The data of `add_nat_entry.req` and `remove_nat_entry.req`. -/
structure NatData where
  backhaul : BackhaulType
  slot : Option ℤ
  profileId : Option ℤ
  bhVlanId : Option ℤ
  addr : String
  port : ℤ
  globalPort : ℤ
  proto : ℤ
  deriving DecidableEq, Repr

/-- `_entry_from`: slot and profile are kept for WWAN only. -/
def NatData.entry (d : NatData) : NatEntry where
  addr := d.addr
  port := d.port
  globalPort := d.globalPort
  proto := d.proto
  backhaul := d.backhaul
  slot := if d.backhaul = .wwan then d.slot else none
  profileId := if d.backhaul = .wwan then d.profileId else none
  bhVlanId := d.bhVlanId

abbrev NatStore := Dict NatKey NatEntry

inductive NatRequest
  | add (d : NatData)
  | remove (d : NatData)
  | request (backhaul : BackhaulType)
  deriving DecidableEq, Repr

inductive NatRsp
  | done
  | entries (entries : List NatWire)
  | error (code : ErrorCode) (detail : String)
  deriving DecidableEq, Repr

namespace NatStore

/-- The entries of the configuration are set one after the other. -/
def seeded (seed : List NatEntry) : NatStore := Dict.ofList (seed.map (fun e => (e.key, e)))

def handleAdd (d : NatData) (s : NatStore) : NatStore × NatRsp :=
  if (s.get d.entry.key).isSome then
    (s, .error .invalidOperation "identical NAT entry already exists")
  else (s.set d.entry.key d.entry, .done)

def handleRemove (d : NatData) (s : NatStore) : NatStore × NatRsp :=
  if (s.get d.entry.key).isSome then (s.pop d.entry.key, .done)
  else (s, .error .invalidArguments "no matching NAT entry")

def forBackhaul (backhaul : BackhaulType) (s : NatStore) : List NatEntry :=
  s.values.filter (fun e => e.backhaul = backhaul)

def handle (s : NatStore) : NatRequest → NatStore × NatRsp
  | .add d => handleAdd d s
  | .remove d => handleRemove d s
  | .request backhaul => (s, .entries ((forBackhaul backhaul s).map NatEntry.toWire))

def step (s : NatStore) (q : NatRequest) : Option NatStore := some (handle s q).1

/-! ### Entries under their keys -/

def Keyed (s : NatStore) : Prop := ∀ k e, s.get k = some e → e.key = k

variable {s s' : NatStore} {d : NatData} {e : NatEntry}

theorem Keyed.set (h : Keyed s) (e : NatEntry) : Keyed (Dict.set e.key e s) := by
  intro k e' hget
  rw [Dict.get_set] at hget
  split_ifs at hget with hk
  · rw [← Option.some.inj hget, hk]
  · exact h k e' hget

theorem Keyed.pop (h : Keyed s) (k : NatKey) : Keyed (Dict.pop k s) := by
  intro j e hget
  rw [Dict.get_pop] at hget
  split_ifs at hget
  exact h j e hget

theorem keyed_seeded (seed : List NatEntry) : Keyed (seeded seed) := by
  unfold seeded
  induction seed using List.reverseRecOn with
  | nil =>
    intro k e hget
    cases hget
  | append_singleton l e ih =>
    rw [List.map_append, List.map_singleton, Dict.ofList_concat]
    exact ih.set e

theorem Keyed.handle (h : Keyed s) (q : NatRequest) : Keyed (NatStore.handle s q).1 := by
  cases q with
  | add d =>
    simp only [NatStore.handle, handleAdd]
    split_ifs
    · exact h
    · exact h.set d.entry
  | remove d =>
    simp only [NatStore.handle, handleRemove]
    split_ifs
    · exact h.pop d.entry.key
    · exact h
  | request backhaul => exact h

theorem keyed_run {seed : List NatEntry} {l : List NatRequest}
    (hrun : Trace.run step (seeded seed) l = some s) : Keyed s := by
  refine Trace.run_invariant (I := Keyed) ?_ hrun (keyed_seeded seed)
  intro s q s' h hstep
  obtain rfl := Option.some.inj hstep
  exact h.handle q

/-- An entry is in the table when it is what its key looks up. -/
theorem Keyed.mem_values (h : Keyed s) : e ∈ s.values ↔ s.get e.key = some e := by
  rw [Dict.mem_values_iff]
  constructor
  · rintro ⟨k, hget⟩
    rw [h k e hget]
    exact hget
  · intro hget
    exact ⟨e.key, hget⟩

/-! ### Requests scoped to one profile -/

/-- The entry is of the slot and the profile that the request names. -/
def Scoped (d : NatData) (e : NatEntry) : Prop :=
  e.backhaul = .wwan ∧ e.slot = d.slot ∧ e.profileId = d.profileId

/-- A WWAN request stays within its slot and profile: what is removed was added for them, an add is
rejected only for an entry that is the same in them, and no other entry comes or goes. -/
structure Isolated (s : NatStore) (d : NatData) : Prop where
  removes : ∀ e ∈ s.values, e ∉ (handleRemove d s).1.values → Scoped d e
  rejects : (handleAdd d s).2 = .error .invalidOperation "identical NAT entry already exists" →
    ∃ e ∈ s.values, e.addr = d.addr ∧ e.port = d.port ∧ e.globalPort = d.globalPort ∧
      e.proto = d.proto ∧ Scoped d e
  unchanged : ∀ e, ¬ Scoped d e → (e ∈ (handleAdd d s).1.values ↔ e ∈ s.values) ∧
    (e ∈ (handleRemove d s).1.values ↔ e ∈ s.values)

/-- No other slot or profile has the forward that the request names. -/
def Unshared (s : NatStore) (d : NatData) : Prop :=
  ∀ e ∈ s.values, e.key = d.entry.key → e.slot = d.slot ∧ e.profileId = d.profileId

instance (s : NatStore) (d : NatData) : Decidable (Unshared s d) :=
  inferInstanceAs (Decidable (∀ e ∈ s.values, e.key = d.entry.key →
    e.slot = d.slot ∧ e.profileId = d.profileId))

theorem scoped_entry (hwwan : d.backhaul = .wwan) : Scoped d d.entry :=
  ⟨hwwan, if_pos hwwan, if_pos hwwan⟩

theorem Keyed.mem_add (h : Keyed s) (hfree : s.get d.entry.key = none) :
    e ∈ (handleAdd d s).1.values ↔ e ∈ s.values ∨ e = d.entry := by
  have heq : (handleAdd d s).1 = Dict.set d.entry.key d.entry s := by
    simp [handleAdd, hfree]
  rw [heq, (h.set d.entry).mem_values, h.mem_values, Dict.get_set]
  split_ifs with hkey
  · rw [hkey, hfree]
    simp [eq_comm]
  · constructor
    · exact .inl
    · rintro (hget | rfl)
      · exact hget
      · exact absurd rfl hkey

theorem Keyed.mem_remove (h : Keyed s) :
    e ∈ (handleRemove d s).1.values ↔ e ∈ s.values ∧ e.key ≠ d.entry.key := by
  unfold handleRemove
  split_ifs with hold
  · rw [(h.pop d.entry.key).mem_values, h.mem_values, Dict.get_pop]
    split_ifs with hkey <;> simp [hkey]
  · refine ⟨fun hmem => ⟨hmem, ?_⟩, And.left⟩
    intro hkey
    rw [h.mem_values, hkey] at hmem
    rw [hmem] at hold
    exact hold rfl

/-- In every store that requests can lead to, a WWAN request stays within its slot and profile if
and only if no other slot or profile has its forward. -/
theorem isolated_iff {seed : List NatEntry} {l : List NatRequest}
    (hrun : Trace.run step (seeded seed) l = some s) (hwwan : d.backhaul = .wwan) :
    Isolated s d ↔ Unshared s d := by
  have hkeyed := keyed_run hrun
  constructor
  · intro h e he hkey
    have hscoped := h.removes e he (fun hmem => (hkeyed.mem_remove.mp hmem).2 hkey)
    exact hscoped.2
  · intro h
    have hscoped : ∀ e ∈ s.values, e.key = d.entry.key → Scoped d e := by
      intro e he hkey
      have hbackhaul : e.backhaul = d.backhaul := congrArg Prod.fst hkey
      exact ⟨hbackhaul.trans hwwan, h e he hkey⟩
    have hfree_or : s.get d.entry.key = none ∨
        ∃ e ∈ s.values, e.key = d.entry.key ∧ s.get d.entry.key = some e := by
      cases hget : s.get d.entry.key with
      | none => exact .inl rfl
      | some e =>
        exact .inr ⟨e, Dict.mem_values_iff.mpr ⟨_, hget⟩, hkeyed _ _ hget, rfl⟩
    refine ⟨?_, ?_, ?_⟩
    · intro e he hgone
      refine hscoped e he ?_
      by_contra hkey
      exact hgone (hkeyed.mem_remove.mpr ⟨he, hkey⟩)
    · intro hrejected
      rcases hfree_or with hfree | ⟨e, he, hkey, -⟩
      · simp [handleAdd, hfree] at hrejected
      · have hparts := hkey
        simp only [NatEntry.key, NatData.entry, Prod.mk.injEq] at hparts
        obtain ⟨-, haddr, hport, hglobal, hproto⟩ := hparts
        exact ⟨e, he, haddr, hport, hglobal, hproto, hscoped e he hkey⟩
    · intro e hnot
      constructor
      · rcases hfree_or with hfree | ⟨e', -, -, hget⟩
        · rw [hkeyed.mem_add hfree, or_iff_left]
          rintro rfl
          exact hnot (scoped_entry hwwan)
        · simp [handleAdd, hget]
      · rw [hkeyed.mem_remove, and_iff_left_of_imp]
        intro he hkey
        exact hnot (hscoped e he hkey)

/-- The web server behind one profile of slot 1. -/
def forward (profileId port : ℤ) : NatData :=
  ⟨.wwan, some 1, some profileId, none, "192.168.225.20", port, 8080, 6⟩

theorem isolated_forward : ∃ s, Trace.run step (seeded [])
    [.add (forward 1 80), .add (forward 2 81)] = some s ∧ Isolated s (forward 2 81) := by
  have hrun : Trace.run step (seeded []) [.add (forward 1 80), .add (forward 2 81)] =
      some (handle (handle (seeded []) (.add (forward 1 80))).1 (.add (forward 2 81))).1 := rfl
  exact ⟨_, hrun, (isolated_iff hrun rfl).mpr (by decide)⟩

/-- A remove for profile 2 takes the entry of profile 1, and an add for it is rejected. -/
theorem forward_shared : ∃ s, Trace.run step (seeded []) [.add (forward 1 80)] = some s ∧
    s.values = [(forward 1 80).entry] ∧ (handleRemove (forward 2 80) s).1.values = [] ∧
    (handleAdd (forward 2 80) s).2 =
      .error .invalidOperation "identical NAT entry already exists" ∧
    ¬ Isolated s (forward 2 80) := by
  refine ⟨_, rfl, by decide, by decide, by decide, ?_⟩
  intro h
  have hscoped := h.removes (forward 1 80).entry (by decide) (by decide)
  exact absurd hscoped.2.2 (by decide)

end NatStore

end TelafSim.Net
