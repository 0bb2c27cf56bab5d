import TelafSim.Rpc

/-!
# The filter of the wakeup sources

The bitset that the modem keeps (`sml/mpss/wakeup/__init__.py`) and the calls of `SetWsFilter`,
`GetWsFilter` and `EnableAllWs` from any number of threads (`taf_prop_pa_pms.cpp`). A request or a
response may be lost, and a request whose call has timed out may still be handled. The modem saves
the bitset with each change, unless the write fails, and starts again with what is saved. As long as
a new start finds saved what the modem had, the calls are those of one register.
-/

namespace TelafSim.Wakeup

abbrev modemWsIncomingSms : ℕ := 0x0001
abbrev modemWsIncomingVcall : ℕ := 0x0002
abbrev modemWsSimProfileSwap : ℕ := 0x0004
abbrev modemWsNasSysInfo : ℕ := 0x0008

abbrev maxBitset : ℕ := 15

def allWakeupSources : BitVec 32 :=
  BitVec.ofNat 32 modemWsIncomingSms ||| BitVec.ofNat 32 modemWsIncomingVcall |||
    BitVec.ofNat 32 modemWsSimProfileSwap ||| BitVec.ofNat 32 modemWsNasSysInfo

inductive Op
  | set (bitset : ℕ)
  | get
  deriving DecidableEq

structure WsFilter where
  filter : ℕ
  snapshot : Option ℕ

namespace WsFilter

/-- The modem starts with `default`, its configured `default_filter`, and no snapshot. -/
def initial (default : ℕ) : WsFilter where
  filter := default
  snapshot := none

/-- `_handle_set_ws_filter` and `_maybe_persist`, with the bitset of the response. -/
def handleSetWsFilter (bitset : ℕ) (written : Bool) (s : WsFilter) : Option ℕ × WsFilter :=
  (none, { filter := bitset, snapshot := if written then some bitset else s.snapshot })

def handleGetWsFilter (s : WsFilter) : Option ℕ × WsFilter := (some s.filter, s)

def handle (written : Bool) (s : WsFilter) : Op → Option ℕ × WsFilter
  | .set bitset => s.handleSetWsFilter bitset written
  | .get => s.handleGetWsFilter

/-- `_pub_rsp`: a response that its schema does not allow is not published. -/
def pubRsp (bitset : Option ℕ) : Bool := bitset.all (· ≤ maxBitset)

def restart (default : ℕ) (s : WsFilter) : WsFilter :=
  { s with filter := s.snapshot.getD default }

def service (default : ℕ) : Rpc.Service Bool Unit Op (Option ℕ) WsFilter where
  handle := handle
  sends := pubRsp
  restart _ s := some (s.restart default)

variable {κ : Type}

abbrev Calls (κ : Type) := Rpc.State κ Op (Option ℕ) WsFilter

inductive Label (κ : Type)
  | setWsFilter (c : κ) (bits : BitVec 32)
  | enableAllWs (c : κ)
  | getWsFilter (c : κ)
  /-- The modem handles a request; the snapshot is written or not. -/
  | handle (c : κ) (op : Op) (written : Bool)
  | loseRequest (c : κ) (op : Op)
  | respond (c : κ) (bitset : Option ℕ)
  | loseResponse (c : κ) (bitset : Option ℕ)
  | timeout (c : κ)
  | restart
  deriving DecidableEq

def unknownBits (bits : BitVec 32) : BitVec 32 := bits &&& ~~~allWakeupSources

def setWsFilter (c : κ) (bits : BitVec 32) : Rpc.State.Label κ Bool Unit Op (Option ℕ) :=
  if unknownBits bits ≠ 0 then .reject c (.set bits.toNat) else .call c (.set bits.toNat)

def enableAllWs (c : κ) : Rpc.State.Label κ Bool Unit Op (Option ℕ) := setWsFilter c allWakeupSources

def getWsFilter (c : κ) : Rpc.State.Label κ Bool Unit Op (Option ℕ) := .call c .get

def Label.rpc : Label κ → Rpc.State.Label κ Bool Unit Op (Option ℕ)
  | .setWsFilter c bits => WsFilter.setWsFilter c bits
  | .enableAllWs c => WsFilter.enableAllWs c
  | .getWsFilter c => WsFilter.getWsFilter c
  | .handle c op written => .handle written c op
  | .loseRequest c op => .loseRequest c op
  | .respond c bitset => .respond c bitset
  | .loseResponse c bitset => .loseResponse c bitset
  | .timeout c => .timeout c
  | .restart => .restart ()

def step [DecidableEq κ] (default : ℕ) (s : Calls κ) (l : Label κ) : Option (Calls κ) :=
  s.step (service default) l.rpc

/-! ### One register -/

/-- A register: the response of an operation, and what it leaves of the value `v`. -/
def registerOp (v : ℕ) : Op → Option ℕ × ℕ
  | .set bitset => (none, bitset)
  | .get => (some v, v)

/-- The last bitset that has been set. -/
abbrev register (default : ℕ) (log : List (Rpc.Entry κ Op (Option ℕ))) : ℕ :=
  Rpc.replay registerOp default log

abbrev Linear (default : ℕ) :
    List (Rpc.Entry κ Op (Option ℕ)) → Rpc.Entry κ Op (Option ℕ) → Prop :=
  Rpc.Linear registerOp default

/-- A new start finds saved what the modem had. -/
def RestartsSaved (default : ℕ) (s : Calls κ) (l : Label κ) : Prop :=
  l = .restart → s.object.snapshot.getD default = s.object.filter

instance [DecidableEq κ] (default : ℕ) (s : Calls κ) (l : Label κ) :
    Decidable (RestartsSaved default s l) :=
  inferInstanceAs (Decidable (_ → _))

/-- Every bitset is one that the schemas allow. -/
structure Bounded (s : Calls κ) : Prop where
  filter : s.object.filter ≤ maxBitset
  snapshot : ∀ bitset ∈ s.object.snapshot, bitset ≤ maxBitset
  request : ∀ c bitset, (c, Op.set bitset) ∈ s.requests → bitset ≤ maxBitset

theorem refines_register (default : ℕ) :
    Rpc.Refines (service default) registerOp (fun s v => s.filter = v) := by
  rintro written s v op rfl
  cases op <;> exact ⟨rfl, rfl⟩

section Steps

variable {default : ℕ} {s t : Calls κ} {l : Label κ}

theorem setWsFilter_ne_restart (c : κ) (bits : BitVec 32) : setWsFilter c bits ≠ .restart () := by
  unfold setWsFilter
  split <;> simp

theorem rpc_eq_restart_iff : l.rpc = .restart () ↔ l = .restart := by
  cases l with
  | setWsFilter c bits => simp [Label.rpc, setWsFilter_ne_restart]
  | enableAllWs c => simp [Label.rpc, enableAllWs, setWsFilter_ne_restart]
  | getWsFilter c => simp [Label.rpc, getWsFilter]
  | handle c op written => simp [Label.rpc]
  | loseRequest c op => simp [Label.rpc]
  | respond c bitset => simp [Label.rpc]
  | loseResponse c bitset => simp [Label.rpc]
  | timeout c => simp [Label.rpc]
  | restart => simp [Label.rpc]

variable [DecidableEq κ]

/-- Only a new start that does not find saved what the modem had leaves another bitset than the
log. -/
theorem register_step (h : s.object.filter = register default s.log)
    (hstep : step default s l = some t) :
    RestartsSaved default s l ↔ t.object.filter = register default t.log := by
  change _ ↔ Rpc.State.Agrees registerOp default (fun s v => s.filter = v) t
  rw [← Rpc.State.agrees_step (refines_register default) h hstep]
  simp only [RestartsSaved, Rpc.State.RestartKeeps, h]
  constructor
  · rintro hsaved ⟨⟩ object hl ⟨⟩
    exact hsaved (rpc_eq_restart_iff.mp hl)
  · intro hkeeps hl
    exact hkeeps () _ (rpc_eq_restart_iff.mpr hl) rfl

theorem linear_step (hsound : s.Sound) (hlinear : History.Each (Linear default) s.log)
    (h : s.object.filter = register default s.log) (hstep : step default s l = some t) :
    History.Each (Linear default) t.log :=
  Rpc.State.linear_step (refines_register default) hsound hlinear h hstep

end Steps

section Runs

variable [DecidableEq κ] {default : ℕ} {ls : List (Label κ)} {s : Calls κ}

end Runs

end WsFilter

end TelafSim.Wakeup
