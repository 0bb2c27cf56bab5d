import TelafSim.CallPool
import TelafSim.DataCall
import TelafSim.PyInt
import TelafSim.StartUp

/-!
# The subnets of the modem's calls

`DataConnectionAO` with the addresses its calls get. One preset is shifted for every call by the
index that its interface name ends in, a whole subnet for each step. A name that a client asks for
need not be one of the pool's: what follows the length of the pool's prefix is read as an integer,
and counts as zero when it is none. A shift that leaves the address space is not made.

The connections of `Mpss` are used as they are, with the address blocks beside them; the preset
addresses are valid, so they are numbers.
-/

namespace TelafSim.Mpss

open Data StartUp

abbrev IpAddress (n : ℕ) := Fin (2 ^ n)

def offsetIp {n : ℕ} (addr : IpAddress n) (offset : ℤ) : IpAddress n :=
  if h : 0 ≤ (addr : ℤ) + offset ∧ (addr : ℤ) + offset < 2 ^ n then
    ⟨((addr : ℤ) + offset).toNat, by
      rw [Int.toNat_lt h.1]
      exact_mod_cast h.2⟩
  else addr

def v4SubnetStride : ℤ := 256

def v6SubnetStride : ℤ := 2 ^ 64

/-- The addresses of one family: of the preset, and of a session. `mask` is a subnet mask or the
length of a prefix. -/
structure IpBlock (n : ℕ) (μ : Type) where
  ifAddress : IpAddress n
  gwAddress : IpAddress n
  primaryDnsAddress : String
  secondaryDnsAddress : String
  mask : μ

def IpBlock.offset {n : ℕ} {μ : Type} (offset : ℤ) (b : IpBlock n μ) : IpBlock n μ :=
  { b with
    ifAddress := offsetIp b.ifAddress offset
    gwAddress := offsetIp b.gwAddress offset }

def IpBlock.setDns {n : ℕ} {μ : Type} (primary secondary : Option String) (b : IpBlock n μ) :
    IpBlock n μ :=
  { b with
    primaryDnsAddress := primary.getD b.primaryDnsAddress
    secondaryDnsAddress := secondary.getD b.secondaryDnsAddress }

/-- The bits of an address in front of the last `host`. -/
def network (host : ℕ) {n : ℕ} (addr : IpAddress n) : ℕ := addr / 2 ^ host

def IpBlock.Apart (host : ℕ) {n : ℕ} {μ : Type} (a b : IpBlock n μ) : Prop :=
  network host a.ifAddress ≠ network host b.ifAddress ∧ a.gwAddress ≠ b.gwAddress

/-- The index that a name of the pool ends in counts for an address as long as the shift stays in
the address space. -/
def effectiveIndex (host : ℕ) {n : ℕ} (addr : IpAddress n) (idx : ℤ) : ℤ :=
  if 0 ≤ (addr : ℤ) + idx * 2 ^ host ∧ (addr : ℤ) + idx * 2 ^ host < 2 ^ n then idx else 0

def IpBlock.IndexesDiffer (host : ℕ) {n : ℕ} {μ : Type} (preset : IpBlock n μ) (i j : ℤ) : Prop :=
  effectiveIndex host preset.ifAddress i ≠ effectiveIndex host preset.ifAddress j ∧
    effectiveIndex host preset.gwAddress i ≠ effectiveIndex host preset.gwAddress j

structure IpConfig where
  ipv4 : IpBlock 32 String
  ipv6 : IpBlock 128 ℕ

/-- The payload of the action beside the profile; every field may be absent. -/
structure ForceDns where
  ipv4PrimaryDns : Option String
  ipv4SecondaryDns : Option String
  ipv6PrimaryDns : Option String
  ipv6SecondaryDns : Option String
  deriving DecidableEq

/-- The fields of a session that are about addresses. -/
structure Bearer where
  ipFamily : IpFamilyType
  ipv4 : Option (IpBlock 32 String)
  ipv6 : Option (IpBlock 128 ℕ)

/-- The two are on subnets of their own, in each family that both carry. -/
def Bearer.Apart (b b' : Bearer) : Prop :=
  (∀ x ∈ b.ipv4, ∀ y ∈ b'.ipv4, x.Apart 8 y) ∧ ∀ x ∈ b.ipv6, ∀ y ∈ b'.ipv6, x.Apart 64 y

def Bearer.create (ipFamily : IpFamilyType) : Bearer := ⟨ipFamily, none, none⟩

def carriesV4 (ipFamily : IpFamilyType) : Bool := ipFamily = .ipv4 ∨ ipFamily = .ipv4v6

def carriesV6 (ipFamily : IpFamilyType) : Bool := ipFamily = .ipv6 ∨ ipFamily = .ipv4v6

namespace DataConnectionAO

/-- The interface of the profile's call when it is up. -/
def connectedIfname (m : DataConnectionAO) (p : ℤ) : Option String :=
  ((m.sessions.lookup p).filter (fun s => s.status = .connected)).map CallSession.ifname

/-- The event brings up the call of `p`, on the interface `name`. -/
def BringsUp (m : DataConnectionAO) (e : MpssEvent) (p : ℤ) (name : String) : Prop :=
  e = .timeout .connect p ∧
    ∃ s, m.sessions.lookup p = some s ∧ s.status = .connecting ∧ s.ifname = name

end DataConnectionAO

inductive AddrEvent
  | start
  | startingDone
  | stop
  | messageReceived (q : Request) (ipFamily : IpFamilyType)
  | call (e : MpssEvent)
  | networkRatChanged
  | forceDns (profileId : ℤ) (data : ForceDns)
  deriving DecidableEq

structure AddrConnections where
  phase : Phase
  ao : DataConnectionAO
  /-- `ifname_prefix` of the interface preset. -/
  stem : String
  config : IpConfig
  bearers : ℤ → Bearer
  fifo : List AddrEvent
  deferQueue : List (Request × IpFamilyType)

namespace AddrConnections

def initial (timing : CallTimingPreset) (stem : String) (poolSize : ℕ) (config : IpConfig) :
    AddrConnections where
  phase := .off
  ao := .start timing stem poolSize (fun _ => none)
  stem := stem
  config := config
  bearers := fun _ => .create .unknown
  fifo := []
  deferQueue := []

def postFifo (e : AddrEvent) (c : AddrConnections) : AddrConnections :=
  { c with fifo := c.fifo ++ [e] }

def settle (m : DataConnectionAO) (bearers : ℤ → Bearer) (c : AddrConnections) :
    AddrConnections :=
  { c with
    ao := { m with fifo := [] }
    bearers := bearers
    fifo := c.fifo ++ m.fifo.map .call }

section Index

variable [PyText]

def ifnameIndex (stem ifname : String) : ℤ :=
  (pyInt (ifname.toList.drop stem.length)).getD 0

def connectBearer (ifname : String) (b : Bearer) (c : AddrConnections) : Bearer :=
  let idx := ifnameIndex c.stem ifname
  { b with
    ipv4 := if carriesV4 b.ipFamily then some (c.config.ipv4.offset (idx * v4SubnetStride)) else none
    ipv6 := if carriesV6 b.ipFamily then some (c.config.ipv6.offset (idx * v6SubnetStride)) else none }

def handleMessage (q : Request) (ipFamily : IpFamilyType) (c : AddrConnections) :
    AddrConnections :=
  c.settle (c.ao.dispatch (.messageReceived q)).1
    (if q.kind = .startDataCall ∧ c.ao.opens q then
      Function.update c.bearers q.profileId (.create ipFamily)
    else c.bearers)

def onConnectTimer (p : ℤ) (c : AddrConnections) : AddrConnections :=
  c.settle (c.ao.dispatch (.timeout .connect p)).1
    (match c.ao.sessions.lookup p with
    | none => c.bearers
    | some s =>
      if s.status = .connecting then
        Function.update c.bearers p (c.connectBearer s.ifname (c.bearers p))
      else c.bearers)

def applyForceDns (p : ℤ) (data : ForceDns) (c : AddrConnections) : AddrConnections :=
  if c.ao.status p = some .connected then
    { c with
      config := {
        ipv4 := c.config.ipv4.setDns data.ipv4PrimaryDns data.ipv4SecondaryDns
        ipv6 := c.config.ipv6.setDns data.ipv6PrimaryDns data.ipv6SecondaryDns }
      bearers := Function.update c.bearers p { c.bearers p with
        ipv4 := (c.bearers p).ipv4.map (·.setDns data.ipv4PrimaryDns data.ipv4SecondaryDns)
        ipv6 := (c.bearers p).ipv6.map (·.setDns data.ipv6PrimaryDns data.ipv6SecondaryDns) } }
  else c

def recallOldest (c : AddrConnections) : AddrConnections :=
  match c.deferQueue with
  | [] => c
  | (q, ipFamily) :: rest =>
    { c with fifo := c.fifo ++ [.messageReceived q ipFamily], deferQueue := rest }

def stop (c : AddrConnections) : AddrConnections :=
  { c with phase := .stopping, ao := { c.ao with sessions := ∅ } }

def handleReady (c : AddrConnections) : AddrEvent → AddrConnections
  | .messageReceived q ipFamily => c.handleMessage q ipFamily
  | .call (.timeout .connect p) => c.onConnectTimer p
  | .call e => c.settle (c.ao.dispatch e).1 c.bearers
  | .forceDns p data => c.applyForceDns p data
  | .stop => c.stop
  | _ => c

/-- Before Ready messages are deferred and everything else is dropped. -/
def handleStarting (c : AddrConnections) : AddrEvent → AddrConnections
  | .startingDone => { c with phase := .ready }.recallOldest
  | .messageReceived q ipFamily => { c with deferQueue := c.deferQueue ++ [(q, ipFamily)] }
  | .stop => c.stop
  | _ => c

def handle (e : AddrEvent) (c : AddrConnections) : AddrConnections :=
  match c.phase with
  | .off =>
    match e with
    | .start => { c with phase := .starting }.postFifo .startingDone
    | _ => c
  | .starting => c.handleStarting e
  | .ready => c.handleReady e
  | .stopping => c

inductive Label
  | start
  | stop
  | handleMessage (q : Request) (ipFamily : IpFamilyType)
  | forceCallDrop (profileId : ℤ)
  | onNetworkRatChanged
  | forceDns (profileId : ℤ) (data : ForceDns)
  | elapse (profileId : ℤ)
  | handle

def step (c : AddrConnections) : Label → Option AddrConnections
  | .start => some (c.postFifo .start)
  | .stop => some (c.postFifo .stop)
  | .handleMessage q ipFamily => some (c.postFifo (.messageReceived q ipFamily))
  | .forceCallDrop p => some (c.postFifo (.call (.forceCallDrop p)))
  | .onNetworkRatChanged => some (c.postFifo .networkRatChanged)
  | .forceDns p data => some (c.postFifo (.forceDns p data))
  | .elapse p => (c.ao.elapse p).map (fun m => c.settle m c.bearers)
  | .handle =>
    match c.fifo with
    | [] => none
    | e :: rest => some ({ c with fifo := rest }.handle e)

end Index

/-! ### What it means for the calls to have their own subnets -/

/-- Two calls that are up and carry IPv4 are in different /24 blocks, two that carry IPv6 in
different /64 prefixes, and no two have a gateway in common. -/
def OwnSubnets (c : AddrConnections) : Prop :=
  ∀ p q, p ≠ q → c.ao.status p = some .connected → c.ao.status q = some .connected →
    (c.bearers p).Apart (c.bearers q)

/-- Of two calls, by their families and interface names. -/
def NamesDiffer [PyText] (c : AddrConnections) (f f' : IpFamilyType) (name name' : String) : Prop :=
  (carriesV4 f → carriesV4 f' →
      c.config.ipv4.IndexesDiffer 8 (ifnameIndex c.stem name) (ifnameIndex c.stem name')) ∧
    (carriesV6 f → carriesV6 f' →
      c.config.ipv6.IndexesDiffer 64 (ifnameIndex c.stem name) (ifnameIndex c.stem name'))

/-- The step brings up the call of `p`, on the interface `name`. -/
def BringsUp (c : AddrConnections) (l : Label) (p : ℤ) (name : String) : Prop :=
  l = .handle ∧ c.phase = .ready ∧ ∃ e, c.fifo.head? = some (.call e) ∧ c.ao.BringsUp e p name

/-- A call that is brought up has another index than every call that is up and carries the same
family. -/
def heeds [PyText] (c : AddrConnections) (l : Label) : Prop :=
  ∀ p name, c.BringsUp l p name → ∀ q name', q ≠ p → c.ao.connectedIfname q = some name' →
    c.NamesDiffer (c.bearers p).ipFamily (c.bearers q).ipFamily name name'

end AddrConnections

end TelafSim.Mpss
