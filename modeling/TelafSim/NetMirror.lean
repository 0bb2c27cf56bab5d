import TelafSim.NetSettings

/-!
# The mirrors of the synchronous settings reads

`SimulaDataSettingsManager` of `DataSettingsManager.cpp` as far as the six synchronous calls go, and
the modem's settings at the other end of the wire. A write is a request and nothing else; a read
answers from a mirror that is replaced by each retained sync. Between the two, every request and
every publication may arrive late, twice, out of order or never: the wire remembers all of them.
-/

namespace TelafSim.Net

/-! ### The calls and their wire form -/

structure IpptParams where
  profileId : BitVec 32
  vlanId : BitVec 16
  slotId : BitVec 32
  deriving DecidableEq

structure IpptConfig where
  ipptOpr : Operation
  nwInterface : InterfaceType
  macAddr : String
  deriving DecidableEq, Repr

structure IpConfigParams where
  ifType : InterfaceType
  ipFamilyType : IpFamilyType
  vlanId : BitVec 32
  deriving DecidableEq

structure IpConfig where
  ipType : IpAssignType
  ipOpr : IpAssignOperation
  ifAddress : String
  ifMask : BitVec 32
  gwAddress : String
  gwMask : BitVec 32
  primaryDnsAddress : String
  secondaryDnsAddress : String
  deriving DecidableEq

def nonempty (s : String) : Option String := if s ≠ "" then some s else none

@[simp] theorem getD_nonempty (s : String) : (nonempty s).getD "" = s := by
  unfold nonempty
  split
  · rfl
  · next h => exact (not_not.mp h).symm

def fromIppt (p : IpptParams) (c : IpptConfig) : IpptEntry where
  profileId := p.profileId.toInt
  vlanId := p.vlanId.toInt
  slot := p.slotId.toInt
  ipptOpr := fromOperation c.ipptOpr
  nwInterface := if c.nwInterface ≠ .unknown then some (fromIfaceType c.nwInterface) else none
  macAddr := nonempty c.macAddr

def toIppt (e : IpptEntry) : IpptConfig where
  ipptOpr := toOperation e.ipptOpr
  nwInterface := toIfaceType (e.nwInterface.getD "")
  macAddr := e.macAddr.getD ""

/-- The mask and the addresses are left out when zero or empty, the VLAN when it is `-1`. -/
def fromIpConfig (p : IpConfigParams) (c : IpConfig) : IpConfigEntry where
  ifType := fromIfaceType p.ifType
  ipFamily := fromIpFamily p.ipFamilyType
  vlanId := if p.vlanId ≠ -1 then some p.vlanId.toNat else none
  ipType := fromIpType c.ipType
  ipOpr := fromIpOperation c.ipOpr
  ifAddress := nonempty c.ifAddress
  ifMask := if c.ifMask ≠ 0 then some c.ifMask.toNat else none
  gwAddress := nonempty c.gwAddress
  primaryDnsAddress := nonempty c.primaryDnsAddress
  secondaryDnsAddress := nonempty c.secondaryDnsAddress

def toIpConfig (e : IpConfigEntry) : IpConfig where
  ipType := toIpType e.ipType
  ipOpr := toIpOperation e.ipOpr
  ifAddress := e.ifAddress.getD ""
  ifMask := BitVec.ofInt 32 (e.ifMask.getD 0)
  gwAddress := e.gwAddress.getD ""
  gwMask := 0
  primaryDnsAddress := e.primaryDnsAddress.getD ""
  secondaryDnsAddress := e.secondaryDnsAddress.getD ""

/-- A number of the wire as an `int`. -/
def asInt (n : ℤ) : ℤ := (BitVec.ofInt 32 n).toInt

/-! ### The manager -/

inductive PaError
  | deviceNotReady
  | invalidArguments
  | requestNotSupported
  deriving DecidableEq, Repr

structure SettingsManager where
  ready : Bool
  ipptNatEnabled : Bool
  ipptMirror : Dict (ℤ × ℤ × ℤ) IpptConfig
  ipConfigMirror : Dict (InterfaceType × IpFamilyType × ℤ) IpConfig

namespace SettingsManager

def create : SettingsManager := ⟨false, true, .empty, .empty⟩

def applyIpptSync (natEnabled : Bool) (entries : List IpptEntry) (a : SettingsManager) :
    SettingsManager :=
  { a with
    ipptNatEnabled := natEnabled
    ipptMirror := .ofList (entries.map (fun e =>
      ((asInt e.profileId, asInt e.vlanId, asInt e.slot), toIppt e))) }

def applyIpConfigSync (entries : List IpConfigEntry) (a : SettingsManager) : SettingsManager :=
  { a with
    ipConfigMirror := .ofList (entries.map (fun e =>
      ((toIfaceType e.ifType, toIpFamily e.ipFamily, asInt (e.vlanId.getD (-1))),
        toIpConfig e))) }

/-- `SetNotReady_St` and `SetReady_St`: both take in the syncs, readiness moves between them. -/
def handle (a : SettingsManager) : SettingsPub → SettingsManager
  | .subsysReady ready => { a with ready := ready }
  | .ipptSync natEnabled entries => a.applyIpptSync natEnabled entries
  | .ipConfigSync entries => a.applyIpConfigSync entries
  | .wwanChanged _ _ => a
  | .ddsChanged _ _ => a
  | .rsp _ => a

def linkDown (a : SettingsManager) : SettingsManager := { a with ready := false }

def getIpPassThroughNatConfig (a : SettingsManager) : Except PaError Bool :=
  if a.ready = false then .error .deviceNotReady else .ok a.ipptNatEnabled

def getIpPassThroughConfig (p : IpptParams) (a : SettingsManager) : Except PaError IpptConfig :=
  if a.ready = false then .error .deviceNotReady
  else
    match a.ipptMirror.get (p.profileId.toInt, p.vlanId.toInt, p.slotId.toInt) with
    | none => .error .invalidArguments
    | some c => .ok c

def getIpConfig (p : IpConfigParams) (a : SettingsManager) : Except PaError IpConfig :=
  if a.ready = false then .error .deviceNotReady
  else
    match a.ipConfigMirror.get (p.ifType, p.ipFamilyType, p.vlanId.toInt) with
    | none => .error .invalidArguments
    | some c => .ok c

end SettingsManager

/-- The calls that send a request. -/
inductive SettingsCall
  | setIpPassThroughConfig (p : IpptParams) (c : IpptConfig)
  | setIpPassThroughNatConfig (e : Bool)
  | setIpConfig (p : IpConfigParams) (c : IpConfig)
  | restoreFactorySettings

namespace SettingsCall

def request : SettingsCall → SettingsRequest
  | .setIpPassThroughConfig p c => .setIpptConfig (fromIppt p c)
  | .setIpPassThroughNatConfig e => .setIpptNatConfig e
  | .setIpConfig p c => .setIpConfig (fromIpConfig p c)
  | .restoreFactorySettings => .restoreFactorySettings

/-- Whether the manager sends it: both families at once are refused before readiness is read. -/
def publishes (a : SettingsManager) : SettingsCall → Except PaError Unit
  | .setIpConfig p _ =>
    if p.ipFamilyType = .ipv4v6 then .error .requestNotSupported
    else if a.ready = false then .error .deviceNotReady else .ok ()
  | _ => if a.ready = false then .error .deviceNotReady else .ok ()

end SettingsCall

/-! ### Accepted writes -/

/-- What the wire carries of an `IpConfig`: all but `gwMask`. -/
structure IpView where
  ipType : IpAssignType
  ipOpr : IpAssignOperation
  ifAddress : String
  ifMask : ℤ
  gwAddress : String
  primaryDnsAddress : String
  secondaryDnsAddress : String
  deriving DecidableEq, Repr

def IpConfig.view (c : IpConfig) : IpView :=
  ⟨c.ipType, c.ipOpr, c.ifAddress, c.ifMask.toNat, c.gwAddress, c.primaryDnsAddress,
    c.secondaryDnsAddress⟩

abbrev IpptKey := ℤ × ℤ × ℤ

/-- Interface, family and VLAN, with `-1` for no VLAN. -/
abbrev IpKey := InterfaceType × IpFamilyType × ℤ

def IpptParams.key (p : IpptParams) : IpptKey := (p.profileId.toInt, p.vlanId.toInt, p.slotId.toInt)

def IpConfigParams.key (p : IpConfigParams) : IpKey :=
  (p.ifType, p.ipFamilyType, if p.vlanId = -1 then -1 else p.vlanId.toNat)

inductive Write
  | nat (enabled : Bool)
  | ippt (key : IpptKey) (value : IpptConfig)
  | ipConfig (key : IpKey) (value : IpView)

/-- What an entry of the wire says. -/
def IpptEntry.write (e : IpptEntry) : Write := .ippt e.key (toIppt e)

def IpConfigEntry.ipKey (e : IpConfigEntry) : IpKey :=
  (toIfaceType e.ifType, toIpFamily e.ipFamily, e.vlanId.getD (-1))

def IpConfigEntry.view (e : IpConfigEntry) : IpView :=
  ⟨toIpType e.ipType, toIpOperation e.ipOpr, e.ifAddress.getD "", e.ifMask.getD 0,
    e.gwAddress.getD "", e.primaryDnsAddress.getD "", e.secondaryDnsAddress.getD ""⟩

def IpConfigEntry.write (e : IpConfigEntry) : Write := .ipConfig e.ipKey e.view

/-- The writes since the last restore after this call has been accepted. -/
def SettingsCall.record (l : List Write) : SettingsCall → List Write
  | .setIpPassThroughConfig p c => l ++ [.ippt p.key c]
  | .setIpPassThroughNatConfig e => l ++ [.nat e]
  | .setIpConfig p c => l ++ [.ipConfig p.key c.view]
  | .restoreFactorySettings => []

/-- The same for a request of another client. -/
def SettingsRequest.record (l : List Write) : SettingsRequest → List Write
  | .setIpptConfig e => l ++ [e.write]
  | .setIpptNatConfig e => l ++ [.nat e]
  | .setIpConfig e => l ++ [e.write]
  | .restoreFactorySettings => []
  | _ => l

def lastNat (l : List Write) : Option Bool :=
  l.foldl (fun o w => match w with
    | .nat e => some e
    | _ => o) none

def lastIppt (k : IpptKey) (l : List Write) : Option IpptConfig :=
  l.foldl (fun o w => match w with
    | .ippt j c => if j = k then some c else o
    | _ => o) none

def lastIpConfig (k : IpKey) (l : List Write) : Option IpView :=
  l.foldl (fun o w => match w with
    | .ipConfig j v => if j = k then some v else o
    | _ => o) none

namespace NetSettingsAO

def accepts (m : NetSettingsAO) (q : SettingsRequest) : Bool :=
  ((m.handle (.request q)).published.drop m.published.length).any (· = .rsp .done)

/-- The writes since the last restore after an event on the modem's side. -/
def record (l : List Write) (m : NetSettingsAO) (e : SettingsEvent) : List Write :=
  if e.valid = false then l
  else
    match e with
    | .request q => if m.accepts q then q.record l else l
    | .forceIpptConfig natEnabled entries =>
      l ++ natEnabled.toList.map .nat ++ entries.map IpptEntry.write
    | .forceIpConfig entries => l ++ entries.map IpConfigEntry.write
    | _ => l

end NetSettingsAO

/-! ### The tables of the modem and what it has told of them -/

/-- The three settings that are mirrored, beside what the last sync of each kind said. -/
@[ext] structure Tables where
  nat : Bool
  ippt : Dict IpptKey IpptEntry
  ipConfig : Dict (String × String × ℤ) IpConfigEntry
  ipptHeard : Option (Bool × List IpptEntry)
  ipConfigHeard : Option (List IpConfigEntry)

namespace Tables

def setNat (nat : Bool) (t : Tables) : Tables := { t with nat := nat }

def setIppt (e : IpptEntry) (t : Tables) : Tables := { t with ippt := t.ippt.set e.key e }

def setIpConfig (e : IpConfigEntry) (t : Tables) : Tables :=
  { t with ipConfig := t.ipConfig.set e.key e }

def clear (t : Tables) : Tables := { t with nat := true, ippt := .empty, ipConfig := .empty }

def tellIppt (t : Tables) : Tables := { t with ipptHeard := some (t.nat, t.ippt.values) }

def tellIpConfig (t : Tables) : Tables := { t with ipConfigHeard := some t.ipConfig.values }

/-- The last syncs say what is stored. -/
structure Told (t : Tables) : Prop where
  ippt : t.ipptHeard = some (t.nat, t.ippt.values)
  ipConfig : t.ipConfigHeard = some t.ipConfig.values

end Tables

namespace NetSettingsAO

def hearIppt : Option (Bool × List IpptEntry) → SettingsPub → Option (Bool × List IpptEntry)
  | _, .ipptSync nat entries => some (nat, entries)
  | o, _ => o

def hearIpConfig : Option (List IpConfigEntry) → SettingsPub → Option (List IpConfigEntry)
  | _, .ipConfigSync entries => some entries
  | o, _ => o

def tables (m : NetSettingsAO) : Tables where
  nat := m.store.ipptNatEnabled
  ippt := m.store.ipptEntries
  ipConfig := m.store.ipConfigEntries
  ipptHeard := m.published.foldl hearIppt none
  ipConfigHeard := m.published.foldl hearIpConfig none

theorem tables_pub (x : SettingsPub) (m : NetSettingsAO) :
    (m.pub x).tables = { m.tables with
      ipptHeard := hearIppt m.tables.ipptHeard x
      ipConfigHeard := hearIpConfig m.tables.ipConfigHeard x } := by
  simp [tables, pub]

@[simp] theorem tables_pubRsp (data : SettingsRsp) (m : NetSettingsAO) :
    (m.pubRsp data).tables = m.tables := tables_pub _ m

@[simp] theorem tables_sendError (code : ErrorCode) (detail : String) (m : NetSettingsAO) :
    (m.sendError code detail).tables = m.tables := tables_pub _ m

@[simp] theorem tables_pub_subsysReady (ready : Bool) (m : NetSettingsAO) :
    (m.pub (.subsysReady ready)).tables = m.tables := tables_pub _ m

@[simp] theorem tables_pub_wwanChanged (slot : ℤ) (allowed : Bool) (m : NetSettingsAO) :
    (m.pub (.wwanChanged slot allowed)).tables = m.tables := tables_pub _ m

@[simp] theorem tables_pub_ddsChanged (slot : ℤ) (ddsType : DdsType) (m : NetSettingsAO) :
    (m.pub (.ddsChanged slot ddsType)).tables = m.tables := tables_pub _ m

@[simp] theorem tables_publishIpptSync (m : NetSettingsAO) :
    m.publishIpptSync.tables = m.tables.tellIppt := tables_pub _ m

@[simp] theorem tables_publishIpConfigSync (m : NetSettingsAO) :
    m.publishIpConfigSync.tables = m.tables.tellIpConfig := tables_pub _ m

@[simp] theorem tables_setIppt (e : IpptEntry) (m : NetSettingsAO) :
    (m.setIppt e).tables = m.tables.setIppt e := rfl

@[simp] theorem tables_setIpConfig (e : IpConfigEntry) (m : NetSettingsAO) :
    (m.setIpConfig e).tables = m.tables.setIpConfig e := rfl

@[simp] theorem tables_setWwan (slot : ℤ) (allow : Bool) (m : NetSettingsAO) :
    (m.setWwan slot allow).tables = m.tables := rfl

@[simp] theorem tables_setDds (slot : ℤ) (ddsType : DdsType) (m : NetSettingsAO) :
    (m.setDds slot ddsType).tables = m.tables := rfl

theorem tables_foldl_setIppt (entries : List IpptEntry) (m : NetSettingsAO) :
    (entries.foldl (fun m e => m.setIppt e) m).tables =
      entries.foldl (fun t e => t.setIppt e) m.tables :=
  (List.foldl_hom tables fun m e => (tables_setIppt e m).symm).symm

theorem tables_foldl_setIpConfig (entries : List IpConfigEntry) (m : NetSettingsAO) :
    (entries.foldl (fun m e => m.setIpConfig e) m).tables =
      entries.foldl (fun t e => t.setIpConfig e) m.tables :=
  (List.foldl_hom tables fun m e => (tables_setIpConfig e m).symm).symm

/-- What an event makes of the tables and of the accepted writes. -/
inductive Turn (t : Tables) (l : List Write) : SettingsEvent → Tables → List Write → Prop
  | same (e : SettingsEvent) : Turn t l e t l
  | setIppt (e : IpptEntry) :
      Turn t l (.request (.setIpptConfig e)) (t.setIppt e).tellIppt (l ++ [e.write])
  | setNat (nat : Bool) :
      Turn t l (.request (.setIpptNatConfig nat)) (t.setNat nat).tellIppt (l ++ [.nat nat])
  | setIpConfig (e : IpConfigEntry) (hvalid : e.valid = true) :
      Turn t l (.request (.setIpConfig e)) (t.setIpConfig e).tellIpConfig (l ++ [e.write])
  | restore : Turn t l (.request .restoreFactorySettings) t.clear.tellIppt.tellIpConfig []
  | forceIppt (nat : Option Bool) (entries : List IpptEntry) :
      Turn t l (.forceIpptConfig nat entries)
        (entries.foldl (fun t e => t.setIppt e) (t.setNat (nat.getD t.nat))).tellIppt
        (l ++ nat.toList.map .nat ++ entries.map IpptEntry.write)
  | forceIpConfig (entries : List IpConfigEntry) (hvalid : ∀ e ∈ entries, e.valid = true) :
      Turn t l (.forceIpConfig entries)
        (entries.foldl (fun t e => t.setIpConfig e) t).tellIpConfig
        (l ++ entries.map IpConfigEntry.write)
  | tell : Turn t l .resubscribe t.tellIppt.tellIpConfig l

theorem dispatchMessage_turn (m : NetSettingsAO) {q : SettingsRequest} (l : List Write)
    (hvalid : q.valid = true) :
    Turn m.tables l (.request q) (m.dispatchMessage q).tables
      (if m.accepts q then q.record l else l) := by
  have hhandle : m.handle (.request q) = m.dispatchMessage q := by
    simp [handle, SettingsEvent.valid, hvalid]
  -- a request that leaves the tables and the writes alone
  have hsame : (m.dispatchMessage q).tables = m.tables → q.record l = l →
      Turn m.tables l (.request q) (m.dispatchMessage q).tables
        (if m.accepts q then q.record l else l) := by
    intro ht hl
    rw [ht, hl, ite_self]
    exact .same _
  cases q with
  | restoreFactorySettings =>
    have hok : m.accepts .restoreFactorySettings = true := by
      simp [accepts, hhandle, dispatchMessage, handleRestore, publishIpptSync, publishIpConfigSync,
        pubRsp, pub, setStore]
    rw [if_pos hok]
    rw [dispatchMessage, handleRestore, tables_publishIpConfigSync, tables_publishIpptSync,
      tables_pubRsp]
    exact .restore
  | setIpptConfig e =>
    by_cases hbad : e.ipptOpr = "DISABLE" ∧ (e.nwInterface.isSome ∨ e.macAddr.isSome)
    · have hok : m.accepts (.setIpptConfig e) = false := by
        simp [accepts, hhandle, dispatchMessage, handleSetIppt, hbad, sendError, pubRsp, pub]
      rw [if_neg (by simp [hok]), dispatchMessage, handleSetIppt, if_pos hbad, tables_sendError]
      exact .same _
    · have hok : m.accepts (.setIpptConfig e) = true := by
        simp only [accepts, hhandle, dispatchMessage, handleSetIppt, if_neg hbad]
        simp [publishIpptSync, pubRsp, pub, NetSettingsAO.setIppt, setStore]
      rw [if_pos hok, dispatchMessage, handleSetIppt, if_neg hbad, tables_publishIpptSync,
        tables_pubRsp, tables_setIppt]
      exact .setIppt e
  | setIpptNatConfig nat =>
    have hok : m.accepts (.setIpptNatConfig nat) = true := by
      simp [accepts, hhandle, dispatchMessage, handleSetIpptNat, publishIpptSync, pubRsp, pub,
        setStore]
    rw [if_pos hok, dispatchMessage, handleSetIpptNat, tables_publishIpptSync, tables_pubRsp]
    exact .setNat nat
  | setIpConfig e =>
    by_cases hbad : e.ipFamily = "IPV4V6"
    · have hok : m.accepts (.setIpConfig e) = false := by
        simp [accepts, hhandle, dispatchMessage, handleSetIpConfig, hbad, sendError, pubRsp, pub]
      rw [if_neg (by simp [hok]), dispatchMessage, handleSetIpConfig, if_pos hbad,
        tables_sendError]
      exact .same _
    · have hok : m.accepts (.setIpConfig e) = true := by
        simp only [accepts, hhandle, dispatchMessage, handleSetIpConfig, if_neg hbad]
        simp [publishIpConfigSync, pubRsp, pub, NetSettingsAO.setIpConfig, setStore]
      rw [if_pos hok, dispatchMessage, handleSetIpConfig, if_neg hbad,
        tables_publishIpConfigSync, tables_pubRsp, tables_setIpConfig]
      exact .setIpConfig e hvalid
  | setBackhaulPref pref =>
    refine hsame ?_ rfl
    simp only [dispatchMessage, handleSetBhPref]
    split
    · exact tables_sendError _ _ m
    · exact tables_pubRsp _ _
  | setBandInterference enable config =>
    refine hsame ?_ rfl
    simp only [dispatchMessage, handleSetBand]
    split
    · exact tables_sendError _ _ m
    · exact tables_pubRsp _ _
  | setWwanConnectivity slot allow =>
    refine hsame ?_ rfl
    simp only [dispatchMessage, handleSetWwan]
    split <;> simp
  | switchBackhaul source dest =>
    refine hsame ?_ rfl
    simp only [dispatchMessage, handleSwitchBh]
    split <;> simp
  | requestDdsSwitch slot ddsType =>
    refine hsame ?_ rfl
    simp only [dispatchMessage, handleDdsSwitch]
    split <;> simp
  | setMacsecState | requestBackhaulPref | requestBandInterference | requestWwanConnectivity |
    requestMacsecState | requestCurrentDds => exact hsame (tables_pubRsp _ _) rfl

theorem handle_turn (m : NetSettingsAO) (e : SettingsEvent) (l : List Write) :
    Turn m.tables l e (m.handle e).tables (m.record l e) := by
  unfold handle record
  by_cases hvalid : e.valid = false
  · rw [if_pos hvalid, if_pos hvalid]
    exact .same _
  · rw [if_neg hvalid, if_neg hvalid]
    rw [Bool.not_eq_false] at hvalid
    cases e with
    | request q => exact dispatchMessage_turn m l hvalid
    | forceWwanConnectivity slot allow =>
      rw [show (m.applyForceWwan slot allow).tables = m.tables from tables_pub_wwanChanged _ _ _]
      exact .same _
    | forceDds slot ddsType =>
      rw [show (m.applyForceDds slot ddsType).tables = m.tables from tables_pub_ddsChanged _ _ _]
      exact .same _
    | forceIpptConfig nat entries =>
      simp only [applyForceIppt, tables_publishIpptSync, tables_foldl_setIppt]
      exact .forceIppt nat entries
    | forceIpConfig entries =>
      simp only [applyForceIpConfig, tables_publishIpConfigSync, tables_foldl_setIpConfig]
      exact .forceIpConfig entries (List.all_eq_true.mp hvalid)
    | resubscribe =>
      simp only [doResubscribe, tables_publishIpConfigSync, tables_publishIpptSync,
        tables_pub_subsysReady]
      exact .tell

end NetSettingsAO

/-! ### The tables hold the accepted writes -/

/-- The numbers of the entry fit the integers of the manager. -/
def IpptEntry.fits (e : IpptEntry) : Prop :=
  asInt e.profileId = e.profileId ∧ asInt e.vlanId = e.vlanId ∧ asInt e.slot = e.slot

/-- The VLAN of the entry is one that the manager can name, and the mask fits. -/
def IpConfigEntry.fits (e : IpConfigEntry) : Prop :=
  -1 ≤ e.vlanId.getD (-1) ∧ e.vlanId.getD (-1) < 2 ^ 32 - 1 ∧
    (BitVec.ofInt 32 (e.ifMask.getD 0)).toNat = e.ifMask.getD 0

def SettingsEvent.fits : SettingsEvent → Prop
  | .request (.setIpptConfig e) => e.fits
  | .request (.setIpConfig e) => e.fits
  | .forceIpptConfig _ entries => ∀ e ∈ entries, e.fits
  | .forceIpConfig entries => ∀ e ∈ entries, e.fits
  | _ => True

def IpKey.wire (k : IpKey) : String × String × ℤ :=
  (fromIfaceType k.1, fromIpFamily k.2.1, k.2.2)

theorem IpKey.wire_inj {k j : IpKey} (h : IpKey.wire k = IpKey.wire j) : k = j := by
  obtain ⟨hif, hfam, hvlan⟩ : _ ∧ _ ∧ _ := by simpa [IpKey.wire] using h
  have hif := congrArg toIfaceType hif
  have hfam := congrArg toIpFamily hfam
  rw [toIfaceType_fromIfaceType, toIfaceType_fromIfaceType] at hif
  rw [toIpFamily_fromIpFamily, toIpFamily_fromIpFamily] at hfam
  exact Prod.ext hif (Prod.ext hfam hvlan)

theorem fromIfaceType_toIfaceType {s : String} (h : s ∈ ifaceNames) :
    fromIfaceType (toIfaceType s) = s := by
  revert s
  decide

theorem fromIpFamily_toIpFamily {s : String} (h : s ∈ ipFamilyNames) :
    fromIpFamily (toIpFamily s) = s := by
  revert s
  decide

/-- An entry that has passed its schema is stored under the key of what it says. -/
theorem IpConfigEntry.wire_ipKey {e : IpConfigEntry} (h : e.valid = true) :
    IpKey.wire e.ipKey = e.key := by
  simp only [IpConfigEntry.valid, decide_eq_true_eq] at h
  rw [IpConfigEntry.ipKey, IpKey.wire, fromIfaceType_toIfaceType h.1,
    fromIpFamily_toIpFamily h.2.1]
  rfl

theorem lastNat_concat (l : List Write) (w : Write) :
    lastNat (l ++ [w]) = (match w with
      | .nat e => some e
      | _ => lastNat l) := by
  simp [lastNat]

theorem lastIppt_concat (k : IpptKey) (l : List Write) (w : Write) :
    lastIppt k (l ++ [w]) = (match w with
      | .ippt j c => if j = k then some c else lastIppt k l
      | _ => lastIppt k l) := by
  simp [lastIppt]

theorem lastIpConfig_concat (k : IpKey) (l : List Write) (w : Write) :
    lastIpConfig k (l ++ [w]) = (match w with
      | .ipConfig j v => if j = k then some v else lastIpConfig k l
      | _ => lastIpConfig k l) := by
  simp [lastIpConfig]

namespace Tables

/-- The tables hold the last accepted writes, and every entry can be named and read in full. -/
structure Holds (l : List Write) (t : Tables) : Prop where
  nat : t.nat = (lastNat l).getD true
  ippt : ∀ k, lastIppt k l = (t.ippt.get k).map toIppt
  ipptKeyed : ∀ k e, t.ippt.get k = some e → e.key = k ∧ e.fits
  ipConfig : ∀ k, lastIpConfig k l = (t.ipConfig.get (IpKey.wire k)).map IpConfigEntry.view
  ipConfigKeyed : ∀ k e, t.ipConfig.get k = some e → IpKey.wire e.ipKey = k ∧ e.fits

variable {l : List Write} {t : Tables}

theorem Holds.tellIppt (h : Holds l t) : Holds l t.tellIppt :=
  ⟨h.nat, h.ippt, h.ipptKeyed, h.ipConfig, h.ipConfigKeyed⟩

theorem Holds.tellIpConfig (h : Holds l t) : Holds l t.tellIpConfig :=
  ⟨h.nat, h.ippt, h.ipptKeyed, h.ipConfig, h.ipConfigKeyed⟩

theorem holds_clear (t : Tables) : Holds [] t.clear where
  nat := rfl
  ippt _ := rfl
  ipptKeyed _ _ h := by cases h
  ipConfig _ := rfl
  ipConfigKeyed _ _ h := by cases h

theorem Holds.setNat (h : Holds l t) (nat : Bool) : Holds (l ++ [.nat nat]) (t.setNat nat) where
  nat := by
    rw [lastNat_concat]
    rfl
  ippt k := by
    rw [lastIppt_concat]
    exact h.ippt k
  ipptKeyed := h.ipptKeyed
  ipConfig k := by
    rw [lastIpConfig_concat]
    exact h.ipConfig k
  ipConfigKeyed := h.ipConfigKeyed

theorem Holds.setIppt (h : Holds l t) {e : IpptEntry} (hfits : e.fits) :
    Holds (l ++ [e.write]) (t.setIppt e) where
  nat := by
    rw [lastNat_concat]
    exact h.nat
  ippt k := by
    simp only [lastIppt_concat, IpptEntry.write, Tables.setIppt, Dict.get_set, h.ippt, eq_comm]
    split_ifs <;> rfl
  ipptKeyed k x hx := by
    simp only [Tables.setIppt, Dict.get_set] at hx
    split_ifs at hx with hk
    · obtain rfl := Option.some.inj hx
      exact ⟨hk.symm, hfits⟩
    · exact h.ipptKeyed k x hx
  ipConfig k := by
    rw [lastIpConfig_concat]
    exact h.ipConfig k
  ipConfigKeyed := h.ipConfigKeyed

theorem Holds.setIpConfig (h : Holds l t) {e : IpConfigEntry} (hvalid : e.valid = true)
    (hfits : e.fits) : Holds (l ++ [e.write]) (t.setIpConfig e) where
  nat := by
    rw [lastNat_concat]
    exact h.nat
  ippt k := by
    rw [lastIppt_concat]
    exact h.ippt k
  ipptKeyed := h.ipptKeyed
  ipConfig k := by
    have hkey : IpKey.wire k = e.key ↔ e.ipKey = k := by
      rw [← IpConfigEntry.wire_ipKey hvalid]
      exact ⟨fun hk => (IpKey.wire_inj hk).symm, fun hk => by rw [hk]⟩
    simp only [lastIpConfig_concat, IpConfigEntry.write, Tables.setIpConfig, Dict.get_set, hkey,
      h.ipConfig]
    split_ifs <;> rfl
  ipConfigKeyed k x hx := by
    simp only [Tables.setIpConfig, Dict.get_set] at hx
    split_ifs at hx with hk
    · obtain rfl := Option.some.inj hx
      exact ⟨(IpConfigEntry.wire_ipKey hvalid).trans hk.symm, hfits⟩
    · exact h.ipConfigKeyed k x hx

theorem Holds.foldl_setIppt (h : Holds l t) {entries : List IpptEntry}
    (hfits : ∀ e ∈ entries, e.fits) :
    Holds (l ++ entries.map IpptEntry.write) (entries.foldl (fun t e => t.setIppt e) t) := by
  induction entries generalizing l t with
  | nil => simpa using h
  | cons e entries ih =>
    have hnext := ih (h.setIppt (hfits e (by simp))) (fun x hx => hfits x (by simp [hx]))
    simpa using hnext

theorem Holds.foldl_setIpConfig (h : Holds l t) {entries : List IpConfigEntry}
    (hvalid : ∀ e ∈ entries, e.valid = true) (hfits : ∀ e ∈ entries, e.fits) :
    Holds (l ++ entries.map IpConfigEntry.write)
      (entries.foldl (fun t e => t.setIpConfig e) t) := by
  induction entries generalizing l t with
  | nil => simpa using h
  | cons e entries ih =>
    have hnext := ih (h.setIpConfig (hvalid e (by simp)) (hfits e (by simp)))
      (fun x hx => hvalid x (by simp [hx])) (fun x hx => hfits x (by simp [hx]))
    simpa using hnext

theorem told_tell (t : Tables) : Told t.tellIppt.tellIpConfig := ⟨rfl, rfl⟩

theorem ipConfig_foldl_setIppt (entries : List IpptEntry) (t : Tables) :
    (entries.foldl (fun t e => t.setIppt e) t).ipConfig = t.ipConfig ∧
      (entries.foldl (fun t e => t.setIppt e) t).ipConfigHeard = t.ipConfigHeard :=
  have hkeeps : ∀ {γ : Type} {g : Tables → γ}, (∀ t e, g (t.setIppt e) = g t) →
      g (entries.foldl (fun t e => t.setIppt e) t) = g t :=
    fun h => NetSettingsAO.foldl_keeps h entries t
  ⟨hkeeps (fun _ _ => rfl), hkeeps (fun _ _ => rfl)⟩

theorem ippt_foldl_setIpConfig (entries : List IpConfigEntry) (t : Tables) :
    (entries.foldl (fun t e => t.setIpConfig e) t).nat = t.nat ∧
      (entries.foldl (fun t e => t.setIpConfig e) t).ippt = t.ippt ∧
      (entries.foldl (fun t e => t.setIpConfig e) t).ipptHeard = t.ipptHeard :=
  have hkeeps : ∀ {γ : Type} {g : Tables → γ}, (∀ t e, g (t.setIpConfig e) = g t) →
      g (entries.foldl (fun t e => t.setIpConfig e) t) = g t :=
    fun h => NetSettingsAO.foldl_keeps h entries t
  ⟨hkeeps (fun _ _ => rfl), hkeeps (fun _ _ => rfl), hkeeps (fun _ _ => rfl)⟩

end Tables

open NetSettingsAO (Turn)

theorem NetSettingsAO.Turn.holds {t t' : Tables} {l l' : List Write} {e : SettingsEvent}
    (h : Turn t l e t' l') (hfits : e.fits) (ht : t.Holds l) : t'.Holds l' := by
  cases h with
  | same e => exact ht
  | setIppt e => exact (ht.setIppt hfits).tellIppt
  | setNat nat => exact (ht.setNat nat).tellIppt
  | setIpConfig e hvalid => exact (ht.setIpConfig hvalid hfits).tellIpConfig
  | restore => exact (Tables.holds_clear t).tellIppt.tellIpConfig
  | forceIppt nat entries =>
    cases nat with
    | none =>
      have hsame : t.setNat (Option.getD none t.nat) = t := rfl
      rw [hsame, Option.toList_none, List.map_nil, List.append_nil]
      exact (ht.foldl_setIppt hfits).tellIppt
    | some b => exact ((ht.setNat b).foldl_setIppt hfits).tellIppt
  | forceIpConfig entries hvalid => exact (ht.foldl_setIpConfig hvalid hfits).tellIpConfig
  | tell => exact ht.tellIppt.tellIpConfig

theorem NetSettingsAO.Turn.told {t t' : Tables} {l l' : List Write} {e : SettingsEvent}
    (h : Turn t l e t' l') (ht : t.Told) : t'.Told := by
  cases h with
  | same e => exact ht
  | setIppt e => exact ⟨rfl, ht.ipConfig⟩
  | setNat nat => exact ⟨rfl, ht.ipConfig⟩
  | setIpConfig e hvalid => exact ⟨ht.ippt, rfl⟩
  | restore => exact Tables.told_tell _
  | forceIppt nat entries =>
    obtain ⟨htable, hheard⟩ :=
      Tables.ipConfig_foldl_setIppt entries (t.setNat (nat.getD t.nat))
    refine ⟨rfl, ?_⟩
    simp only [Tables.tellIppt, htable, hheard]
    exact ht.ipConfig
  | forceIpConfig entries hvalid =>
    obtain ⟨hnat, htable, hheard⟩ := Tables.ippt_foldl_setIpConfig entries t
    refine ⟨?_, rfl⟩
    simp only [Tables.tellIpConfig, hnat, htable, hheard]
    exact ht.ippt
  | tell => exact Tables.told_tell _

/-! ### The two ends and what is between them -/

structure MirrorNet where
  modem : NetSettingsAO
  manager : SettingsManager
  /-- Every request sent so far. -/
  sent : List SettingsCall
  /-- Where in the publications the sync stands that was taken in last. -/
  seenIppt : Option ℕ
  seenIpConfig : Option ℕ
  /-- The writes accepted since the last restore. -/
  writes : List Write

namespace MirrorNet

def start (slotId : ℤ) (backhaulPref : List BackhaulType) : MirrorNet :=
  ⟨.start slotId backhaulPref, .create, [], none, none, []⟩

inductive Label
  | call (c : SettingsCall)
  | take (i : ℕ)
  | modem (e : SettingsEvent)
  | deliver (i : ℕ)
  | linkDown

def note (i : ℕ) (x : SettingsPub) (s : MirrorNet) : MirrorNet :=
  match x with
  | .ipptSync _ _ => { s with seenIppt := some i }
  | .ipConfigSync _ => { s with seenIpConfig := some i }
  | _ => s

def call (c : SettingsCall) (s : MirrorNet) : MirrorNet :=
  match c.publishes s.manager with
  | .error _ => s
  | .ok _ => { s with sent := s.sent ++ [c] }

def take (c : SettingsCall) (s : MirrorNet) : MirrorNet :=
  { s with
    modem := s.modem.handle (.request c.request)
    writes := if s.modem.accepts c.request then c.record s.writes else s.writes }

def step (s : MirrorNet) : Label → Option MirrorNet
  | .call c => some (s.call c)
  | .take i => (s.sent[i]?).map (fun c => s.take c)
  | .modem e => some { s with modem := s.modem.handle e, writes := s.modem.record s.writes e }
  | .deliver i => (s.modem.published[i]?).map (fun x =>
      { s with manager := s.manager.handle x }.note i x)
  | .linkDown => some { s with manager := s.manager.linkDown }

/-! ### Reads -/

def isIpptSync : SettingsPub → Bool
  | .ipptSync _ _ => true
  | _ => false

def isIpConfigSync : SettingsPub → Bool
  | .ipConfigSync _ => true
  | _ => false

/-- `i` is the place of the latest element of a kind. -/
def latest {α : Type*} (kind : α → Bool) (l : List α) (i : ℕ) : Bool :=
  l[i]?.any kind && (l.drop (i + 1)).all (fun x => !kind x)

/-- The manager is ready, and the syncs it has taken in last are the latest. -/
def upToDate (s : MirrorNet) : Bool :=
  s.manager.ready && s.seenIppt.any (latest isIpptSync s.modem.published) &&
    s.seenIpConfig.any (latest isIpConfigSync s.modem.published)

/-- Every read returns the last value accepted for its key, or says that there is none. -/
structure ReadsAccepted (s : MirrorNet) : Prop where
  nat : s.manager.getIpPassThroughNatConfig = .ok ((lastNat s.writes).getD true)
  ippt : ∀ p, s.manager.getIpPassThroughConfig p =
    (lastIppt p.key s.writes).elim (.error .invalidArguments) .ok
  ipConfig : ∀ p, (s.manager.getIpConfig p).map IpConfig.view =
    (lastIpConfig p.key s.writes).elim (.error .invalidArguments) .ok

theorem asInt_toInt (b : BitVec 32) : asInt b.toInt = b.toInt := by
  rw [asInt, BitVec.ofInt_toInt]

theorem asInt_eq_toInt_iff {v : ℤ} {b : BitVec 32} (hlow : -1 ≤ v) (hhigh : v < 2 ^ 32 - 1) :
    asInt v = b.toInt ↔ v = if b = -1 then -1 else (b.toNat : ℤ) := by
  rw [asInt, BitVec.toInt_inj]
  have hb := b.isLt
  constructor
  · rintro rfl
    by_cases hv : v = -1
    · subst hv
      rfl
    · have hnat : ((BitVec.ofInt 32 v).toNat : ℤ) = v := by
        rw [BitVec.toNat_ofInt]
        omega
      have hne : BitVec.ofInt 32 v ≠ -1 := by
        intro h
        rw [h] at hnat
        have hone : ((-1 : BitVec 32).toNat : ℤ) = 2 ^ 32 - 1 := by decide
        omega
      rw [if_neg hne, hnat]
  · rintro rfl
    split_ifs with h
    · rw [h]
      rfl
    · rw [BitVec.ofInt_natCast, BitVec.ofNat_toNat, BitVec.setWidth_eq]

theorem view_toIpConfig {e : IpConfigEntry} (h : e.fits) : (toIpConfig e).view = e.view := by
  simp only [IpConfig.view, toIpConfig, IpConfigEntry.view, h.2.2]

theorem get_ipptMirror {t : Tables} {l : List Write} (h : t.Holds l) (p : IpptParams) :
    (Dict.ofList (t.ippt.values.map (fun e =>
      ((asInt e.profileId, asInt e.vlanId, asInt e.slot), toIppt e)))).get p.key =
      lastIppt p.key l := by
  rw [h.ippt]
  refine Dict.get_ofList_values t.ippt _ toIppt ?_
  intro j e he
  obtain ⟨hkey, hprofile, hvlan, hslot⟩ := h.ipptKeyed j e he
  rw [hprofile, hvlan, hslot, ← hkey]
  rfl

theorem get_ipConfigMirror {t : Tables} {l : List Write} (h : t.Holds l) (p : IpConfigParams) :
    ((Dict.ofList (t.ipConfig.values.map (fun e =>
      ((toIfaceType e.ifType, toIpFamily e.ipFamily, asInt (e.vlanId.getD (-1))),
        toIpConfig e)))).get (p.ifType, p.ipFamilyType, p.vlanId.toInt)).map IpConfig.view =
      lastIpConfig p.key l := by
  have hread := Dict.get_ofList_values t.ipConfig
    (fun e => (toIfaceType e.ifType, toIpFamily e.ipFamily, asInt (e.vlanId.getD (-1)))) toIpConfig
    (k := IpKey.wire p.key) (c := (p.ifType, p.ipFamilyType, p.vlanId.toInt)) ?_
  · rw [hread, h.ipConfig, Option.map_map]
    cases hget : t.ipConfig.get (IpKey.wire p.key) with
    | none => rfl
    | some e => exact congrArg some (view_toIpConfig (h.ipConfigKeyed _ e hget).2)
  · intro j e he
    obtain ⟨hkey, hlow, hhigh, hmask⟩ := h.ipConfigKeyed j e he
    have hwire : j = IpKey.wire p.key ↔ e.ipKey = p.key := by
      rw [← hkey]
      exact ⟨IpKey.wire_inj, fun heq => by rw [heq]⟩
    rw [hwire]
    simp only [IpConfigEntry.ipKey, IpConfigParams.key, Prod.mk.injEq,
      asInt_eq_toInt_iff hlow hhigh]

/-! ### What a call says on the wire -/

theorem getD_wireVlan (b : BitVec 32) :
    (if b ≠ -1 then some (b.toNat : ℤ) else none).getD (-1) =
      if b = -1 then -1 else (b.toNat : ℤ) := by
  by_cases h : b = -1
  · rw [if_neg (not_not.mpr h), if_pos h]
    rfl
  · rw [if_pos h, if_neg h]
    rfl

theorem getD_wireMask (b : BitVec 32) :
    (if b ≠ 0 then some (b.toNat : ℤ) else none).getD 0 = b.toNat := by
  by_cases h : b = 0
  · rw [if_neg (not_not.mpr h), h]
    rfl
  · rw [if_pos h]
    rfl

theorem toIfaceType_wire (t : InterfaceType) :
    toIfaceType ((if t ≠ .unknown then some (fromIfaceType t) else none).getD "") = t := by
  cases t <;> decide

theorem record_request (c : SettingsCall) (l : List Write) : c.request.record l = c.record l := by
  cases c with
  | setIpPassThroughConfig p c =>
    simp only [SettingsCall.request, SettingsRequest.record, SettingsCall.record, IpptEntry.write,
      IpptEntry.key, IpptParams.key, toIppt, fromIppt, toIfaceType_wire, getD_nonempty,
      toOperation_fromOperation]
  | setIpPassThroughNatConfig e => rfl
  | setIpConfig p c =>
    simp only [SettingsCall.request, SettingsRequest.record, SettingsCall.record,
      IpConfigEntry.write, IpConfigEntry.ipKey, IpConfigParams.key, IpConfigEntry.view,
      IpConfig.view, fromIpConfig, getD_wireVlan, getD_wireMask, getD_nonempty,
      toIfaceType_fromIfaceType, toIpFamily_fromIpFamily, toIpType_fromIpType,
      toIpOperation_fromIpOperation]
  | restoreFactorySettings => rfl

theorem request_fits (c : SettingsCall) : (SettingsEvent.request c.request).fits := by
  cases c with
  | setIpPassThroughConfig p c =>
    refine ⟨asInt_toInt _, ?_, asInt_toInt _⟩
    have hlow := p.vlanId.le_toInt
    have hhigh := p.vlanId.toInt_lt
    rw [asInt, BitVec.toInt_ofInt]
    exact Int.bmod_eq_of_le (by simp [fromIppt]; omega) (by simp [fromIppt]; omega)
  | setIpPassThroughNatConfig e => trivial
  | setIpConfig p c =>
    have hvlan := p.vlanId.isLt
    have hmask := c.ifMask.isLt
    simp only [SettingsCall.request, SettingsEvent.fits, IpConfigEntry.fits, fromIpConfig,
      getD_wireVlan, getD_wireMask]
    refine ⟨?_, ?_, ?_⟩
    · split_ifs <;> omega
    · split_ifs with h
      · omega
      · have hne : p.vlanId.toNat ≠ 2 ^ 32 - 1 := by
          intro heq
          exact h (BitVec.eq_of_toNat_eq heq)
        omega
    · rw [BitVec.ofInt_natCast, BitVec.ofNat_toNat, BitVec.setWidth_eq]
  | restoreFactorySettings => trivial

/-! ### Runs -/

theorem published_foldl_setIppt (entries : List IpptEntry) (m : NetSettingsAO) :
    (entries.foldl (fun m e => m.setIppt e) m).published = m.published :=
  NetSettingsAO.foldl_keeps (f := fun m e => m.setIppt e) (g := NetSettingsAO.published)
    (fun _ _ => rfl) entries m

theorem published_foldl_setIpConfig (entries : List IpConfigEntry) (m : NetSettingsAO) :
    (entries.foldl (fun m e => m.setIpConfig e) m).published = m.published :=
  NetSettingsAO.foldl_keeps (f := fun m e => m.setIpConfig e) (g := NetSettingsAO.published)
    (fun _ _ => rfl) entries m

theorem prefix_published (m : NetSettingsAO) (e : SettingsEvent) :
    m.published <+: (m.handle e).published := by
  have hpub : ∀ (x : SettingsPub) (n : NetSettingsAO), m.published <+: n.published →
      m.published <+: (n.pub x).published :=
    fun x n h => h.trans (List.prefix_append _ _)
  have hrsp : ∀ (n : NetSettingsAO) (d : SettingsRsp), n.published = m.published →
      m.published <+: (n.pubRsp d).published :=
    fun n d h => hpub _ n (h ▸ List.prefix_rfl)
  unfold NetSettingsAO.handle
  split
  · exact List.prefix_rfl
  · cases e with
    | request q =>
      cases q with
      | restoreFactorySettings => exact hpub _ _ (hpub _ _ (hrsp _ _ rfl))
      | setBackhaulPref pref =>
        simp only [NetSettingsAO.dispatchMessage, NetSettingsAO.handleSetBhPref]
        split <;> exact hrsp _ _ rfl
      | setBandInterference enable config =>
        simp only [NetSettingsAO.dispatchMessage, NetSettingsAO.handleSetBand]
        split <;> exact hrsp _ _ rfl
      | setWwanConnectivity slot allow =>
        simp only [NetSettingsAO.dispatchMessage, NetSettingsAO.handleSetWwan]
        split
        · exact hpub _ _ (hrsp _ _ rfl)
        · exact hrsp _ _ rfl
      | switchBackhaul source dest =>
        simp only [NetSettingsAO.dispatchMessage, NetSettingsAO.handleSwitchBh]
        split <;> exact hrsp _ _ rfl
      | requestDdsSwitch slot ddsType =>
        simp only [NetSettingsAO.dispatchMessage, NetSettingsAO.handleDdsSwitch]
        split
        · exact hrsp _ _ rfl
        · exact hpub _ _ (hrsp _ _ rfl)
      | setIpptConfig e =>
        simp only [NetSettingsAO.dispatchMessage, NetSettingsAO.handleSetIppt]
        split
        · exact hrsp _ _ rfl
        · exact hpub _ _ (hrsp _ _ rfl)
      | setIpptNatConfig nat => exact hpub _ _ (hrsp _ _ rfl)
      | setIpConfig e =>
        simp only [NetSettingsAO.dispatchMessage, NetSettingsAO.handleSetIpConfig]
        split
        · exact hrsp _ _ rfl
        · exact hpub _ _ (hrsp _ _ rfl)
      | requestBackhaulPref | requestBandInterference | requestWwanConnectivity | setMacsecState |
        requestMacsecState | requestCurrentDds => exact hrsp _ _ rfl
    | forceWwanConnectivity | forceDds => exact hpub _ _ List.prefix_rfl
    | forceIpptConfig nat entries =>
      refine hpub _ _ ?_
      rw [published_foldl_setIppt]
      exact List.prefix_rfl
    | forceIpConfig entries =>
      refine hpub _ _ ?_
      rw [published_foldl_setIpConfig]
    | resubscribe => exact hpub _ _ (hpub _ _ (hpub _ _ List.prefix_rfl))

/-- The mirrors are what the syncs taken in last say. -/
structure Mirrored (s : MirrorNet) : Prop where
  ippt : ∀ i, s.seenIppt = some i → ∃ nat entries,
    s.modem.published[i]? = some (.ipptSync nat entries) ∧ s.manager.ipptNatEnabled = nat ∧
      s.manager.ipptMirror = Dict.ofList (entries.map (fun e =>
        ((asInt e.profileId, asInt e.vlanId, asInt e.slot), toIppt e)))
  ipConfig : ∀ i, s.seenIpConfig = some i → ∃ entries,
    s.modem.published[i]? = some (.ipConfigSync entries) ∧
      s.manager.ipConfigMirror = Dict.ofList (entries.map (fun e =>
        ((toIfaceType e.ifType, toIpFamily e.ipFamily, asInt (e.vlanId.getD (-1))),
          toIpConfig e)))

structure Consistent (s : MirrorNet) : Prop where
  holds : s.modem.tables.Holds s.writes
  told : s.modem.tables.Told
  mirrored : s.Mirrored

theorem consistent_start (slotId : ℤ) (backhaulPref : List BackhaulType) :
    Consistent (start slotId backhaulPref) where
  holds := Tables.holds_clear ⟨true, .empty, .empty, some (true, []), some []⟩
  told := Tables.told_tell ⟨true, .empty, .empty, none, none⟩
  mirrored := by
    refine ⟨?_, ?_⟩
    · intro i hi
      cases hi
    · intro i hi
      cases hi

theorem Mirrored.modem {s s' : MirrorNet} (h : s.Mirrored)
    (hpre : s.modem.published <+: s'.modem.published) (hmanager : s'.manager = s.manager)
    (hippt : s'.seenIppt = s.seenIppt) (hip : s'.seenIpConfig = s.seenIpConfig) :
    s'.Mirrored := by
  have hkeep : ∀ {i : ℕ} {x : SettingsPub}, s.modem.published[i]? = some x →
      s'.modem.published[i]? = some x := by
    intro i x hx
    obtain ⟨l, hl⟩ := hpre
    rw [← hl, List.getElem?_append_left (List.getElem?_eq_some_iff.mp hx).1]
    exact hx
  refine ⟨?_, ?_⟩
  · intro i hi
    obtain ⟨nat, entries, hx, hnat, hmirror⟩ := h.ippt i (hippt ▸ hi)
    exact ⟨nat, entries, hkeep hx, hmanager ▸ hnat, hmanager ▸ hmirror⟩
  · intro i hi
    obtain ⟨entries, hx, hmirror⟩ := h.ipConfig i (hip ▸ hi)
    exact ⟨entries, hkeep hx, hmanager ▸ hmirror⟩

theorem Mirrored.deliver {s : MirrorNet} (h : s.Mirrored) {i : ℕ} {x : SettingsPub}
    (hx : s.modem.published[i]? = some x) :
    Mirrored ({ s with manager := s.manager.handle x }.note i x) := by
  cases x with
  | ipptSync nat entries =>
    refine ⟨?_, fun j hj => h.ipConfig j hj⟩
    intro j hj
    obtain rfl : i = j := Option.some.inj hj
    exact ⟨nat, entries, hx, rfl, rfl⟩
  | ipConfigSync entries =>
    refine ⟨fun j hj => h.ippt j hj, ?_⟩
    intro j hj
    obtain rfl : i = j := Option.some.inj hj
    exact ⟨entries, hx, rfl⟩
  | rsp | wwanChanged | ddsChanged | subsysReady => exact ⟨h.ippt, h.ipConfig⟩

/-- A forced entry, or one of another client, can be named and read by the manager. -/
def Fits (_ : MirrorNet) : Label → Prop
  | .modem e => e.fits
  | _ => True

theorem Consistent.step {s s' : MirrorNet} {a : Label} (h : s.Consistent) (hfits : Fits s a)
    (hstep : s.step a = some s') : s'.Consistent := by
  cases a with
  | call c =>
    obtain rfl := Option.some.inj hstep
    unfold MirrorNet.call
    split
    · exact h
    · exact ⟨h.holds, h.told, h.mirrored.modem List.prefix_rfl rfl rfl rfl⟩
  | take i =>
    obtain ⟨c, hc, rfl⟩ := Option.map_eq_some_iff.mp hstep
    have hturn := s.modem.handle_turn (.request c.request) s.writes
    have hrecord : s.modem.record s.writes (.request c.request) = (s.take c).writes := by
      simp only [NetSettingsAO.record, take, record_request]
      split
      · next hvalid =>
        have hnot : s.modem.accepts c.request = false := by
          simp [NetSettingsAO.accepts, NetSettingsAO.handle, hvalid]
        rw [if_neg (by simp [hnot])]
      · rfl
    rw [hrecord] at hturn
    exact ⟨hturn.holds (request_fits c) h.holds, hturn.told h.told,
      h.mirrored.modem (prefix_published _ _) rfl rfl rfl⟩
  | modem e =>
    obtain rfl := Option.some.inj hstep
    have hturn := s.modem.handle_turn e s.writes
    exact ⟨hturn.holds hfits h.holds, hturn.told h.told,
      h.mirrored.modem (prefix_published _ _) rfl rfl rfl⟩
  | deliver i =>
    obtain ⟨x, hx, rfl⟩ := Option.map_eq_some_iff.mp hstep
    have hsame : ({ s with manager := s.manager.handle x }.note i x).modem = s.modem ∧
        ({ s with manager := s.manager.handle x }.note i x).writes = s.writes := by
      cases x <;> exact ⟨rfl, rfl⟩
    refine ⟨?_, ?_, h.mirrored.deliver hx⟩
    · rw [hsame.1, hsame.2]
      exact h.holds
    · rw [hsame.1]
      exact h.told
  | linkDown =>
    obtain rfl := Option.some.inj hstep
    exact ⟨h.holds, h.told, h.mirrored.ippt, h.mirrored.ipConfig⟩

/-- What the latest of a kind says is what has been heard of it. -/
theorem foldl_of_latest {α β : Type*} {kind : α → Bool} {hear : Option β → α → Option β}
    (hquiet : ∀ o x, kind x = false → hear o x = o) {l : List α} {i : ℕ} {x : α} {b : β}
    (hx : l[i]? = some x) (hsaid : ∀ o, hear o x = some b) (hlatest : latest kind l i = true) :
    l.foldl hear none = some b := by
  induction l using List.reverseRecOn with
  | nil => cases hx
  | append_singleton l y ih =>
    rw [List.foldl_append, List.foldl_cons, List.foldl_nil]
    obtain ⟨hi, -⟩ := List.getElem?_eq_some_iff.mp hx
    rw [List.length_append, List.length_singleton] at hi
    by_cases hend : i = l.length
    · subst hend
      obtain rfl : y = x := by simpa using hx
      exact hsaid _
    · have hlt : i < l.length := by omega
      rw [latest, List.getElem?_append_left hlt, List.drop_append_of_le_length hlt,
        List.all_append, Bool.and_eq_true, Bool.and_eq_true] at hlatest
      obtain ⟨hkind, hafter, hy⟩ := hlatest
      rw [List.getElem?_append_left hlt] at hx
      rw [hquiet _ y (by simpa using hy)]
      refine ih hx ?_
      rw [latest, hkind, hafter]
      rfl

theorem hearIppt_of_not {o : Option (Bool × List IpptEntry)} {x : SettingsPub}
    (h : isIpptSync x = false) : NetSettingsAO.hearIppt o x = o := by
  cases x with
  | ipptSync => cases h
  | rsp | wwanChanged | ddsChanged | ipConfigSync | subsysReady => rfl

theorem hearIpConfig_of_not {o : Option (List IpConfigEntry)} {x : SettingsPub}
    (h : isIpConfigSync x = false) : NetSettingsAO.hearIpConfig o x = o := by
  cases x with
  | ipConfigSync => cases h
  | rsp | wwanChanged | ddsChanged | ipptSync | subsysReady => rfl

theorem Consistent.reads {s : MirrorNet} (h : s.Consistent) (hnow : s.upToDate = true) :
    s.ReadsAccepted := by
  simp only [upToDate, Bool.and_eq_true, Option.any_eq_true] at hnow
  obtain ⟨⟨hready, i, hi, hlatest⟩, j, hj, hlatest'⟩ := hnow
  obtain ⟨nat, entries, hx, hnat, hmirror⟩ := h.mirrored.ippt i hi
  obtain ⟨entries', hx', hmirror'⟩ := h.mirrored.ipConfig j hj
  -- both mirrors are of what is stored now
  have hheard := foldl_of_latest (fun _ _ => hearIppt_of_not) hx (fun _ => rfl) hlatest
  have hheard' := foldl_of_latest (fun _ _ => hearIpConfig_of_not) hx' (fun _ => rfl) hlatest'
  obtain ⟨rfl, rfl⟩ := Prod.mk.inj (Option.some.inj (hheard.symm.trans h.told.ippt))
  obtain rfl := Option.some.inj (hheard'.symm.trans h.told.ipConfig)
  have hready : ¬ s.manager.ready = false := by simp [hready]
  refine ⟨?_, ?_, ?_⟩
  · rw [SettingsManager.getIpPassThroughNatConfig, if_neg hready, hnat, h.holds.nat]
  · intro p
    have hget := get_ipptMirror h.holds p
    rw [IpptParams.key] at hget
    rw [SettingsManager.getIpPassThroughConfig, if_neg hready, hmirror, hget, IpptParams.key]
    cases lastIppt _ s.writes <;> rfl
  · intro p
    rw [SettingsManager.getIpConfig, if_neg hready, hmirror', ← get_ipConfigMirror h.holds p]
    cases (Dict.ofList _).get (p.ifType, p.ipFamilyType, p.vlanId.toInt) <;> rfl

/-- A call that the modem does not accept leaves the store and the accepted writes alone. -/
theorem take_rejected {s : MirrorNet} {c : SettingsCall}
    (h : s.modem.accepts c.request = false) :
    (s.take c).modem.store = s.modem.store ∧ (s.take c).writes = s.writes := by
  refine ⟨?_, by simp [take, h]⟩
  change (s.modem.handle (.request c.request)).store = s.modem.store
  unfold NetSettingsAO.accepts at h
  unfold NetSettingsAO.handle at h ⊢
  split
  · rfl
  · next hvalid =>
    rw [if_neg hvalid] at h
    cases c with
    | setIpPassThroughConfig p c =>
      simp only [SettingsCall.request, NetSettingsAO.dispatchMessage,
        NetSettingsAO.handleSetIppt] at h ⊢
      split
      · rfl
      · next hbad =>
        rw [if_neg hbad] at h
        simp [NetSettingsAO.publishIpptSync, NetSettingsAO.pubRsp, NetSettingsAO.pub,
          NetSettingsAO.setIppt, NetSettingsAO.setStore] at h
    | setIpPassThroughNatConfig e =>
      simp [SettingsCall.request, NetSettingsAO.dispatchMessage, NetSettingsAO.handleSetIpptNat,
        NetSettingsAO.publishIpptSync, NetSettingsAO.pubRsp, NetSettingsAO.pub,
        NetSettingsAO.setStore] at h
    | setIpConfig p c =>
      simp only [SettingsCall.request, NetSettingsAO.dispatchMessage,
        NetSettingsAO.handleSetIpConfig] at h ⊢
      split
      · rfl
      · next hbad =>
        rw [if_neg hbad] at h
        simp [NetSettingsAO.publishIpConfigSync, NetSettingsAO.pubRsp, NetSettingsAO.pub,
          NetSettingsAO.setIpConfig, NetSettingsAO.setStore] at h
    | restoreFactorySettings =>
      simp [SettingsCall.request, NetSettingsAO.dispatchMessage, NetSettingsAO.handleRestore,
        NetSettingsAO.publishIpptSync, NetSettingsAO.publishIpConfigSync, NetSettingsAO.pubRsp,
        NetSettingsAO.pub, NetSettingsAO.setStore] at h

/-- If every forced entry fits, then after any run, once the latest syncs have been taken in, the
reads return the writes accepted since the last restore, and a rejected write changes nothing. -/
theorem reads_accepted_writes {slotId : ℤ} {backhaulPref : List BackhaulType} {l : List Label}
    {s : MirrorNet} (hrun : Trace.run step (start slotId backhaulPref) l = some s)
    (hfits : Trace.AllSteps step Fits (start slotId backhaulPref) l) :
    (s.upToDate = true → s.ReadsAccepted) ∧
      ∀ c : SettingsCall, s.modem.accepts c.request = false →
        (s.take c).modem.store = s.modem.store ∧ (s.take c).writes = s.writes := by
  have hconsistent : s.Consistent :=
    Trace.run_invariant_of (fun _ _ _ h hok hstep => h.step hok hstep) hfits hrun
      (consistent_start slotId backhaulPref)
  exact ⟨hconsistent.reads, fun c => take_rejected⟩

/-- One write through the manager and one rejected, taken in by both sides. -/
def writeRun : List Label :=
  [.deliver 0, .deliver 1, .deliver 2,
    .call (.setIpConfig ⟨.eth, .ipv4, 7⟩ ⟨.staticIp, .enable, "10.0.0.2", 24, "", 0, "", ""⟩),
    .call (.setIpPassThroughConfig ⟨1, 7, 1⟩ ⟨.disable, .eth, ""⟩), .take 0, .take 1, .deliver 4]

theorem reads_accepted_writes_writeRun : ∃ s, Trace.run step (start 1 []) writeRun = some s ∧
    s.upToDate = true ∧ s.ReadsAccepted := by
  have hrun : (Trace.run step (start 1 []) writeRun).any (fun s => s.upToDate) = true := by
    decide +kernel
  simp only [Option.any_eq_true] at hrun
  obtain ⟨s, hs, hnow⟩ := hrun
  have hfits : Trace.AllSteps step Fits (start 1 []) writeRun := by
    simp [writeRun, Trace.AllSteps, Fits]
  exact ⟨s, hs, hnow, (reads_accepted_writes hs hfits).1 hnow⟩

/-- A forced VLAN of `2 ^ 32 + 5`. -/
def wideVlanRun : List Label :=
  [.modem (.forceIpConfig [⟨"ETH", "IPV4", some (2 ^ 32 + 5), "STATIC_IP", "ENABLE", none, none,
    none, none, none⟩]), .deliver 0, .deliver 1, .deliver 3]

/-- It is read back for VLAN 5, for which nothing has been written. -/
theorem wideVlan_misread : ∃ s, Trace.run step (start 1 []) wideVlanRun = some s ∧
    s.upToDate = true ∧ ¬ s.ReadsAccepted := by
  have hrun : (Trace.run step (start 1 []) wideVlanRun).any (fun s => s.upToDate &&
      decide (s.manager.getIpConfig ⟨.eth, .ipv4, 5⟩ =
        .ok ⟨.staticIp, .enable, "", 0, "", 0, "", ""⟩) &&
      decide (lastIpConfig (.eth, .ipv4, 5) s.writes = none)) = true := by
    decide +kernel
  simp only [Option.any_eq_true] at hrun
  obtain ⟨s, hs, hnow⟩ := hrun
  simp only [Bool.and_eq_true, decide_eq_true_eq] at hnow
  refine ⟨s, hs, hnow.1.1, ?_⟩
  intro h
  have hread := h.ipConfig ⟨.eth, .ipv4, 5⟩
  have hkey : IpConfigParams.key ⟨.eth, .ipv4, 5⟩ = (.eth, .ipv4, 5) := by decide
  rw [hnow.1.2, hkey, hnow.2] at hread
  cases hread

end MirrorNet

end TelafSim.Net
