import TelafSim.NetVlan

/-!
# The settings of the modem

`NetSettingsAO` of `sml/mpss/net/settings.py` in its Ready state: the store, its fifteen requests,
the `force_*` actions and the indications it publishes. A message that does not pass its schema is
dropped before it reaches a handler. The entries of the two retained tables are kept as they came
over the wire.
-/

namespace TelafSim.Net

inductive DdsType
  | permanent
  | temporary
  deriving DecidableEq, Repr

structure BandConfig where
  n79First : Bool
  wlanWaitTimeInSec : Option ℤ
  n79WaitTimeInSec : Option ℤ
  deriving DecidableEq, Repr

/-- An entry of `set_ippt_config.req`, `force_ippt_config` and `ippt_config_sync.ind`. -/
structure IpptEntry where
  profileId : ℤ
  vlanId : ℤ
  slot : ℤ
  ipptOpr : String
  nwInterface : Option String
  macAddr : Option String
  deriving DecidableEq, Repr

/-- An entry of `set_ip_config.req`, `force_ip_config` and `ip_config_sync.ind`. -/
structure IpConfigEntry where
  ifType : String
  ipFamily : String
  vlanId : Option ℤ
  ipType : String
  ipOpr : String
  ifAddress : Option String
  ifMask : Option ℤ
  gwAddress : Option String
  primaryDnsAddress : Option String
  secondaryDnsAddress : Option String
  deriving DecidableEq, Repr

def ifaceNames : List String :=
  ["UNKNOWN", "WLAN", "ETH", "ECM", "RNDIS", "MHI", "VMTAP0", "VMTAP1", "ETH2", "AP_PRIMARY",
    "AP_SECONDARY", "AP_TERTIARY", "AP_QUATERNARY"]

def ipFamilyNames : List String := ["IPV4", "IPV6", "IPV4V6", "UNKNOWN"]

def ipptOprNames : List String := ["UNKNOWN", "DISABLE", "ENABLE"]

def ipTypeNames : List String := ["UNKNOWN", "STATIC_IP", "DYNAMIC_IP"]

def ipOprNames : List String := ["UNKNOWN", "DISABLE", "ENABLE", "RECONFIGURE"]

/-- The schema of an entry, the same in the request, the action and the indication. -/
def IpptEntry.valid (e : IpptEntry) : Bool :=
  0 ≤ e.slot ∧ e.ipptOpr ∈ ipptOprNames ∧ e.nwInterface.all (· ∈ ifaceNames)

def IpptEntry.key (e : IpptEntry) : ℤ × ℤ × ℤ := (e.profileId, e.vlanId, e.slot)

def IpConfigEntry.valid (e : IpConfigEntry) : Bool :=
  e.ifType ∈ ifaceNames ∧ e.ipFamily ∈ ipFamilyNames ∧ e.ipType ∈ ipTypeNames ∧
    e.ipOpr ∈ ipOprNames ∧ e.ifMask.all (0 ≤ ·)

def IpConfigEntry.key (e : IpConfigEntry) : String × String × ℤ :=
  (e.ifType, e.ipFamily, e.vlanId.getD (-1))

structure SettingsStore where
  backhaulPref : List BackhaulType
  bandEnabled : Bool
  bandConfig : Option BandConfig
  macsecEnabled : Bool
  wwanAllowed : Dict ℤ Bool
  ddsSlot : ℤ
  ddsType : DdsType
  ipptNatEnabled : Bool
  ipptEntries : Dict (ℤ × ℤ × ℤ) IpptEntry
  ipConfigEntries : Dict (String × String × ℤ) IpConfigEntry

namespace SettingsStore

/-- The constructor; a factory restore calls it with the slot only. -/
def create (slotId : ℤ) (backhaulPref : List BackhaulType) : SettingsStore where
  backhaulPref := backhaulPref
  bandEnabled := false
  bandConfig := none
  macsecEnabled := false
  wwanAllowed := .empty
  ddsSlot := slotId
  ddsType := .permanent
  ipptNatEnabled := true
  ipptEntries := .empty
  ipConfigEntries := .empty

def defaultWwanAllowed : Bool := true

def isWwanAllowed (slot : ℤ) (s : SettingsStore) : Bool :=
  (s.wwanAllowed.get slot).getD defaultWwanAllowed

end SettingsStore

inductive SettingsRequest
  | restoreFactorySettings
  | setBackhaulPref (pref : List BackhaulType)
  | requestBackhaulPref
  | setBandInterference (enable : Bool) (config : Option BandConfig)
  | requestBandInterference
  | setWwanConnectivity (slot : ℤ) (allow : Bool)
  | requestWwanConnectivity (slot : ℤ)
  | setMacsecState (enable : Bool)
  | requestMacsecState
  | switchBackhaul (source dest : BackhaulType)
  | requestDdsSwitch (slot : ℤ) (ddsType : DdsType)
  | requestCurrentDds
  | setIpptConfig (entry : IpptEntry)
  | setIpptNatConfig (enableNat : Bool)
  | setIpConfig (entry : IpConfigEntry)
  deriving DecidableEq, Repr

def SettingsRequest.valid : SettingsRequest → Bool
  | .setWwanConnectivity slot _ => 0 ≤ slot
  | .requestWwanConnectivity slot => 0 ≤ slot
  | .requestDdsSwitch slot _ => 0 ≤ slot
  | .setIpptConfig entry => entry.valid
  | .setIpConfig entry => entry.valid
  | _ => true

inductive SettingsRsp
  | done
  | backhaulPref (pref : List BackhaulType)
  | bandInterference (isEnabled : Bool) (config : Option BandConfig)
  | wwanConnectivity (slot : ℤ) (isAllowed : Bool)
  | macsecState (enabled : Bool)
  | currentDds (slot : ℤ) (ddsType : DdsType)
  | error (code : ErrorCode) (detail : String)
  deriving DecidableEq, Repr

/-- What is published; the two syncs and the readiness are retained. -/
inductive SettingsPub
  | rsp (data : SettingsRsp)
  | wwanChanged (slot : ℤ) (isConnectivityAllowed : Bool)
  | ddsChanged (slot : ℤ) (ddsType : DdsType)
  | ipptSync (natEnabled : Bool) (entries : List IpptEntry)
  | ipConfigSync (entries : List IpConfigEntry)
  | subsysReady (ready : Bool)
  deriving DecidableEq, Repr

inductive SettingsEvent
  | request (q : SettingsRequest)
  | forceWwanConnectivity (slot : ℤ) (isConnectivityAllowed : Bool)
  | forceDds (slot : ℤ) (ddsType : DdsType)
  | forceIpptConfig (natEnabled : Option Bool) (entries : List IpptEntry)
  | forceIpConfig (entries : List IpConfigEntry)
  | resubscribe
  deriving DecidableEq, Repr

def SettingsEvent.valid : SettingsEvent → Bool
  | .request q => q.valid
  | .forceWwanConnectivity slot _ => 0 ≤ slot
  | .forceDds slot _ => 0 ≤ slot
  | .forceIpptConfig _ entries => entries.all IpptEntry.valid
  | .forceIpConfig entries => entries.all IpConfigEntry.valid
  | .resubscribe => true

structure NetSettingsAO where
  slotId : ℤ
  store : SettingsStore
  /-- Everything published since the start, in order. -/
  published : List SettingsPub

namespace NetSettingsAO

def pub (x : SettingsPub) (m : NetSettingsAO) : NetSettingsAO :=
  { m with published := m.published ++ [x] }

def setStore (s : SettingsStore) (m : NetSettingsAO) : NetSettingsAO := { m with store := s }

def publishIpptSync (m : NetSettingsAO) : NetSettingsAO :=
  m.pub (.ipptSync m.store.ipptNatEnabled m.store.ipptEntries.values)

def publishIpConfigSync (m : NetSettingsAO) : NetSettingsAO :=
  m.pub (.ipConfigSync m.store.ipConfigEntries.values)

def pubRsp (data : SettingsRsp) (m : NetSettingsAO) : NetSettingsAO := m.pub (.rsp data)

def sendError (code : ErrorCode) (detail : String) (m : NetSettingsAO) : NetSettingsAO :=
  m.pubRsp (.error code detail)

/-- Ready is entered: the readiness first, then the two tables. -/
def start (slotId : ℤ) (backhaulPref : List BackhaulType) : NetSettingsAO :=
  ((NetSettingsAO.mk slotId (.create slotId backhaulPref) []).pub
    (.subsysReady true)).publishIpptSync.publishIpConfigSync

def doResubscribe (m : NetSettingsAO) : NetSettingsAO :=
  (m.pub (.subsysReady true)).publishIpptSync.publishIpConfigSync

def handleRestore (m : NetSettingsAO) : NetSettingsAO :=
  ((m.setStore (.create m.slotId [])).pubRsp .done).publishIpptSync.publishIpConfigSync

def handleSetBhPref (pref : List BackhaulType) (m : NetSettingsAO) : NetSettingsAO :=
  if ¬ pref.Nodup then
    m.sendError .invalidArguments "duplicate backhaul in preference list"
  else
    (m.setStore { m.store with backhaulPref := pref }).pubRsp .done

/-- The configuration is dropped when disabling. -/
def handleSetBand (enable : Bool) (config : Option BandConfig) (m : NetSettingsAO) :
    NetSettingsAO :=
  if enable = true ∧ config = none then
    m.sendError .invalidArguments "config is required when enabling interference management"
  else
    (m.setStore { m.store with
      bandEnabled := enable
      bandConfig := if enable then config else none }).pubRsp .done

def handleReqBand (m : NetSettingsAO) : NetSettingsAO :=
  m.pubRsp (.bandInterference m.store.bandEnabled
    (if m.store.bandEnabled then m.store.bandConfig else none))

def setWwan (slot : ℤ) (allow : Bool) (m : NetSettingsAO) : NetSettingsAO :=
  m.setStore { m.store with wwanAllowed := m.store.wwanAllowed.set slot allow }

/-- Only an actual change is announced. -/
def handleSetWwan (slot : ℤ) (allow : Bool) (m : NetSettingsAO) : NetSettingsAO :=
  if m.store.isWwanAllowed slot ≠ allow then
    ((m.setWwan slot allow).pubRsp .done).pub (.wwanChanged slot allow)
  else
    (m.setWwan slot allow).pubRsp .done

def handleReqWwan (slot : ℤ) (m : NetSettingsAO) : NetSettingsAO :=
  m.pubRsp (.wwanConnectivity slot (m.store.isWwanAllowed slot))

def handleSetMacsec (enable : Bool) (m : NetSettingsAO) : NetSettingsAO :=
  (m.setStore { m.store with macsecEnabled := enable }).pubRsp .done

def handleSwitchBh (source dest : BackhaulType) (m : NetSettingsAO) : NetSettingsAO :=
  if source = dest then
    m.sendError .invalidArguments "source and destination backhaul are identical"
  else
    m.pubRsp .done

def setDds (slot : ℤ) (ddsType : DdsType) (m : NetSettingsAO) : NetSettingsAO :=
  m.setStore { m.store with ddsSlot := slot, ddsType := ddsType }

def handleDdsSwitch (slot : ℤ) (ddsType : DdsType) (m : NetSettingsAO) : NetSettingsAO :=
  if ddsType = .permanent ∧ m.store.ddsType = .permanent ∧ m.store.ddsSlot = slot then
    m.sendError .operationNotAllowed s!"slot {slot} is already permanent DDS"
  else
    ((m.setDds slot ddsType).pubRsp .done).pub (.ddsChanged slot ddsType)

def handleCurrentDds (m : NetSettingsAO) : NetSettingsAO :=
  m.pubRsp (.currentDds m.store.ddsSlot m.store.ddsType)

def setIppt (e : IpptEntry) (m : NetSettingsAO) : NetSettingsAO :=
  m.setStore { m.store with ipptEntries := m.store.ipptEntries.set e.key e }

def setIpConfig (e : IpConfigEntry) (m : NetSettingsAO) : NetSettingsAO :=
  m.setStore { m.store with ipConfigEntries := m.store.ipConfigEntries.set e.key e }

def handleSetIppt (e : IpptEntry) (m : NetSettingsAO) : NetSettingsAO :=
  if e.ipptOpr = "DISABLE" ∧ (e.nwInterface.isSome ∨ e.macAddr.isSome) then
    m.sendError .invalidArguments "cannot modify device config while disabling IPPT"
  else
    ((m.setIppt e).pubRsp .done).publishIpptSync

def handleSetIpptNat (enableNat : Bool) (m : NetSettingsAO) : NetSettingsAO :=
  ((m.setStore { m.store with ipptNatEnabled := enableNat }).pubRsp .done).publishIpptSync

def handleSetIpConfig (e : IpConfigEntry) (m : NetSettingsAO) : NetSettingsAO :=
  if e.ipFamily = "IPV4V6" then
    m.sendError .notSupported "setIpConfig does not support IPV4V6; call once per family"
  else
    ((m.setIpConfig e).pubRsp .done).publishIpConfigSync

def applyForceWwan (slot : ℤ) (allow : Bool) (m : NetSettingsAO) : NetSettingsAO :=
  (m.setWwan slot allow).pub (.wwanChanged slot allow)

def applyForceDds (slot : ℤ) (ddsType : DdsType) (m : NetSettingsAO) : NetSettingsAO :=
  (m.setDds slot ddsType).pub (.ddsChanged slot ddsType)

def applyForceIppt (natEnabled : Option Bool) (entries : List IpptEntry) (m : NetSettingsAO) :
    NetSettingsAO :=
  (entries.foldl (fun m e => m.setIppt e)
    (m.setStore { m.store with
      ipptNatEnabled := natEnabled.getD m.store.ipptNatEnabled })).publishIpptSync

def applyForceIpConfig (entries : List IpConfigEntry) (m : NetSettingsAO) : NetSettingsAO :=
  (entries.foldl (fun m e => m.setIpConfig e) m).publishIpConfigSync

def dispatchMessage (m : NetSettingsAO) : SettingsRequest → NetSettingsAO
  | .restoreFactorySettings => m.handleRestore
  | .setBackhaulPref pref => m.handleSetBhPref pref
  | .requestBackhaulPref => m.pubRsp (.backhaulPref m.store.backhaulPref)
  | .setBandInterference enable config => m.handleSetBand enable config
  | .requestBandInterference => m.handleReqBand
  | .setWwanConnectivity slot allow => m.handleSetWwan slot allow
  | .requestWwanConnectivity slot => m.handleReqWwan slot
  | .setMacsecState enable => m.handleSetMacsec enable
  | .requestMacsecState => m.pubRsp (.macsecState m.store.macsecEnabled)
  | .switchBackhaul source dest => m.handleSwitchBh source dest
  | .requestDdsSwitch slot ddsType => m.handleDdsSwitch slot ddsType
  | .requestCurrentDds => m.handleCurrentDds
  | .setIpptConfig entry => m.handleSetIppt entry
  | .setIpptNatConfig enableNat => m.handleSetIpptNat enableNat
  | .setIpConfig entry => m.handleSetIpConfig entry

def handle (m : NetSettingsAO) (e : SettingsEvent) : NetSettingsAO :=
  if e.valid = false then m
  else
    match e with
    | .request q => m.dispatchMessage q
    | .forceWwanConnectivity slot allow => m.applyForceWwan slot allow
    | .forceDds slot ddsType => m.applyForceDds slot ddsType
    | .forceIpptConfig natEnabled entries => m.applyForceIppt natEnabled entries
    | .forceIpConfig entries => m.applyForceIpConfig entries
    | .resubscribe => m.doResubscribe

def step (m : NetSettingsAO) (e : SettingsEvent) : Option NetSettingsAO := some (m.handle e)

/-! ### What listeners have been told -/

/-- The data subscription as a listener has it. -/
def hearDds : ℤ × DdsType → SettingsPub → ℤ × DdsType
  | _, .ddsChanged slot ddsType => (slot, ddsType)
  | dds, _ => dds

/-- The permission of each slot as a listener has it. -/
def hearWwan : (ℤ → Bool) → SettingsPub → ℤ → Bool
  | wwan, .wwanChanged slot allowed => Function.update wwan slot allowed
  | wwan, _ => wwan

/-- What the two queries answer, beside what the indications so far have said. -/
@[ext] structure View where
  dds : ℤ × DdsType
  wwan : ℤ → Bool
  ddsHeard : ℤ × DdsType
  wwanHeard : ℤ → Bool

def view (m : NetSettingsAO) : View where
  dds := (m.store.ddsSlot, m.store.ddsType)
  wwan slot := m.store.isWwanAllowed slot
  ddsHeard := m.published.foldl hearDds (m.slotId, .permanent)
  wwanHeard := m.published.foldl hearWwan (fun _ => SettingsStore.defaultWwanAllowed)

structure Tracked (m : NetSettingsAO) : Prop where
  dds : m.view.dds = m.view.ddsHeard
  wwan : m.view.wwan = m.view.wwanHeard

theorem view_pub (x : SettingsPub) (m : NetSettingsAO) :
    (m.pub x).view = { m.view with
      ddsHeard := hearDds m.view.ddsHeard x
      wwanHeard := hearWwan m.view.wwanHeard x } := by
  simp [view, pub]

@[simp] theorem view_pubRsp (data : SettingsRsp) (m : NetSettingsAO) :
    (m.pubRsp data).view = m.view := view_pub _ m

@[simp] theorem view_sendError (code : ErrorCode) (detail : String) (m : NetSettingsAO) :
    (m.sendError code detail).view = m.view := view_pub _ m

@[simp] theorem view_publishIpptSync (m : NetSettingsAO) : m.publishIpptSync.view = m.view :=
  view_pub _ m

@[simp] theorem view_publishIpConfigSync (m : NetSettingsAO) :
    m.publishIpConfigSync.view = m.view := view_pub _ m

@[simp] theorem view_pub_subsysReady (ready : Bool) (m : NetSettingsAO) :
    (m.pub (.subsysReady ready)).view = m.view := view_pub _ m

theorem view_setStore (s : SettingsStore) (m : NetSettingsAO) :
    (m.setStore s).view = { m.view with
      dds := (s.ddsSlot, s.ddsType)
      wwan := fun slot => s.isWwanAllowed slot } := rfl

/-- A store that differs in the other settings only looks the same. -/
theorem view_setStore_of_eq {s : SettingsStore} {m : NetSettingsAO}
    (hslot : s.ddsSlot = m.store.ddsSlot) (htype : s.ddsType = m.store.ddsType)
    (hwwan : s.wwanAllowed = m.store.wwanAllowed) : (m.setStore s).view = m.view := by
  simp [view, setStore, SettingsStore.isWwanAllowed, hslot, htype, hwwan]

theorem view_setWwan (slot : ℤ) (allow : Bool) (m : NetSettingsAO) :
    (m.setWwan slot allow).view =
      { m.view with wwan := Function.update m.view.wwan slot allow } := by
  ext n
  · rfl
  · rfl
  · change ((m.store.wwanAllowed.set slot allow).get n).getD SettingsStore.defaultWwanAllowed =
      Function.update m.view.wwan slot allow n
    rw [Dict.get_set, Function.update_apply]
    split_ifs <;> rfl
  · rfl
  · rfl
  · rfl

@[simp] theorem view_setIppt (e : IpptEntry) (m : NetSettingsAO) : (m.setIppt e).view = m.view :=
  view_setStore_of_eq rfl rfl rfl

@[simp] theorem view_setIpConfig (e : IpConfigEntry) (m : NetSettingsAO) :
    (m.setIpConfig e).view = m.view := view_setStore_of_eq rfl rfl rfl

theorem foldl_keeps {σ β γ : Type*} {f : σ → β → σ} {g : σ → γ} (h : ∀ s b, g (f s b) = g s)
    (l : List β) (s : σ) : g (l.foldl f s) = g s := by
  induction l generalizing s with
  | nil => rfl
  | cons b l ih => rw [List.foldl_cons, ih, h]

theorem view_foldl_setIppt (entries : List IpptEntry) (m : NetSettingsAO) :
    (entries.foldl (fun m e => m.setIppt e) m).view = m.view :=
  foldl_keeps (fun m e => view_setIppt e m) entries m

theorem view_foldl_setIpConfig (entries : List IpConfigEntry) (m : NetSettingsAO) :
    (entries.foldl (fun m e => m.setIpConfig e) m).view = m.view :=
  foldl_keeps (fun m e => view_setIpConfig e m) entries m

/-- The settings that restore would reset silently are at their defaults. -/
def atDefaults (m : NetSettingsAO) : Prop :=
  m.view.dds = (m.slotId, .permanent) ∧ m.view.wwan = fun _ => SettingsStore.defaultWwanAllowed

/-- Factory settings are restored only when nothing that listeners follow differs from them. -/
def RestoresDefaults (m : NetSettingsAO) (e : SettingsEvent) : Prop :=
  e = .request .restoreFactorySettings → m.atDefaults

theorem Tracked.of_view {m m' : NetSettingsAO} (h : Tracked m) (hview : m'.view = m.view) :
    Tracked m' :=
  ⟨by rw [hview, h.dds], by rw [hview, h.wwan]⟩

theorem Tracked.tell_wwan {m m' : NetSettingsAO} (h : Tracked m) (slot : ℤ) (allow : Bool)
    (hview : m'.view = { m.view with wwan := Function.update m.view.wwan slot allow }) :
    Tracked (m'.pub (.wwanChanged slot allow)) := by
  refine ⟨?_, ?_⟩
  · rw [view_pub, hview]
    exact h.dds
  · rw [view_pub, hview]
    exact congrArg (Function.update · slot allow) h.wwan

theorem Tracked.handleSetWwan {m : NetSettingsAO} (h : Tracked m) (slot : ℤ) (allow : Bool) :
    Tracked (m.handleSetWwan slot allow) := by
  have hset := (view_pubRsp .done (m.setWwan slot allow)).trans (view_setWwan slot allow m)
  unfold NetSettingsAO.handleSetWwan
  split
  · exact h.tell_wwan slot allow hset
  · next hsame =>
    refine h.of_view (hset.trans ?_)
    have hnow : m.view.wwan slot = allow := not_not.mp hsame
    rw [← hnow, Function.update_eq_self]

theorem Tracked.applyForceWwan {m : NetSettingsAO} (h : Tracked m) (slot : ℤ) (allow : Bool) :
    Tracked (m.applyForceWwan slot allow) := h.tell_wwan slot allow (view_setWwan slot allow m)

theorem Tracked.applyForceDds {m : NetSettingsAO} (h : Tracked m) (slot : ℤ) (ddsType : DdsType) :
    Tracked (m.applyForceDds slot ddsType) :=
  ⟨by rw [NetSettingsAO.applyForceDds, view_pub]; rfl,
    by rw [NetSettingsAO.applyForceDds, view_pub]; exact h.wwan⟩

theorem Tracked.handleDdsSwitch {m : NetSettingsAO} (h : Tracked m) (slot : ℤ)
    (ddsType : DdsType) : Tracked (m.handleDdsSwitch slot ddsType) := by
  unfold NetSettingsAO.handleDdsSwitch
  split_ifs
  · exact h.of_view (view_sendError _ _ m)
  · refine ⟨?_, ?_⟩
    · rw [view_pub, view_pubRsp]
      rfl
    · rw [view_pub, view_pubRsp]
      exact h.wwan

theorem view_handleRestore (m : NetSettingsAO) :
    m.handleRestore.view = { m.view with
      dds := (m.slotId, .permanent)
      wwan := fun _ => SettingsStore.defaultWwanAllowed } := by
  rw [handleRestore, view_publishIpConfigSync, view_publishIpptSync, view_pubRsp, view_setStore]
  rfl

theorem tracked_handleRestore {m : NetSettingsAO} (h : Tracked m) :
    Tracked m.handleRestore ↔ m.atDefaults := by
  constructor
  · intro h'
    refine ⟨?_, ?_⟩
    · rw [h.dds]
      simpa [view_handleRestore] using h'.dds.symm
    · rw [h.wwan]
      simpa [view_handleRestore] using h'.wwan.symm
  · rintro ⟨hdds, hwwan⟩
    refine ⟨?_, ?_⟩
    · rw [view_handleRestore, ← h.dds, hdds]
    · rw [view_handleRestore, ← h.wwan, hwwan]

theorem Tracked.dispatchMessage {m : NetSettingsAO} (h : Tracked m) {q : SettingsRequest}
    (hq : q ≠ .restoreFactorySettings) : Tracked (m.dispatchMessage q) := by
  cases q with
  | restoreFactorySettings => exact absurd rfl hq
  | setBackhaulPref pref =>
    refine h.of_view ?_
    simp only [NetSettingsAO.dispatchMessage, handleSetBhPref]
    split
    · exact view_sendError _ _ m
    · exact (view_pubRsp _ _).trans (view_setStore_of_eq rfl rfl rfl)
  | setBandInterference enable config =>
    refine h.of_view ?_
    simp only [NetSettingsAO.dispatchMessage, handleSetBand]
    split
    · exact view_sendError _ _ m
    · exact (view_pubRsp _ _).trans (view_setStore_of_eq rfl rfl rfl)
  | setWwanConnectivity slot allow => exact h.handleSetWwan slot allow
  | setMacsecState enable =>
    exact h.of_view ((view_pubRsp _ _).trans (view_setStore_of_eq rfl rfl rfl))
  | switchBackhaul source dest =>
    refine h.of_view ?_
    simp only [NetSettingsAO.dispatchMessage, handleSwitchBh]
    split_ifs
    · exact view_sendError _ _ m
    · exact view_pubRsp _ m
  | requestDdsSwitch slot ddsType => exact h.handleDdsSwitch slot ddsType
  | setIpptConfig entry =>
    refine h.of_view ?_
    simp only [NetSettingsAO.dispatchMessage, handleSetIppt]
    split_ifs <;> simp
  | setIpptNatConfig enableNat =>
    refine h.of_view ?_
    simp only [NetSettingsAO.dispatchMessage, handleSetIpptNat, view_publishIpptSync, view_pubRsp]
    exact view_setStore_of_eq rfl rfl rfl
  | setIpConfig entry =>
    refine h.of_view ?_
    simp only [NetSettingsAO.dispatchMessage, handleSetIpConfig]
    split_ifs <;> simp
  | requestBackhaulPref | requestBandInterference | requestWwanConnectivity | requestMacsecState |
    requestCurrentDds => exact h.of_view (view_pubRsp _ m)

theorem tracked_handle {m : NetSettingsAO} (h : Tracked m) (e : SettingsEvent) :
    Tracked (m.handle e) ↔ RestoresDefaults m e := by
  unfold handle
  by_cases hvalid : e.valid = false
  · rw [if_pos hvalid]
    refine iff_of_true h ?_
    rintro rfl
    cases hvalid
  · rw [if_neg hvalid]
    cases e with
    | request q =>
      by_cases hq : q = .restoreFactorySettings
      · subst hq
        exact (tracked_handleRestore h).trans ⟨fun hdef _ => hdef, fun hdef => hdef rfl⟩
      · exact iff_of_true (h.dispatchMessage hq)
          (fun he => absurd (SettingsEvent.request.inj he) hq)
    | forceWwanConnectivity slot allow =>
      exact iff_of_true (h.applyForceWwan slot allow) (by simp [RestoresDefaults])
    | forceDds slot ddsType =>
      exact iff_of_true (h.applyForceDds slot ddsType) (by simp [RestoresDefaults])
    | forceIpptConfig natEnabled entries =>
      refine iff_of_true (h.of_view ?_) (by simp [RestoresDefaults])
      simp only [applyForceIppt, view_publishIpptSync, view_foldl_setIppt]
      exact view_setStore_of_eq rfl rfl rfl
    | forceIpConfig entries =>
      refine iff_of_true (h.of_view ?_) (by simp [RestoresDefaults])
      simp only [applyForceIpConfig, view_publishIpConfigSync, view_foldl_setIpConfig]
    | resubscribe =>
      exact iff_of_true (h.of_view (by simp [doResubscribe])) (by simp [RestoresDefaults])

theorem tracked_start (slotId : ℤ) (backhaulPref : List BackhaulType) :
    Tracked (start slotId backhaulPref) := ⟨rfl, rfl⟩

/-- Listeners can follow the data subscription and the permissions through a run if and only if
factory settings are restored only while these are at their defaults. -/
theorem tracked_throughout_iff (slotId : ℤ) (backhaulPref : List BackhaulType)
    (l : List SettingsEvent) :
    Trace.Always step Tracked (start slotId backhaulPref) l ↔
      Trace.AllSteps step RestoresDefaults (start slotId backhaulPref) l := by
  refine Trace.always_iff_allSteps_of_total (fun _ _ => rfl) ?_ l (tracked_start slotId backhaulPref)
  intro m e m' hm hstep
  obtain rfl : m.handle e = m' := Option.some.inj hstep
  exact (tracked_handle hm e).symm

/-- A permission is withdrawn and factory settings are restored: nobody is told. -/
def restoreRun : List SettingsEvent :=
  [.request (.setWwanConnectivity 1 false), .request .restoreFactorySettings]

theorem restore_untold : ¬ Trace.Always step Tracked (start 1 []) restoreRun := by
  intro h
  have hwwan := congrFun (((h.2 _ rfl).2 _ rfl : Tracked _).wwan) 1
  revert hwwan
  decide

end NetSettingsAO

end TelafSim.Net
