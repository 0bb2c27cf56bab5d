import Mathlib.Tactic

/-!
# Spellings of the net domain on the wire

The enumerations of `WireEnums.hpp` and of `DataSettingsManager.cpp` with the two directions of
their mappings. A name that is not known decodes to the member the source falls back to.
-/

namespace TelafSim.Net

inductive InterfaceType
  | unknown
  | wlan
  | eth
  | ecm
  | rndis
  | mhi
  | vmtap0
  | vmtap1
  | eth2
  | apPrimary
  | apSecondary
  | apTertiary
  | apQuaternary
  deriving DecidableEq, Repr

def fromIfaceType : InterfaceType → String
  | .wlan => "WLAN"
  | .eth => "ETH"
  | .ecm => "ECM"
  | .rndis => "RNDIS"
  | .mhi => "MHI"
  | .vmtap0 => "VMTAP0"
  | .vmtap1 => "VMTAP1"
  | .eth2 => "ETH2"
  | .apPrimary => "AP_PRIMARY"
  | .apSecondary => "AP_SECONDARY"
  | .apTertiary => "AP_TERTIARY"
  | .apQuaternary => "AP_QUATERNARY"
  | .unknown => "UNKNOWN"

def toIfaceType (s : String) : InterfaceType :=
  if s = "WLAN" then .wlan
  else if s = "ETH" then .eth
  else if s = "ECM" then .ecm
  else if s = "RNDIS" then .rndis
  else if s = "MHI" then .mhi
  else if s = "VMTAP0" then .vmtap0
  else if s = "VMTAP1" then .vmtap1
  else if s = "ETH2" then .eth2
  else if s = "AP_PRIMARY" then .apPrimary
  else if s = "AP_SECONDARY" then .apSecondary
  else if s = "AP_TERTIARY" then .apTertiary
  else if s = "AP_QUATERNARY" then .apQuaternary
  else .unknown

@[simp] theorem toIfaceType_fromIfaceType (t : InterfaceType) :
    toIfaceType (fromIfaceType t) = t := by
  cases t <;> decide

/-- Without the count sentinel `MAX_SUPPORTED`, which the schemas have no name for. -/
inductive BackhaulType
  | eth
  | usb
  | wlan
  | wwan
  | ble
  deriving DecidableEq, Repr

def fromBackhaul : BackhaulType → String
  | .eth => "ETH"
  | .usb => "USB"
  | .wlan => "WLAN"
  | .wwan => "WWAN"
  | .ble => "BLE"

inductive IpFamilyType
  | unknown
  | ipv4
  | ipv6
  | ipv4v6
  deriving DecidableEq, Repr

def fromIpFamily : IpFamilyType → String
  | .ipv4 => "IPV4"
  | .ipv6 => "IPV6"
  | .ipv4v6 => "IPV4V6"
  | .unknown => "UNKNOWN"

def toIpFamily (s : String) : IpFamilyType :=
  if s = "IPV4" then .ipv4
  else if s = "IPV6" then .ipv6
  else if s = "IPV4V6" then .ipv4v6
  else .unknown

@[simp] theorem toIpFamily_fromIpFamily (t : IpFamilyType) : toIpFamily (fromIpFamily t) = t := by
  cases t <;> decide

inductive Operation
  | unknown
  | disable
  | enable
  deriving DecidableEq, Repr

def fromOperation : Operation → String
  | .enable => "ENABLE"
  | .disable => "DISABLE"
  | .unknown => "UNKNOWN"

def toOperation (s : String) : Operation :=
  if s = "ENABLE" then .enable else if s = "DISABLE" then .disable else .unknown

@[simp] theorem toOperation_fromOperation (t : Operation) : toOperation (fromOperation t) = t := by
  cases t <;> decide

inductive IpAssignType
  | unknown
  | staticIp
  | dynamicIp
  deriving DecidableEq, Repr

def fromIpType : IpAssignType → String
  | .staticIp => "STATIC_IP"
  | .dynamicIp => "DYNAMIC_IP"
  | .unknown => "UNKNOWN"

def toIpType (s : String) : IpAssignType :=
  if s = "STATIC_IP" then .staticIp else if s = "DYNAMIC_IP" then .dynamicIp else .unknown

@[simp] theorem toIpType_fromIpType (t : IpAssignType) : toIpType (fromIpType t) = t := by
  cases t <;> decide

inductive IpAssignOperation
  | unknown
  | disable
  | enable
  | reconfigure
  deriving DecidableEq, Repr

def fromIpOperation : IpAssignOperation → String
  | .enable => "ENABLE"
  | .disable => "DISABLE"
  | .reconfigure => "RECONFIGURE"
  | .unknown => "UNKNOWN"

def toIpOperation (s : String) : IpAssignOperation :=
  if s = "ENABLE" then .enable
  else if s = "DISABLE" then .disable
  else if s = "RECONFIGURE" then .reconfigure
  else .unknown

@[simp] theorem toIpOperation_fromIpOperation (t : IpAssignOperation) :
    toIpOperation (fromIpOperation t) = t := by
  cases t <;> decide

end TelafSim.Net
