import Mathlib.Tactic

/-!
# The data call a client holds

`SimulaDataCall` of `DataConnectionManager.cpp` with its mutators, and the decoding of call_state
indications into it. An absent field of an indication is read as the source's default.
-/

namespace TelafSim.Data

inductive DataCallStatus
  | invalid
  | netConnected
  | netNoNet
  | netIdle
  | netConnecting
  | netDisconnecting
  | netReconfigured
  | netNewAddr
  | netDelAddr
  deriving DecidableEq, Repr

def wireToCallStatus (s : String) : DataCallStatus :=
  if s = "CONNECTED" then .netConnected
  else if s = "NO_NET" then .netNoNet
  else if s = "CONNECTING" then .netConnecting
  else if s = "DISCONNECTING" then .netDisconnecting
  else if s = "RECONFIGURED" then .netReconfigured
  else if s = "NEWADDR" then .netNewAddr
  else if s = "DELADDR" then .netDelAddr
  else .netIdle

/-- The members a wire value can name. -/
inductive DataBearerTechnology
  | unknown
  | cdma1x
  | evdoRev0
  | wcdma
  | lte
  | gsm
  | bearerTech5g
  deriving DecidableEq, Repr

def wireToBearerTech (s : String) : DataBearerTechnology :=
  if s = "GSM" then .gsm
  else if s = "WCDMA" then .wcdma
  else if s = "LTE" then .lte
  else if s = "BEARER_TECH_5G" then .bearerTech5g
  else if s = "CDMA_1X" then .cdma1x
  else if s = "EVDO_REV0" then .evdoRev0
  else .unknown

inductive IpFamilyType
  | unknown
  | ipv4
  | ipv6
  | ipv4v6
  deriving DecidableEq, Repr

def ipFamilyToWire : IpFamilyType → String
  | .ipv4 => "IPV4"
  | .ipv6 => "IPV6"
  | _ => "IPV4V6"

inductive OperationType
  | dataLocal
  | dataRemote
  deriving DecidableEq, Repr

def opTypeToWire (t : OperationType) : String :=
  if t = .dataRemote then "DATA_REMOTE" else "DATA_LOCAL"

def ceUnknown : ℤ := 0xFF

def ceInternal : ℤ := 0x02

def ce3gppSpecDefined : ℤ := 0x06

/-- `code` is the member of the union that goes with the type, when it was set. -/
structure DataCallEndReason where
  type : ℤ := ceUnknown
  code : Option ℤ := none
  deriving DecidableEq

/-- The `end_reason` of an indication. -/
structure EndReason where
  type : Option ℤ
  code : Option ℤ
  deriving DecidableEq

def decodeEndReason (obj : EndReason) : DataCallEndReason :=
  let type := obj.type.getD 0xFF
  { type := type
    code := if type = ce3gppSpecDefined ∨ type = ceInternal then some (obj.code.getD 0) else none }

structure IpAddrInfo where
  ifAddress : String := ""
  ifMask : ℕ := 0
  gwAddress : String := ""
  gwMask : ℕ := 0
  primaryDnsAddress : String := ""
  secondaryDnsAddress : String := ""
  deriving DecidableEq

structure IpFamilyInfo where
  status : DataCallStatus := .invalid
  addr : IpAddrInfo := {}
  deriving DecidableEq

/-- The `ipv4` or `ipv6` block of an indication. -/
structure AddrBlock where
  ifAddress : Option String
  gwAddress : Option String
  primaryDnsAddress : Option String
  secondaryDnsAddress : Option String
  subnetMask : Option String
  deriving DecidableEq

/-- A decimal octet without leading zeros. -/
def octet (digits : List Char) : Option ℕ :=
  let n := digits.foldl (fun n c => 10 * n + (c.toNat - '0'.toNat)) 0
  if digits ≠ [] ∧ digits.all Char.isDigit ∧ (digits.head? = some '0' → digits.length = 1) ∧ n ≤ 255
  then some n else none

/-- `inet_pton` for IPv4, which reads up to a NUL. -/
def inetPton (s : String) : Option (List ℕ) :=
  let parts := (s.toList.takeWhile (· ≠ Char.ofNat 0)).splitOn '.'
  if parts.length = 4 then parts.mapM octet else none

/-- The octets in network byte order, as a little-endian host reads them. -/
def subnetMaskToIfMask (s : String) : ℕ :=
  ((inetPton s).getD []).foldr (fun b n => b + 256 * n) 0

def AddrBlock.addr (a : AddrBlock) : IpAddrInfo where
  ifAddress := a.ifAddress.getD ""
  gwAddress := a.gwAddress.getD ""
  primaryDnsAddress := a.primaryDnsAddress.getD ""
  secondaryDnsAddress := a.secondaryDnsAddress.getD ""

/-- The data of a call_state indication. -/
structure CallStateData where
  status : Option String
  ifname : Option String
  ipv4 : Option AddrBlock
  ipv6 : Option AddrBlock
  bearerTech : Option String
  endReason : Option EndReason
  deriving DecidableEq

def CallStateData.callStatus (data : CallStateData) : DataCallStatus :=
  wireToCallStatus (data.status.getD "")

/-- An item of `calls` in the answer to list_data_call. -/
structure ListedCall where
  profileId : Option ℤ
  status : Option String
  deriving DecidableEq

structure AnswerData where
  ifname : Option String
  calls : Option (List ListedCall)
  deriving DecidableEq

inductive Answer
  | error (code : Option String)
  | ok (data : Option AnswerData)
  deriving DecidableEq

/-- The profile and the slot, which no one changes, are left out. -/
structure SimulaDataCall where
  ipFamilyType : IpFamilyType
  interfaceName : String
  bearerTech : DataBearerTechnology := .unknown
  status : DataCallStatus := .netIdle
  endReason : DataCallEndReason := {}
  ipv4 : IpFamilyInfo := {}
  ipv6 : IpFamilyInfo := {}
  deriving DecidableEq

namespace SimulaDataCall

/-- Going down applies to both families, being down to the bearer as well. -/
def setStatus (status : DataCallStatus) (call : SimulaDataCall) : SimulaDataCall :=
  let call := { call with status := status }
  let call :=
    if status = .netDisconnecting ∨ status = .netNoNet then
      { call with
        ipv4 := { call.ipv4 with status := status }
        ipv6 := { call.ipv6 with status := status } }
    else call
  if status = .netNoNet then { call with bearerTech := .unknown } else call

def setEndReason (reason : DataCallEndReason) (call : SimulaDataCall) : SimulaDataCall :=
  { call with endReason := reason }

def setIpv4 (info : IpFamilyInfo) (call : SimulaDataCall) : SimulaDataCall :=
  { call with ipv4 := info }

def setIpv6 (info : IpFamilyInfo) (call : SimulaDataCall) : SimulaDataCall :=
  { call with ipv6 := info }

def setInterfaceName (name : String) (call : SimulaDataCall) : SimulaDataCall :=
  { call with interfaceName := name }

def setBearerTech (bearer : DataBearerTechnology) (call : SimulaDataCall) : SimulaDataCall :=
  { call with bearerTech := bearer }

/-- Only the IPv4 block carries a mask. -/
def applyAddrInfo (data : CallStateData) (status : DataCallStatus) (call : SimulaDataCall) :
    SimulaDataCall :=
  let call :=
    match data.ipv4 with
    | none => call
    | some a =>
      let mask := (a.subnetMask.map subnetMaskToIfMask).getD 0
      call.setIpv4 ⟨status, { a.addr with ifMask := mask }⟩
  match data.ipv6 with
  | none => call
  | some a => call.setIpv6 ⟨status, a.addr⟩

/-- The masks are not compared. -/
def addrInfoDiffers (data : CallStateData) (call : SimulaDataCall) : Bool :=
  let differs (a : AddrBlock) (cur : IpAddrInfo) : Bool :=
    a.addr.ifAddress ≠ cur.ifAddress || a.addr.gwAddress ≠ cur.gwAddress ||
      a.addr.primaryDnsAddress ≠ cur.primaryDnsAddress ||
      a.addr.secondaryDnsAddress ≠ cur.secondaryDnsAddress
  data.ipv4.any (differs · call.ipv4.addr) || data.ipv6.any (differs · call.ipv6.addr)

/-- How a listener sees a call that is gone. -/
structure Down (call : SimulaDataCall) : Prop where
  status : call.status = .netNoNet
  ipv4 : call.ipv4.status = .netNoNet
  ipv6 : call.ipv6.status = .netNoNet
  bearer : call.bearerTech = .unknown

@[simp] theorem setStatus_status (status : DataCallStatus) (call : SimulaDataCall) :
    (call.setStatus status).status = status := by
  unfold setStatus
  split_ifs <;> rfl

@[simp] theorem applyAddrInfo_status (data : CallStateData) (status : DataCallStatus)
    (call : SimulaDataCall) : (call.applyAddrInfo data status).status = call.status := by
  unfold applyAddrInfo
  cases data.ipv4 <;> cases data.ipv6 <;> rfl

@[simp] theorem setStatus_interfaceName (status : DataCallStatus) (call : SimulaDataCall) :
    (call.setStatus status).interfaceName = call.interfaceName := by
  unfold setStatus
  split_ifs <;> rfl

@[simp] theorem applyAddrInfo_interfaceName (data : CallStateData) (status : DataCallStatus)
    (call : SimulaDataCall) :
    (call.applyAddrInfo data status).interfaceName = call.interfaceName := by
  unfold applyAddrInfo
  cases data.ipv4 <;> cases data.ipv6 <;> rfl

theorem down_setStatus (call : SimulaDataCall) : (call.setStatus .netNoNet).Down :=
  ⟨rfl, rfl, rfl, rfl⟩

theorem Down.setEndReason {call : SimulaDataCall} (h : call.Down) (reason : DataCallEndReason) :
    (call.setEndReason reason).Down := ⟨h.status, h.ipv4, h.ipv6, h.bearer⟩

end SimulaDataCall

end TelafSim.Data
