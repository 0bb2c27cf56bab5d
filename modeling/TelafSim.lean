import TelafSim.HsmBalance
import TelafSim.StartUpDelivery
import TelafSim.PowerTimeout
import TelafSim.PowerRecord
import TelafSim.BridgeCallbacks
import TelafSim.DataAgreement
import TelafSim.CallTimers
import TelafSim.BridgeConnectivity
import TelafSim.BridgeOrder
import TelafSim.BridgeFilters
import TelafSim.BridgeIndications
import TelafSim.BridgeFence
import TelafSim.EcallTimers
import TelafSim.EcallWaiting
import TelafSim.EcallOrigins
import TelafSim.ScenarioAbort
import TelafSim.ScenarioAutoplay
import TelafSim.BridgeRouting
import TelafSim.BridgeOneway
import TelafSim.PowerAcks
import TelafSim.MqttLink
import TelafSim.MqttLifecycle
import TelafSim.CallOrder
import TelafSim.Dict
import TelafSim.NetWire
import TelafSim.NetVlan
import TelafSim.NetL2tp
import TelafSim.NetSettings
import TelafSim.NetMirror
import TelafSim.PyJson
import TelafSim.ProfileStore
import TelafSim.ProfilePersist
import TelafSim.SimIdentity
import TelafSim.DeferredPosts
import TelafSim.EcallSlots
import TelafSim.EcallRecords
import TelafSim.PowerRecords
import TelafSim.ScenarioRecords
import TelafSim.CallRecords
import TelafSim.TimerRecords
import TelafSim.DataCall
import TelafSim.DataCallSession
import TelafSim.DataCallOutline
import TelafSim.DataListeners
import TelafSim.Subscriptions
import TelafSim.SubscriptionsRestored
import TelafSim.BearerTech
import TelafSim.BearerAgreement
import TelafSim.TcuActivity
import TelafSim.WireEnvelope
import TelafSim.PyInt
import TelafSim.BearerSubnet
import TelafSim.SubnetsApart
import TelafSim.HsmIndexed
import TelafSim.HsmTotality
import TelafSim.PowerRound
import TelafSim.PowerDuplicates
import TelafSim.EcallRedial
import TelafSim.EcallActive
import TelafSim.EcallPull
import TelafSim.EcallConfig
import TelafSim.ScenarioStepDue
import TelafSim.Throughput
import TelafSim.Backoff
import TelafSim.KeySharing
import TelafSim.VlanBindings
import TelafSim.NetNat
import TelafSim.InitGate
import TelafSim.PascalCase
import TelafSim.RegistryLint
import TelafSim.RegistrySchema
import TelafSim.RegistryNames
import TelafSim.TimerService
import TelafSim.TimerSound
import TelafSim.TimerBooks
import TelafSim.TimeEvents
import TelafSim.ActiveObject
import TelafSim.Fabric
import TelafSim.DiningPhilosophers
import TelafSim.RadioManager
import TelafSim.SimManager
import TelafSim.WakeupFilter
import TelafSim.WakeupRelay
import TelafSim.CardMirror
import TelafSim.ProfileAgreement
