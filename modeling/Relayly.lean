import Relayly.Proofs.GoPeer
import Relayly.Proofs.GoNonce
import Relayly.Proofs.GoDeliver
import Relayly.Proofs.SdkPin
import Relayly.Proofs.SdkSlots
import Relayly.Relay.Hub
import Relayly.Proofs.RelayStep
import Relayly.Proofs.RelayGhost
import Relayly.Lib.Ownership
import Relayly.Proofs.RelayRouting
import Relayly.Proofs.RelayPresence
import Relayly.Proofs.RelayWelcome
import Relayly.Proofs.RelayCodes
import Relayly.Proofs.RelayOrder
import Relayly.Lib.Table
import Relayly.Relay.Table
import Relayly.Proofs.TableCalls
import Relayly.Proofs.TableAtomic
import Relayly.Proofs.RelayRevoke
import Relayly.Proofs.RelayKeys
import Relayly.Go.Peers
import Relayly.Lib.Mirror
import Relayly.Link
import Relayly.Proofs.Link
import Relayly.PeerFile
import Relayly.Proofs.PeerFile
import Relayly.NoiseXX.Handshake
import Relayly.Proofs.NoiseXX
import Relayly.Lib.Agree
import Relayly.Lib.Hkdf
import Relayly.NoiseXX.Primitives
import Relayly.Proofs.NoisePorts
import Relayly.Lib.Migrate
import Relayly.Relay.Migrations
import Relayly.Proofs.Migrations
import Relayly.Proofs.RelayLoss
import Relayly.Proofs.GoFresh
import Relayly.Proofs.RelayAccept
import Relayly.Proofs.RelaySelf
import Relayly.Go.Waiters
import Relayly.Lib.OneShot
import Relayly.Proofs.GoWaiters
import Relayly.Dial
import Relayly.Proofs.Dial
import Relayly.Proofs.SdkGate
import Relayly.Proofs.Token
import Relayly.Lib.Uri
import Relayly.Sdk.ConnectUrl
import Relayly.Proofs.ConnectUrl
import Relayly.Lib.Lockstep
import Relayly.NoiseXX.Transport
import Relayly.Proofs.NoiseTransport
import Relayly.Proofs.MigrateRows
import Relayly.Lib.OnDemand
import Relayly.Relay.RateLimit
import Relayly.Proofs.RateLimit
import Relayly.Lib.Json
import Relayly.Sdk.WireMessage
import Relayly.Proofs.WireMessage
import Relayly.Lib.GoJson
import Relayly.Relay.Frame
import Relayly.Proofs.RelayFrame
import Relayly.Go.LoadPeers
import Relayly.Proofs.GoPersist
import Relayly.Sdk.CppStore
import Relayly.Proofs.CppStore
import Relayly.Proofs.NoiseNonces
import Relayly.Proofs.TokenBucket
import Relayly.Sdk.RustTime
import Relayly.Proofs.RustTime
import Relayly.Sdk.RustPairing
import Relayly.Proofs.RustPairing
import Relayly.Sdk.Emitter
import Relayly.Proofs.Emitter
import Relayly.Proofs.RelayRest
import Relayly.Proofs.RelayConsent
import Relayly.Sdk.Transport
import Relayly.Proofs.Transport
import Relayly.Lib.HashChain
import Relayly.Proofs.NoiseAgree
import Relayly.Proofs.NoiseStream
import Relayly.Relay.WritePump
import Relayly.Proofs.RelayWrite
import Relayly.Relay.Register
import Relayly.Proofs.RelayRegister
import Relayly.Proofs.SdkRekey
import Relayly.Proofs.RateBound
import Relayly.Sdk.CppPairing
import Relayly.Proofs.CppPairing
import Relayly.ControlFrames
import Relayly.Proofs.ControlFrames
