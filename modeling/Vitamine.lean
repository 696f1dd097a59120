import Vitamine.Common.TcpServer
import Vitamine.Lib.BitArray
import Vitamine.Lib.Log
import Vitamine.Lib.System
import Vitamine.Proxyd.Verdicts
import Vitamine.Proxyd.ProtocolState
import Vitamine.Proxyd.WorldAgreement
import Vitamine.Proxyd.Visibility
import Vitamine.Proxyd.Digging
import Vitamine.Proxyd.Relay
import Vitamine.Proxyd.ChunkStore
import Vitamine.Proxyd.Poses
import Vitamine.Proxyd.PlayerList
import Vitamine.Proxyd.Finality
import Vitamine.Proxyd.VarInt
import Vitamine.Proxyd.UuidWire
import Vitamine.Proxyd.Conversions
import Vitamine.Proxyd.Transition
import Vitamine.Proxyd.NbtCode
import Vitamine.Proxyd.PlayerInfo
import Vitamine.Proxyd.PayloadCode
import Vitamine.Proxyd.Alike
import Vitamine.Proxyd.Outgoing
import Vitamine.Proxyd.Simulation
import Vitamine.Proxyd.Deliverables
import Vitamine.Proxyd.Chat
import Vitamine.Proxyd.KeepAlive
import Vitamine.Proxyd.Terrain
import Vitamine.Proxyd.Incoming
import Vitamine.Proxyd.Rulings
import Vitamine.Proxyd.Locks
