import GameNetwork.Lib.Bytes
import GameNetwork.Lib.Words
import GameNetwork.Lib.Framing
import GameNetwork.Lib.Run
import GameNetwork.Lib.Lanes
import GameNetwork.Lib.Pieces
import GameNetwork.Lib.Queues
import GameNetwork.Lib.Atomic
import GameNetwork.Utils.ThreadSafeQueue
import GameNetwork.Buffer.ByteOrder
import GameNetwork.Buffer.Buffer
import GameNetwork.Buffer.Refinement
import GameNetwork.Message.BaseMessage
import GameNetwork.Message.Messages
import GameNetwork.Message.Frame
import GameNetwork.Message.Encoding
import GameNetwork.Message.HeaderExits
import GameNetwork.Message.CanonicalFrames
import GameNetwork.Message.AppendedFrames
import GameNetwork.Network.GameConnection
import GameNetwork.Network.FrameDecoder
import GameNetwork.Network.FrameSafety
import GameNetwork.Network.TcpConnection
import GameNetwork.Network.Stream
import GameNetwork.Network.MsgDispatcher
import GameNetwork.Network.DispatchOrder
import GameNetwork.Network.TracedDispatch
import GameNetwork.Network.NewMessage
import GameNetwork.Network.SendPath
import GameNetwork.Network.Lifecycle
import GameNetwork.Network.Channel
import GameNetwork.GameServer.GameServer
import GameNetwork.GameServer.RoleRouting
import GameNetwork.GameServer.ConnectionTable
import GameNetwork.GameServer.GameServerExample
import GameNetwork.GameServer.RoomThreads
import GameNetwork.GameServer.Lockstep
import GameNetwork.GameServer.LateJoiner
import GameNetwork.GameServer.GameStart
import GameNetwork.GameServer.FrameOrder
import GameNetwork.GameServer.RoomMembership
import GameNetwork.GameServer.MKServer
import GameNetwork.GameServer.OwnRole
import GameNetwork.GameClient.SyncRequests
import GameNetwork.GameClient.GameController
import GameNetwork.GameClient.DueInputs
import GameNetwork.GameClient.GameClient
import GameNetwork.GameClient.PlayerState
import GameNetwork.GameClient.ConnectedClient
import GameNetwork.Session.Session
import GameNetwork.Session.Mail
import GameNetwork.Session.Room
import GameNetwork.Session.Players
import GameNetwork.Session.Simulation
import GameNetwork.Session.Delivery
import GameNetwork.Session.Faults
import GameNetwork.Session.Playback
import GameNetwork.Session.Carried
import GameNetwork.Session.EndToEnd
import GameNetwork.Session.Start
import GameNetwork.Session.Outcome
