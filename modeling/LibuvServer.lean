import LibuvServer.Auth.LateReplies
import LibuvServer.Database.Contexts
import LibuvServer.Database.GuestCache
import LibuvServer.Database.Queries
import LibuvServer.Database.QueryTables
import LibuvServer.Database.RedisReplies
import LibuvServer.Database.RequestMemory
import LibuvServer.Deployment.ClientAnswers
import LibuvServer.Deployment.Deployment
import LibuvServer.Deployment.GuestIdentity
import LibuvServer.Deployment.GuestMessages
import LibuvServer.Deployment.LoginService
import LibuvServer.Deployment.LoginsServed
import LibuvServer.Deployment.Traffic
import LibuvServer.Encryption.AcceptKeys
import LibuvServer.Gateway.Accounts
import LibuvServer.Gateway.BackendAnswers
import LibuvServer.Gateway.ClientTags
import LibuvServer.Gateway.Forwarding
import LibuvServer.Gateway.LoginAnswers
import LibuvServer.Gateway.Logouts
import LibuvServer.Gateway.OpenSessions
import LibuvServer.Gateway.OutgoingConnects
import LibuvServer.Http.Pieces
import LibuvServer.Http.RequestPieces
import LibuvServer.Lib.RequestReply
import LibuvServer.Lib.Varint
import LibuvServer.Mylua.LiveMessages
import LibuvServer.Mylua.RepeatCounts
import LibuvServer.Mylua.SentMessages
import LibuvServer.Mylua.TagViews
import LibuvServer.Netbus.CommandBlocks
import LibuvServer.Netbus.CommandCodec
import LibuvServer.Netbus.Datagrams
import LibuvServer.Netbus.Disconnected
import LibuvServer.Netbus.HandshakeKeys
import LibuvServer.Netbus.Listener
import LibuvServer.Netbus.PendingWrites
import LibuvServer.Netbus.Resources
import LibuvServer.Netbus.TcpBuffers
import LibuvServer.Netbus.TcpReassembly
import LibuvServer.Protobuf.Accepted
import LibuvServer.Protobuf.Merging
import LibuvServer.Protobuf.Messages
import LibuvServer.Protobuf.Protocol
import LibuvServer.Protobuf.RoundTrips
import LibuvServer.Protobuf.UnknownFields
import LibuvServer.Protobuf.WireFormat
import LibuvServer.Utils.Logger
import LibuvServer.Utils.PoolIntegrity
