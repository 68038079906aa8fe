import SimpleMessenger.Foundations.CMemory
import SimpleMessenger.Foundations.StepSystem
import SimpleMessenger.Foundations.BoundedQueue
import SimpleMessenger.Foundations.AtomicObject
import SimpleMessenger.Foundations.Mutex
import SimpleMessenger.Foundations.StopAndWait
import SimpleMessenger.Foundations.NamedQueues
import SimpleMessenger.Foundations.SqlText
import SimpleMessenger.Foundations.RotatingQueue
import SimpleMessenger.Foundations.HandleLedger
import SimpleMessenger.Foundations.LittleEndian
import SimpleMessenger.Foundations.TextInput
import SimpleMessenger.Foundations.ProtobufWire
import SimpleMessenger.Common.Defines
import SimpleMessenger.Common.CircularBuffer
import SimpleMessenger.Common.BufferIndexing
import SimpleMessenger.Common.SharedBuffer
import SimpleMessenger.Common.MessageProcessing
import SimpleMessenger.Common.CodecReuse
import SimpleMessenger.Common.TypedPayload
import SimpleMessenger.Common.EnvelopeWire
import SimpleMessenger.Common.EndpointBase
import SimpleMessenger.Common.UdpDatagrams
import SimpleMessenger.Common.EnvelopeSize
import SimpleMessenger.Common.UdpRuns
import SimpleMessenger.Common.AckQueue
import SimpleMessenger.Common.UdpFlows
import SimpleMessenger.Common.Reception
import SimpleMessenger.Common.MalformedDatagrams
import SimpleMessenger.Common.UdpCrossing
import SimpleMessenger.Common.UdpDelivery
import SimpleMessenger.Common.UdpSender
import SimpleMessenger.Common.UdpLifetime
import SimpleMessenger.Common.UdpAcknowledgement
import SimpleMessenger.Common.TcpEndpointBase
import SimpleMessenger.Common.ThreadManager
import SimpleMessenger.Common.TaskExecution
import SimpleMessenger.Common.PoolProgress
import SimpleMessenger.Server.PsqlManager
import SimpleMessenger.Server.QueryIntegrity
import SimpleMessenger.Server.PsqlHandles
import SimpleMessenger.Server.ConcurrentLogins
import SimpleMessenger.Server.Authentification
import SimpleMessenger.Server.Accounts
import SimpleMessenger.Server.OnlineClients
import SimpleMessenger.Server.Shutdown
import SimpleMessenger.Server.Connections
import SimpleMessenger.Server.CheckMail
import SimpleMessenger.Server.MailRelay
import SimpleMessenger.Server.AccountRelay
import SimpleMessenger.Server.GrpcServer
import SimpleMessenger.Server.GrpcRuns
import SimpleMessenger.Server.UnaryCalls
import SimpleMessenger.Server.Relay
import SimpleMessenger.Server.Delivery
import SimpleMessenger.Server.Streams
import SimpleMessenger.Server.Acceptance
import SimpleMessenger.Server.Posting
import SimpleMessenger.Client.SendLoop
import SimpleMessenger.Client.GrpcClient
import SimpleMessenger.System.Messenger
import SimpleMessenger.System.Conversation
import SimpleMessenger.System.Credentials
import SimpleMessenger.System.Progress
import SimpleMessenger.System.Arrival
