import AsyncTcpSock.Reentrant.Machine
import AsyncTcpSock.System
import AsyncTcpSock.WriteSpace
import AsyncTcpSock.StreamOrder
import AsyncTcpSock.Silence
import AsyncTcpSock.Pairing
import AsyncTcpSock.DnsAnswers
import AsyncTcpSock.WaitingForDns
import AsyncTcpSock.DescriptorOwnership
import AsyncTcpSock.StateAgreement
import AsyncTcpSock.Mutexes
import AsyncTcpSock.OpenClients
import AsyncTcpSock.Lifetime
import AsyncTcpSock.Readiness
import AsyncTcpSock.ErrorCallback
import AsyncTcpSock.WriteReturn
import AsyncTcpSock.AddInterleaving
import AsyncTcpSock.WritePaths
import AsyncTcpSock.SocketAddress
import AsyncTcpSock.TlsHandshake
import AsyncTcpSock.TlsObjects
import AsyncTcpSock.WriteLoop
import AsyncTcpSock.TlsPsk
import AsyncTcpSock.TlsFailClosed
import AsyncTcpSock.TlsTimeout
import AsyncTcpSock.Freeable
import AsyncTcpSock.AckTimeout
import AsyncTcpSock.RxTimeout
import AsyncTcpSock.Accepting
import AsyncTcpSock.Registry
import AsyncTcpSock.PublicCalls
import AsyncTcpSock.Worker
import AsyncTcpSock.Selecting
import AsyncTcpSock.Continuity
import AsyncTcpSock.Rounds
import AsyncTcpSock.Settling
import AsyncTcpSock.Isolation
import AsyncTcpSock.Flushing
import AsyncTcpSock.Schedule
import AsyncTcpSock.CallbackProtocol
import AsyncTcpSock.Durations
import AsyncTcpSock.TlsCallOrder
import AsyncTcpSock.HandOver
import AsyncTcpSock.CallbackContract
