import AsyncTcpSock.WriteQueueBuffer

/-!
# Clients

The state of a client (the fields of `SocketConnection` and `ClientBase`) and the parts of its
member functions that neither call the operating system nor invoke a callback.

A client also carries the history of what happened to it, newest event first. Nothing computes
with the history: it is what properties of runs are stated about.
-/

namespace AsyncTcpSock

/-- A DNS query that `dns_gethostbyname` has accepted for later. Queries of a client are numbered,
so that two queries for one host and port differ. -/
structure DnsQuery where
  /-- The number of the query. -/
  id : ℕ
  /-- The name that was asked for. -/
  host : String
  /-- The port to connect to when the answer has come. -/
  port : UInt16
  deriving DecidableEq, Repr

/-- The calls user code makes on a client. A null data pointer is `none`. -/
inductive Call where
  | connectIP (ip : IPAddress) (port : UInt16)
  | connectHost (host : String) (port : UInt16)
  | close
  | abort
  | add (data : Option (List UInt8)) (flags : ClientApiFlags)
  | send
  | write (data : Option (List UInt8)) (flags : ClientApiFlags)
  | setAckTimeout (timeout : Option Time)
  | setRxTimeout (timeout : Option Time)
  deriving DecidableEq, Repr

/-- The calls that ask for a connection, or for its end. -/
def Call.isControl : Call → Bool
  | connectIP _ _ | connectHost _ _ | close | abort => true
  | _ => false

/-- The calls that ask for a connection. -/
def Call.isConnect : Call → Bool
  | connectIP _ _ | connectHost _ _ => true
  | _ => false

/-- The member functions of a client that the manager calls. -/
inductive Handler where
  | writeable
  | readable
  | delayedConnect
  | poll
  | done
  deriving DecidableEq, Repr

/-- What happens to a client. -/
inductive Event where
  /-- User code makes a call. -/
  | call (u : Call)
  /-- The connect call user code made returns. -/
  | returned (success : Bool)
  /-- `dns_gethostbyname` has accepted a query for later. -/
  | query (q : DnsQuery)
  /-- `dnsFoundCallback` has stored the answer to a query. -/
  | answer (q : DnsQuery) (ip : IPAddress)
  /-- The manager calls a member function. -/
  | entered (h : Handler)
  /-- `connect(ip, port)` has made `socket` the socket of the client. -/
  | opened (socket : ℤ) (ip : IPAddress) (port : UInt16)
  /-- `connect(ip, port)` has given up, in `state` and with `queries` DNS queries unanswered. -/
  | refused (state : ConnectionState) (queries : ℕ)
  /-- `_close` has finished, on a client that was open or not. -/
  | closed (wasOpen : Bool)
  /-- `add` has queued a buffer. -/
  | accepted (seq : ℕ) (data : List UInt8)
  /-- `_processWriteQueue` begins a pass. -/
  | pass
  /-- `lwip_write` has been called. -/
  | wrote (call : WriteCall)
  /-- `_cleanupWriteQueue` is about to report these lengths. -/
  | batch (lengths : List ℕ)
  /-- `_cleanupWriteQueue` has found an error at buffer `seq`, the one at `index` in the queue. -/
  | writeError (index : ℕ) (seq : ℕ)
  /-- A callback is invoked. -/
  | callback (cb : Callback)
  deriving DecidableEq, Repr

/-- The fields of `SocketConnection` and `ClientBase`. The last three are not in the source: the
queries whose answer is still to come, the number of the next query, and the history. -/
structure Client where
  /-- `_socket` -/
  socket : ℤ := -1
  /-- `_dnsFinished` -/
  dnsFinished : Bool := false
  /-- `_last_active` -/
  lastActive : Time
  /-- `_state` -/
  state : ConnectionState := .disconnected
  /-- `_writeSpaceRemaining` -/
  writeSpaceRemaining : ℕ
  /-- `_writeQueue` -/
  writeQueue : List WriteQueueBuffer := []
  /-- `_ip` -/
  ip : IPAddress := .any
  /-- `_port` -/
  port : UInt16 := 0
  /-- `_ack_timeout` -/
  ackTimeout : Option Time
  /-- `_rx_timeout` -/
  rxTimeout : Option Time := none
  /-- `_rx_last_packet` -/
  rxLastPacket : Time := 0
  /-- `_ack_timeout_signaled` -/
  ackTimeoutSignaled : Bool := false
  /-- The number of the next buffer that `add` accepts. -/
  nextSeq : ℕ := 0
  /-- The queries that have not been answered. -/
  dnsPending : List DnsQuery := []
  /-- The number of the next query. -/
  nextQuery : ℕ := 0
  /-- What has happened to the client, newest first. -/
  history : List Event := []
  deriving DecidableEq, Repr

/-- `ClientBase::INITIAL_WRITE_SPACE` -/
def initialWriteSpace [Configuration] : ℕ := Configuration.tcpSndBuf

namespace Client

/-- `ClientBase()` at time `now`. -/
def new [Configuration] (now : Time) : Client where
  lastActive := now
  writeSpaceRemaining := initialWriteSpace
  ackTimeout := some (milliseconds Configuration.maxAckTime)

/-- Record an event. -/
def log (cl : Client) (e : Event) : Client := { cl with history := e :: cl.history }

/-- The number of the current connection among the connections of the client. It is not in the
source, where a connection is known by its descriptor only. -/
def connection (cl : Client) : ℕ :=
  cl.history.countP fun e => e matches .opened _ _ _

/-- `SocketConnection::isOpen` -/
def isOpen (cl : Client) : Bool := cl.socket ≠ -1

/-- `ClientBase::connected` -/
def connected (cl : Client) : Bool := cl.state = .connected

/-- `ClientBase::freeable` -/
def freeable (cl : Client) : Bool := !cl.isOpen || cl.state = .disconnected

/-- `ClientBase::space` -/
def space (cl : Client) : ℕ := if cl.connected then cl.writeSpaceRemaining else 0

/-- The guard of `ClientBase::add`: how many of `size` bytes it is going to queue. -/
def toSend (cl : Client) (size : ℕ) : ℕ := if cl.connected then min cl.space size else 0

/-- The critical section of `ClientBase::add`. -/
def commit (cl : Client) (owned : Bool) (queuedAt : Time) (data : List UInt8) : Client :=
  { cl with
    writeQueue := cl.writeQueue ++ [{ owned, queuedAt, data, seq := cl.nextSeq }]
    -- the guard has seen that there is room
    writeSpaceRemaining := cl.writeSpaceRemaining - data.length
    -- a new buffer rearms the ack timeout
    ackTimeoutSignaled := false
    nextSeq := cl.nextSeq + 1
    history := .accepted cl.nextSeq data :: cl.history }

/-- The effect of a pass of `ClientBase::_processWriteQueue`. -/
def afterPass (cl : Client) (p : PassResult) : Client :=
  { cl with
    writeQueue := p.queue
    writeSpaceRemaining := cl.writeSpaceRemaining + p.written
    history := (p.calls.map Event.wrote).reverse ++ .pass :: cl.history }

/-- The scan of `ClientBase::_cleanupWriteQueue`. -/
def scan (cl : Client) : ScanResult := scanQueue cl.rxLastPacket cl.writeQueue

/-- The first buffer of the write queue that has an error: its number and its place in the queue. -/
def firstError (cl : Client) : Event :=
  .writeError (cl.writeQueue.findIdx (·.hasError))
    ((cl.writeQueue.find? (·.hasError)).elim 0 WriteQueueBuffer.seq)

/-- The effect of `ClientBase::_cleanupWriteQueue` up to the `ERROR` callback, when its scan finds a
buffer with an error: the finished buffers it passed stay in the queue. -/
def afterFailedScan (cl : Client) : Client :=
  { cl with
    -- `_rx_last_packet` is advanced by the scan, before the error is found
    rxLastPacket := cl.scan.rxLastPacket
    history := cl.firstError :: cl.history }

/-- The effect of `ClientBase::_cleanupWriteQueue` up to the first `SENT` callback, when its scan
finds no error. -/
def afterScan (cl : Client) : Client :=
  { cl with
    rxLastPacket := cl.scan.rxLastPacket
    writeQueue := cl.writeQueue.drop cl.scan.notifyQueue.length
    history := .batch (cl.scan.notifyQueue.map WriteStats.length) :: cl.history }

/-- The effect of `ClientBase::_clearWriteQueue`. -/
def clearQueue [Configuration] (cl : Client) : Client :=
  { cl with writeQueue := [], writeSpaceRemaining := initialWriteSpace }

/-- The effect of `ClientBase::_close` on the client. -/
def close_ [Configuration] (cl : Client) : Client :=
  { cl with
    state := .disconnecting
    socket := -1
    writeQueue := []
    writeSpaceRemaining := initialWriteSpace
    history := .closed cl.isOpen :: cl.history }

/-- The effect of a `ClientBase::connect(ip, port)` that succeeds. -/
def opened (cl : Client) (socket : ℤ) (ip : IPAddress) (port : UInt16) : Client :=
  { cl with
    ip, port, socket
    state := .connecting
    history := .opened socket ip port :: cl.history }

/-- The effect of a `ClientBase::connect(ip, port)` that gives up. -/
def refused (cl : Client) : Client := cl.log (.refused cl.state cl.dnsPending.length)

/-- The effect of a `ClientBase::connect(host, port)` that has to wait for its answer. -/
def waiting (cl : Client) (host : String) (port : UInt16) : Client :=
  { cl with
    state := .waitingForDns
    -- the port of a live connection is overwritten as well
    port
    dnsPending := cl.dnsPending ++ [⟨cl.nextQuery, host, port⟩]
    nextQuery := cl.nextQuery + 1
    history := .query ⟨cl.nextQuery, host, port⟩ :: cl.history }

/-- `ClientBase::dnsFoundCallback` for query `q`; `none` when the name could not be resolved. -/
def dnsFound (cl : Client) (q : DnsQuery) (answer : Option IPAddress) : Client :=
  { cl with
    -- a name that could not be resolved leaves an address that is not set
    ip := answer.getD .any
    dnsFinished := true
    dnsPending := cl.dnsPending.erase q
    history := .answer q (answer.getD .any) :: cl.history }

/-- The completion of a connection attempt in `ClientBase::_sockIsWriteable`, up to the `CONNECT`
callback. -/
def establish (cl : Client) (now : Time) : Client :=
  { cl with
    state := .connected
    rxLastPacket := now
    ackTimeoutSignaled := false }

end Client

end AsyncTcpSock
