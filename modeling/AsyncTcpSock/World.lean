import Mathlib.Data.Finset.Erase
import Mathlib.Data.Finset.Insert
import Mathlib.Logic.Function.Basic
import AsyncTcpSock.Client
import AsyncTcpSock.Reentrant.Machine

/-!
# The world the library runs in

The live client and server objects, the lists of the manager, the descriptors the operating system
has handed out, the mutexes that are held, the clock, and the outcomes of the system calls to come.
Objects are named by numbers that are never used again, as if memory were never handed out twice.

`Proc` is the monad the member functions are written in: a routine that yields at every callback.
It faults when it uses a destroyed object, and when it locks a mutex that is held.
-/

namespace AsyncTcpSock

open Reentrant

/-- The address of a client object. -/
abbrev ClientId := ℕ

/-- The address of a server object. -/
abbrev ServerId := ℕ

/-- The fields of `SocketConnection` and `Server`. -/
structure Server where
  /-- `_socket` -/
  socket : ℤ := -1
  /-- `_last_active` -/
  lastActive : Time
  /-- `_addr` -/
  addr : IPAddress := .any
  /-- `_port` -/
  port : UInt16
  /-- Whether an accept handler is set. -/
  acceptHandler : Bool := false
  deriving DecidableEq, Repr

/-- `SocketConnection::isOpen` -/
def Server.isOpen (srv : Server) : Bool := srv.socket ≠ -1

/-- The outcomes of the system calls to come. A list that has run out stands for a call that fails
without consequences; every finite behaviour is covered by lists that are long enough. -/
structure Outcomes where
  /-- `::socket`: a descriptor, or a negative number. -/
  sockets : List ℤ := []
  /-- `::connect`: an error number, or `none` for success. -/
  connects : List (Option ℤ) := []
  /-- `fcntl(…, F_SETFL, …)`: whether it succeeds. -/
  fcntls : List Bool := []
  /-- `::bind`: whether it succeeds. -/
  binds : List Bool := []
  /-- `::listen`: whether it succeeds. -/
  listens : List Bool := []
  /-- `::accept`: a descriptor, or a negative number. -/
  accepts : List ℤ := []
  /-- `new`: whether there is memory. -/
  allocations : List Bool := []
  /-- `getsockopt(…, SO_ERROR, …)` -/
  sockopts : List SockoptOutcome := []
  /-- `lwip_write` -/
  writes : List WriteOutcome := []
  /-- `lwip_read` -/
  reads : List ReadOutcome := []
  /-- `select` on one socket: whether it is ready. -/
  selects : List Bool := []
  /-- `select` of the manager: the descriptors ready for reading and for writing. -/
  cycles : List (List ℤ × List ℤ) := []
  /-- `dns_gethostbyname` -/
  queries : List DnsOutcome := []
  /-- The time between two readings of the steady clock. -/
  ticks : List ℕ := []

/-- A mutex of the library. -/
inductive Mutex where
  | manager
  | write (c : ClientId)
  deriving DecidableEq, Repr

/-- The two descriptor sets of a manager cycle. -/
inductive FdSet where
  | read
  | write
  deriving DecidableEq, Repr

/-- What the manager loop does in a cycle, as far as properties speak about it. A connection is
named by its client and its number among the connections of the client. -/
inductive ManagerEvent where
  /-- A cycle begins with empty descriptor sets. -/
  | cycle
  /-- A client has put its socket into a descriptor set. -/
  | fdSet (set : FdSet) (c : ClientId) (socket : ℤ) (conn : ℕ)
  /-- The write phase begins, and `ready` are the descriptors the read phase will be about. -/
  | writing (ready : List ℤ)
  /-- The read phase begins. -/
  | reading
  /-- The server phase begins. -/
  | serving
  /-- A client is handed to the handler of a descriptor set. -/
  | entered (set : FdSet) (c : ClientId) (socket : ℤ) (conn : ℕ)
  deriving DecidableEq, Repr

/-- The world. `nextClient` and `nextServer` name the objects to be constructed next. -/
structure World where
  /-- The clients that are alive. -/
  clients : ClientId → Option Client := fun _ => none
  /-- The servers that are alive. -/
  servers : ServerId → Option Server := fun _ => none
  /-- The name of the next client to be constructed. -/
  nextClient : ClientId := 0
  /-- The name of the next server to be constructed. -/
  nextServer : ServerId := 0
  /-- `SocketConnectionManager::clients` -/
  clientList : List ClientId := []
  /-- `SocketConnectionManager::servers` -/
  serverList : List ServerId := []
  /-- The part of `clientsProcessing` a phase has not come to yet. -/
  clientsProcessing : List ClientId := []
  /-- The part of `serversProcessing` a phase has not come to yet. -/
  serversProcessing : List ServerId := []
  /-- The mutexes that are held. -/
  held : Finset Mutex := ∅
  /-- The open descriptors. -/
  descriptors : Finset ℤ := ∅
  /-- Some `fcntl` has failed. -/
  fcntlFailed : Bool := false
  /-- `::close` has been called on a descriptor that was not open. -/
  closedTwice : Bool := false
  /-- The outcomes of the system calls to come. -/
  outcomes : Outcomes := {}
  /-- What the steady clock has shown last. -/
  clock : Time := 0
  /-- What the manager has done, newest first. -/
  log : List ManagerEvent := []

/-- Where a routine hands control to user code. `last` is not in the source: it says that neither
the handler nor the manager's loop body uses the client again once the callback has returned. -/
inductive Yield where
  | client (c : ClientId) (cb : Callback) (last : Bool)
  | accept (srv : ServerId) (c : ClientId)
  deriving DecidableEq, Repr

/-- What goes wrong in a routine. -/
inductive Fault where
  /-- A destroyed client is used. -/
  | staleClient (c : ClientId)
  /-- A destroyed server is used. -/
  | staleServer (srv : ServerId)
  /-- A mutex is locked that is held already. -/
  | deadlock (m : Mutex)
  deriving DecidableEq, Repr

/-- The monad of the library's member functions. -/
abbrev Proc (α : Type) : Type := Routine World Yield Fault α

namespace World

/-- Replace a client object. -/
def setClient (w : World) (c : ClientId) (cl : Client) : World :=
  { w with clients := Function.update w.clients c (some cl) }

/-- Replace a server object. -/
def setServer (w : World) (srv : ServerId) (s : Server) : World :=
  { w with servers := Function.update w.servers srv (some s) }

/-- A descriptor is handed out: the number, unless the call fails or the number is in use. -/
def acquire (w : World) (fd : ℤ) : Option World :=
  if fd < 0 ∨ fd ∈ w.descriptors then none
  else some { w with descriptors := insert fd w.descriptors }

/-- The effect of `::close`. -/
def closeFd (w : World) (fd : ℤ) : World :=
  -- `::close(-1)` fails without consequences
  if fd = -1 then w
  else if fd ∈ w.descriptors then { w with descriptors := w.descriptors.erase fd }
  else { w with closedTwice := true }

end World

namespace Proc

/-! ## Objects -/

/-- The client object at `c`. -/
def this (c : ClientId) : Proc Client := fun w =>
  match w.clients c with
  | some cl => .done cl w
  | none => .fault (.staleClient c) w

/-- Assign to the client object at `c`. -/
def update (c : ClientId) (f : Client → Client) : Proc Unit := fun w =>
  match w.clients c with
  | some cl => .done () (w.setClient c (f cl))
  | none => .fault (.staleClient c) w

/-- Record an event of client `c`. -/
def log (c : ClientId) (e : Event) : Proc Unit := update c (·.log e)

/-- The server object at `srv`. -/
def server (srv : ServerId) : Proc Server := fun w =>
  match w.servers srv with
  | some s => .done s w
  | none => .fault (.staleServer srv) w

/-- Assign to the server object at `srv`. -/
def updateServer (srv : ServerId) (f : Server → Server) : Proc Unit := fun w =>
  match w.servers srv with
  | some s => .done () (w.setServer srv (f s))
  | none => .fault (.staleServer srv) w

/-! ## Mutexes -/

/-- `lock()` -/
def lock (m : Mutex) : Proc Unit := fun w =>
  -- there is one thread: a mutex that is held is held by the caller
  if m ∈ w.held then .fault (.deadlock m) w
  else .done () { w with held := insert m w.held }

/-- `unlock()` -/
def unlock (m : Mutex) : Proc Unit :=
  Routine.modify fun w => { w with held := w.held.erase m }

/-- `try_lock()` -/
def tryLock (m : Mutex) : Proc Bool := fun w =>
  if m ∈ w.held then .done false w
  else .done true { w with held := insert m w.held }

/-! ## System calls -/

/-- The next outcome of one kind of system call. -/
def take {α : Type} (outcomes : Outcomes → List α) (rest : Outcomes → Outcomes) (default : α) :
    Proc α := fun w =>
  .done ((outcomes w.outcomes).headD default) { w with outcomes := rest w.outcomes }

/-- Have the operating system hand out a descriptor; `none` when it fails. -/
def acquire (fd : ℤ) : Proc (Option ℤ) := fun w =>
  match w.acquire fd with
  | some w' => .done (some fd) w'
  | none => .done none w

/-- `::socket(AF_INET, SOCK_STREAM, 0)`; `none` when it fails. -/
def socket : Proc (Option ℤ) := do
  let fd ← take (·.sockets) (fun o => { o with sockets := o.sockets.tail }) (-1)
  acquire fd

/-- `::connect`; an error number when it fails. -/
def connect (_socket : ℤ) (_ip : IPAddress) (_port : UInt16) : Proc (Option ℤ) :=
  take (·.connects) (fun o => { o with connects := o.connects.tail }) (some EBADF)

/-- `fcntl(socket, F_SETFL, …)`; whether it succeeds. -/
def fcntl (_socket : ℤ) : Proc Bool := do
  let ok ← take (·.fcntls) (fun o => { o with fcntls := o.fcntls.tail }) true
  Routine.modify fun w => { w with fcntlFailed := w.fcntlFailed || !ok }
  return ok

/-- `::bind`; whether it succeeds. -/
def bind (_socket : ℤ) (_addr : IPAddress) (_port : UInt16) : Proc Bool :=
  take (·.binds) (fun o => { o with binds := o.binds.tail }) true

/-- `::listen`; whether it succeeds. -/
def listen (_socket : ℤ) : Proc Bool :=
  take (·.listens) (fun o => { o with listens := o.listens.tail }) true

/-- `::accept`; `none` when it fails. -/
def accept (socket : ℤ) : Proc (Option ℤ) := do
  let fd ← take (·.accepts) (fun o => { o with accepts := o.accepts.tail }) (-1)
  -- a server that has been closed in the meantime accepts nothing
  if socket = -1 then return none
  else acquire fd

/-- `new`; whether there is memory. -/
def allocate : Proc Bool :=
  take (·.allocations) (fun o => { o with allocations := o.allocations.tail }) true

/-- `::close` -/
def closeFd (fd : ℤ) : Proc Unit := Routine.modify (·.closeFd fd)

/-- `getsockopt(socket, SOL_SOCKET, SO_ERROR, …)`, which fails on the descriptor `-1`. -/
def getsockopt (socket : ℤ) : Proc SockoptOutcome := do
  let outcome ← take (·.sockopts) (fun o => { o with sockopts := o.sockopts.tail }) (.failed EBADF)
  return if socket = -1 then .failed EBADF else outcome

/-- `lwip_read`, which fails on the descriptor `-1` and reads no more than the buffer holds. -/
def lwipRead [Configuration] (socket : ℤ) : Proc ReadOutcome := do
  let outcome ← take (·.reads) (fun o => { o with reads := o.reads.tail }) (.failed EAGAIN)
  return if socket = -1 then .failed EBADF
    else match outcome with
      | .read data => .read (data.take Configuration.tcpMss)
      | .failed errno => .failed errno

/-- `select` on one socket with a zero timeout; whether the socket is ready. -/
def selectOne (_socket : ℤ) : Proc Bool :=
  take (·.selects) (fun o => { o with selects := o.selects.tail }) false

/-- `select` of the manager: of the descriptors in the two sets, the ones that are ready. -/
def selectAll (r w : List ℤ) : Proc (List ℤ × List ℤ) := do
  let ready ← take (·.cycles) (fun o => { o with cycles := o.cycles.tail }) ([], [])
  return (r.filter (· ∈ ready.1), w.filter (· ∈ ready.2))

/-- `dns_gethostbyname` -/
def gethostbyname (_host : String) : Proc DnsOutcome :=
  take (·.queries) (fun o => { o with queries := o.queries.tail }) (.failed (-1))

/-- `std::chrono::steady_clock::now()` -/
def now : Proc Time := do
  let tick ← take (·.ticks) (fun o => { o with ticks := o.ticks.tail }) 0
  Routine.modify fun w => { w with clock := w.clock + tick }
  return (← Routine.get).clock

/-- What a pass over a write queue takes from the world. -/
def writeIo : Proc WriteIo := do
  let w ← Routine.get
  return ⟨w.outcomes.writes, w.outcomes.ticks, w.clock⟩

/-- What a pass over a write queue leaves to the world. -/
def setWriteIo (io : WriteIo) : Proc Unit :=
  Routine.modify fun w =>
    { w with outcomes := { w.outcomes with writes := io.writes, ticks := io.ticks },
             clock := io.clock }

/-! ## Callbacks -/

/-- `_callbacks.invoke<…>` of a client. An unset handler is a callback that does nothing. -/
def invoke (c : ClientId) (cb : Callback) (last : Bool) : Proc Unit := do
  -- the callback is recorded before user code runs
  log c (.callback cb)
  Routine.yield (.client c cb last)

end Proc

end AsyncTcpSock
