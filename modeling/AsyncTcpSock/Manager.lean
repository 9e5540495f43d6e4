import AsyncTcpSock.Server

/-!
# The manager loop

One iteration of the loop in `SocketConnectionManager::updateConnectionStates`. Every phase takes a
snapshot of the clients it is concerned with under the manager mutex and then works through the
snapshot without it, so that callbacks may register and remove connections.
-/

namespace AsyncTcpSock

open Reentrant Proc

namespace Manager

/-! ## Bookkeeping -/

/-- Record an event of the manager. -/
def log (e : ManagerEvent) : Proc Unit := Routine.modify fun w => { w with log := e :: w.log }

/-- Record that client `c` is handed to the handler of a descriptor set. -/
def logEntered (set : FdSet) (c : ClientId) : Proc Unit :=
  Routine.modify fun w =>
    match w.clients c with
    | some cl => { w with log := .entered set c cl.socket cl.connection :: w.log }
    -- the handler is going to fault on the destroyed client
    | none => w

/-- `SocketConnection::setLastActive` of a client, with the current time. -/
def setLastActive (c : ClientId) : Proc Unit := do
  let now ← now
  update c fun cl => { cl with lastActive := now }

/-- `SocketConnection::setLastActive` of a server, with the current time. -/
def setServerLastActive (srv : ServerId) : Proc Unit := do
  let now ← now
  updateServer srv fun s => { s with lastActive := now }

/-- `SocketConnection::setDnsFinished` -/
def setDnsFinished (c : ClientId) (finished : Bool) : Proc Unit :=
  update c fun cl => { cl with dnsFinished := finished }

/-- `SocketConnectionManager::hasFreeSocket` -/
def hasFreeSocket [Configuration] : Proc Bool := do
  let w ← Routine.get
  -- the connections that are registered count, whether or not they have a socket
  return match Configuration.maxSockets with
    | some n => w.clientList.length + w.serverList.length < n
    | none => true

/-! ## Collecting descriptors -/

/-- The visit of the registered clients that fills the descriptor sets `r` and `w`. -/
def collectClients [Configuration] :
    List ClientId → List ℤ → List ℤ → Proc (List ℤ × List ℤ)
  | [], r, w => return (r, w)
  | c :: rest, r, w => do
      let cl ← this c
      if cl.socket ≠ -1 then
        -- every socket goes into the read set, whatever the state of its client
        log (.fdSet .read c cl.socket cl.connection)
        if ← ClientBase.pendingWrite c then
          log (.fdSet .write c cl.socket cl.connection)
          collectClients rest (cl.socket :: r) (cl.socket :: w)
        else collectClients rest (cl.socket :: r) w
      else collectClients rest r w

/-- The visit of the registered servers that adds to the descriptor set `r`. -/
def collectServers [Configuration] : List ServerId → List ℤ → Proc (List ℤ)
  | [], r => return r
  | srv :: rest, r => do
      let s ← server srv
      if s.socket ≠ -1 then
        -- the check is made when the sets are filled, not when a connection is accepted
        if ← hasFreeSocket then collectServers rest (s.socket :: r)
        else collectServers rest r
      else collectServers rest r

/-! ## Phases -/

/-- The elements of a list that `choose` accepts. -/
def chooseFrom {α : Type} (choose : α → Proc Bool) : List α → Proc (List α)
  | [] => return []
  | a :: rest => do
      if ← choose a then
        let chosen ← chooseFrom choose rest
        return a :: chosen
      else chooseFrom choose rest

/-- A phase over the registered clients: take a snapshot of those that `choose` accepts, then run
`body` on each of them. -/
def clientPhase (choose : ClientId → Proc Bool) (body : ClientId → Proc Unit) : Proc Unit := do
  lock .manager
  let chosen ← chooseFrom choose (← Routine.get).clientList
  unlock .manager
  Routine.modify fun w => { w with clientsProcessing := chosen }
  chosen |> Routine.forEach fun c => do
    -- the snapshot is not checked again: the client may have been closed or destroyed since, and
    -- the call of `body` goes through its address
    Routine.modify fun w => { w with clientsProcessing := w.clientsProcessing.tail }
    body c

/-- A phase over the registered servers. -/
def serverPhase (choose : ServerId → Proc Bool) (body : ServerId → Proc Unit) : Proc Unit := do
  lock .manager
  let chosen ← chooseFrom choose (← Routine.get).serverList
  unlock .manager
  Routine.modify fun w => { w with serversProcessing := chosen }
  chosen |> Routine.forEach fun srv => do
    Routine.modify fun w => { w with serversProcessing := w.serversProcessing.tail }
    body srv

variable [Configuration]

/-- What a phase does with one client. -/
def handle (h : Handler) (c : ClientId) : Proc Unit :=
  match h with
  | .writeable => do
      -- the client is marked as active only if something was written or connected
      let activity ← ClientBase.sockIsWriteable c
      if activity then setLastActive c
  | .readable => do
      setLastActive c
      ClientBase.sockIsReadable c
  | .delayedConnect => do
      -- the flag is cleared before the answer is looked at
      setDnsFinished c false
      ClientBase.sockDelayedConnect c
  | .poll => ClientBase.sockPoll c
  | .done => ClientBase.processingDone c

/-- What the server phase does with one server. -/
def handleServer (srv : ServerId) : Proc Unit := do
  setServerLastActive srv
  Server.sockIsReadable srv

/-- Whether the poll phase is concerned with a client, which is then marked as active. -/
def pollDue (c : ClientId) : Proc Bool := do
  let now ← now
  if now - (← this c).lastActive ≥ milliseconds Configuration.pollInterval then
    -- the mark is set in the snapshot, before the poll itself
    update c fun cl => { cl with lastActive := now }
    return true
  else return false

/-- The phases that follow a `select` with descriptors ready for reading in `r` and for writing in
`w`. -/
def socketPhases (r w : List ℤ) : Proc Unit := do
  log (.writing r)
  -- the sets say which descriptors were ready; they are matched against the sockets that the
  -- clients have now
  clientPhase (fun c => return (← this c).socket ∈ w) fun c => do
    logEntered .write c
    handle .writeable c
  log .reading
  clientPhase (fun c => return (← this c).socket ∈ r) fun c => do
    logEntered .read c
    handle .readable c
  log .serving
  serverPhase (fun srv => return (← server srv).socket ∈ r) handleServer

/-- One iteration of `SocketConnectionManager::updateConnectionStates`. -/
def updateConnectionStates : Proc Unit := do
  log .cycle
  lock .manager
  let (r, w) ← collectClients (← Routine.get).clientList [] []
  -- the clients are visited under the mutex, and the servers in a second visit
  unlock .manager
  lock .manager
  let r ← collectServers (← Routine.get).serverList r
  unlock .manager
  let (r, w) ← selectAll r w
  if !(r.isEmpty && w.isEmpty) then socketPhases r w
  -- these three phases run in every cycle, whether or not `select` found anything
  clientPhase (fun c => return (← this c).dnsFinished) (handle .delayedConnect)
  clientPhase pollDue (handle .poll)
  clientPhase (fun _ => return true) (handle .done)

end Manager

end AsyncTcpSock
