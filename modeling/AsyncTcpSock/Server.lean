import AsyncTcpSock.ClientBase

/-!
# Servers, and the construction and destruction of objects

`Client.cpp` and `Server.cpp` as far as they change what the manager or the operating system sees.
`Client::setNoDelay`, which a server calls on the client it accepts, sets a socket option only.
-/

namespace AsyncTcpSock

open Reentrant Proc

/-! ## Registration -/

/-- `SocketConnectionManager::addConnection` for a client. -/
def manage (c : ClientId) : Proc Unit := do
  lock .manager
  Routine.modify fun w => { w with clientList := w.clientList ++ [c] }
  unlock .manager

/-- `SocketConnectionManager::removeConnection` for a client. -/
def unmanage (c : ClientId) : Proc Unit := do
  lock .manager
  Routine.modify fun w => { w with clientList := w.clientList.filter (· ≠ c) }
  unlock .manager

/-- `SocketConnectionManager::addConnection` for a server. -/
def manageServer (srv : ServerId) : Proc Unit := do
  lock .manager
  Routine.modify fun w => { w with serverList := w.serverList ++ [srv] }
  unlock .manager

/-- `SocketConnectionManager::removeConnection` for a server. -/
def unmanageServer (srv : ServerId) : Proc Unit := do
  lock .manager
  Routine.modify fun w => { w with serverList := w.serverList.filter (· ≠ srv) }
  unlock .manager

/-! ## Clients -/

variable [Configuration]

/-- The initialisation of the members of a client, at a new address. -/
def allocateClient : Proc ClientId := do
  let now ← now
  let c := (← Routine.get).nextClient
  Routine.modify fun w => { w.setClient c (Client.new now) with nextClient := c + 1 }
  return c

/-- `Client::Client()` -/
def newClient : Proc ClientId := do
  let c ← allocateClient
  manage c
  return c

/-- `Client::Client(int socket)` -/
def newClientFrom (socket : ℤ) : Proc ClientId := do
  let c ← allocateClient
  configureSocket (fun socket => update c fun cl => { cl with socket }) socket
  -- descriptor 0 does not count as connected
  if (← this c).socket > 0 then
    let now ← now
    update c fun cl => { cl with state := .connected, rxLastPacket := now }
  manage c
  return c

/-- `Client::~Client()`, after which the object is gone. -/
def deleteClient (c : ClientId) : Proc Unit := do
  unmanage c
  ClientBase.close c
  -- from now on every use of the address faults
  Routine.modify fun w => { w with clients := Function.update w.clients c none }

/-! ## Servers -/

namespace Server

/-- `Server::Server(addr, port)` -/
def new (addr : IPAddress) (port : UInt16) : Proc ServerId := do
  let now ← now
  let srv := (← Routine.get).nextServer
  Routine.modify fun w =>
    { w.setServer srv { lastActive := now, addr, port } with nextServer := srv + 1 }
  manageServer srv
  return srv

/-- `Server::begin` -/
def begin (srv : ServerId) : Proc Unit := do
  let s ← server srv
  if s.isOpen then return
  else
    match ← Proc.socket with
    | none => return
    | some socket =>
        -- the socket is configured only when it listens, and never stored otherwise
        if !(← Proc.bind socket s.addr s.port) then closeFd socket
        else if !(← listen socket) then closeFd socket
        else configureSocket (fun socket => updateServer srv fun s => { s with socket }) socket

/-- `Server::end` -/
def end_ (srv : ServerId) : Proc Unit := do
  let s ← server srv
  if !s.isOpen then return
  else
    -- `_socket.exchange(-1)`
    updateServer srv fun s => { s with socket := -1 }
    closeFd s.socket

/-- `Server::~Server()`, after which the object is gone. -/
def delete (srv : ServerId) : Proc Unit := do
  unmanageServer srv
  end_ srv
  Routine.modify fun w => { w with servers := Function.update w.servers srv none }

/-- `Server::onClient`, with a handler that may be empty. -/
def onClient (srv : ServerId) (handler : Bool) : Proc Unit :=
  updateServer srv fun s => { s with acceptHandler := handler }

/-- `Server::_sockIsReadable` -/
def sockIsReadable (srv : ServerId) : Proc Unit := do
  let s ← server srv
  -- the connection stays in the backlog, and the descriptor stays readable
  if !s.acceptHandler then return
  else
    match ← Proc.accept s.socket with
    | none => return
    | some socket =>
        if ← allocate then
          let c ← newClientFrom socket
          Routine.yield (.accept srv c)
        -- `new` is checked for null, although it would throw
        else closeFd socket

end Server

end AsyncTcpSock
