import AsyncTcpSock.World

/-!
# The member functions of a client

`ClientBase.tpp`, function by function. A function that takes a `std::unique_lock` by reference is
called with the write mutex held; the destructor of a lock is an `unlock` where the scope ends.
-/

namespace AsyncTcpSock

open Reentrant

/-- `SocketConnection::_configureSocket`, for clients and servers: `assign` stores the descriptor
in `_socket`. -/
def configureSocket (assign : ℤ → Proc Unit) (socket : ℤ) : Proc Unit := do
  let ok ← Proc.fcntl socket
  -- `_socket` is assigned in either case: there is no `return` after the `::close`
  if !ok then Proc.closeFd socket
  assign socket

namespace ClientBase

open Proc

variable [Configuration]

/-! ## Closing -/

/-- `ClientBase::_clearWriteQueue` -/
def clearWriteQueue (c : ClientId) : Proc Unit := do
  lock (.write c)
  update c Client.clearQueue
  unlock (.write c)

/-- `ClientBase::_close` -/
def close_ (c : ClientId) : Proc Unit := do
  let wasOpen := (← this c).isOpen
  update c fun cl => { cl with state := .disconnecting }
  -- `_socket.exchange(-1)`: the client has given the descriptor up before it is closed
  let socket := (← this c).socket
  update c fun cl => { cl with socket := -1 }
  closeFd socket
  clearWriteQueue c
  log c (.closed wasOpen)

/-- `ClientBase::_error` -/
def error (c : ClientId) (errorCode : ℤ) : Proc Unit := do
  -- the callback may close the client, connect it again or destroy it, and `_close` comes in any
  -- case
  invoke c (.error errorCode) false
  close_ c

/-- `ClientBase::close` -/
def close (c : ClientId) : Proc Unit := do
  if (← this c).isOpen then close_ c

/-- `ClientBase::abort`. The linger option it sets first has no effect on the client. -/
def abort (c : ClientId) : Proc Unit := do
  if (← this c).isOpen then close_ c

/-! ## Connecting -/

/-- `ClientBase::connect(ip, port)` -/
def connectIP (c : ClientId) (ip : IPAddress) (port : UInt16) : Proc Bool := do
  if (← this c).isOpen then
    -- already connected
    update c Client.refused
    return false
  else
    match ← Proc.socket with
    | none =>
        update c Client.refused
        return false
    | some socket =>
        -- the socket is not configured yet, so that this `::connect` may block
        let result ← Proc.connect socket ip port
        if result.any (· ≠ EINPROGRESS) then
          closeFd socket
          update c Client.refused
          return false
        else
          update c fun cl => { cl with ip, port, state := .connecting }
          -- the descriptor becomes visible to the manager here, after the state
          configureSocket (fun socket => update c fun cl => { cl with socket }) socket
          log c (.opened socket ip port)
          return true

/-- `ClientBase::connect(host, port)` -/
def connectHost (c : ClientId) (host : String) (port : UInt16) : Proc Bool := do
  match ← gethostbyname host with
  | .cached ip => connectIP c ip port
  | .inProgress =>
      -- neither `isOpen` nor the state is looked at
      update c fun cl => cl.waiting host port
      return true
  | .failed _ => return false

/-! ## Writing -/

/-- `ClientBase::add(data, size, flags)`, where `data` is null or has `size` bytes. -/
def add (c : ClientId) (data : Option (List UInt8)) (flags : ClientApiFlags) : Proc ℕ := do
  match data with
  | none => return 0
  | some data =>
      -- the guard reads the client without the write mutex
      let toSend := (← this c).toSend data.length
      if toSend = 0 then return 0
      else
        let queuedAt ← now
        lock (.write c)
        -- nothing is checked again under the mutex
        update c fun cl => cl.commit (flags.test .copy) queuedAt (data.take toSend)
        unlock (.write c)
        return toSend

/-- `ClientBase::_processWriteQueue` -/
def processWriteQueue (c : ClientId) : Proc Bool := do
  -- the pass runs with the mutex held and invokes no callback, so that it is one step
  let p := processQueue (← writeIo) (← this c).writeQueue
  setWriteIo p.io
  update c fun cl => cl.afterPass p
  return p.activity

/-- The loop at the end of `ClientBase::_cleanupWriteQueue`. -/
def notifySent (c : ClientId) (tail : Bool) : List WriteStats → Proc Unit
  | [] => return
  | stats :: rest => do
      invoke c (.sent stats.length stats.delay) (tail && rest.isEmpty)
      notifySent c tail rest

/-- `ClientBase::_cleanupWriteQueue`. `tail` is not in the source: it says that the caller is done
with the client when the notifications are through. -/
def cleanupWriteQueue (c : ClientId) (tail : Bool) : Proc Unit := do
  let scan := (← this c).scan
  match scan.error with
  | some errorCode =>
      update c Client.afterFailedScan
      -- callbacks are invoked without the mutex
      unlock (.write c)
      error c errorCode
  | none =>
      update c Client.afterScan
      unlock (.write c)
      notifySent c tail scan.notifyQueue

/-- `ClientBase::send` -/
def send (c : ClientId) : Proc Bool := do
  let cl ← this c
  if !cl.connected then return false
  else if ← selectOne cl.socket then
    lock (.write c)
    if (← this c).writeQueue.isEmpty then
      unlock (.write c)
      return false
    else
      let activity ← processWriteQueue c
      unlock (.write c)
      return activity
  else return false

/-- `ClientBase::write(bytes, size, flags)` -/
def write (c : ClientId) (bytes : Option (List UInt8)) (flags : ClientApiFlags) : Proc ℕ := do
  let toSend ← add c bytes flags
  if toSend = 0 then return 0
  else if flags.test .immediate then
    let success ← send c
    -- the bytes stay in the queue
    if !success then return 0
    else return toSend
  else return toSend

/-! ## Timeouts -/

/-- `ClientBase::_checkAckTimeout` -/
def checkAckTimeout (c : ClientId) : Proc Bool := do
  let cl ← this c
  match cl.ackTimeout with
  | none => return false
  | some ackTimeout =>
      if cl.ackTimeoutSignaled then return false
      else
        lock (.write c)
        match (← this c).writeQueue with
        | [] =>
            unlock (.write c)
            return false
        | first :: _ =>
            let delay := (← now) - first.queuedAt
            -- `writtenAt` is set when the buffer is complete, not when its first byte is written
            if delay ≥ ackTimeout ∧ first.writtenAt = 0 then
              update c fun cl => { cl with ackTimeoutSignaled := true }
              unlock (.write c)
              invoke c (.timeout (delayMillis delay)) true
              return true
            else
              unlock (.write c)
              return false

/-- `ClientBase::_checkRxTimeout` -/
def checkRxTimeout (c : ClientId) : Proc Bool := do
  let cl ← this c
  match cl.rxTimeout with
  | none => return false
  | some rxTimeout =>
      let now ← now
      if now - cl.rxLastPacket < rxTimeout then return false
      -- the `select` of the manager may have failed because of another socket, and only this one is
      -- to time out
      else if ← selectOne cl.socket then
        update c fun cl => { cl with rxLastPacket := now }
        return false
      else return true

/-- `ClientBase::_pendingWrite` -/
def pendingWrite (c : ClientId) : Proc Bool := do
  let cl ← this c
  if cl.state ≠ .disconnected ∧ cl.state ≠ .connected then return true
  else if ← tryLock (.write c) then
    let pending := !(← this c).writeQueue.isEmpty
    unlock (.write c)
    return pending
  -- somebody else is writing
  else return true

/-! ## Handlers of the manager -/

/-- The second half of `ClientBase::_sockIsWriteable`: write the available data. `activity` is what
the first half has left in the variable of that name. -/
def writeAvailable (c : ClientId) (activity : Bool) : Proc Bool := do
  lock (.write c)
  -- the `CONNECT` callback may have closed the client in between
  let cl ← this c
  if cl.state = .connected ∧ !cl.writeQueue.isEmpty then
    let activity ← processWriteQueue c
    cleanupWriteQueue c (!activity)
    return activity
  else
    unlock (.write c)
    return activity

/-- `ClientBase::_sockIsWriteable` -/
def sockIsWriteable (c : ClientId) : Proc Bool := do
  log c (.entered .writeable)
  let cl ← this c
  if cl.state ≠ .connected then
    -- any state other than `CONNECTED` is taken for the end of an attempt, `DISCONNECTING` and
    -- `WAITING_FOR_DNS` included
    match ← getsockopt cl.socket with
    | .failed errno =>
        error c errno
        return false
    | .socketError e =>
        if e ≠ 0 then
          error c e
          return false
        else
          let now ← now
          update c (·.establish now)
          invoke c .connect false
          writeAvailable c true
  else writeAvailable c false

/-- `ClientBase::_sockIsReadable` -/
def sockIsReadable (c : ClientId) : Proc Unit := do
  log c (.entered .readable)
  match ← lwipRead (← this c).socket with
  -- the remote side has closed the connection
  | .read [] => close_ c
  | .read data =>
      let now ← now
      update c fun cl => { cl with rxLastPacket := now }
      invoke c (.recv data) true
  | .failed errno =>
      if errno ≠ EAGAIN ∧ errno ≠ EWOULDBLOCK then error c errno

/-- `ClientBase::_sockDelayedConnect` -/
def sockDelayedConnect (c : ClientId) : Proc Unit := do
  log c (.entered .delayedConnect)
  let cl ← this c
  if cl.ip.isSet then
    -- what `connect` returns is dropped
    let _ ← connectIP c cl.ip cl.port
  else error c ERR_DNS_RESOLUTION_FAILED

/-- The part of `ClientBase::_sockPoll` after the notifications. -/
def pollTimeouts (c : ClientId) : Proc Unit := do
  -- processing the notifications may have disconnected the client
  if !(← this c).connected then return
  -- an ack timeout does not close the connection
  else if ← checkAckTimeout c then return
  else if ← checkRxTimeout c then close_ c
  else invoke c .poll true

/-- `ClientBase::_sockPoll` -/
def sockPoll (c : ClientId) : Proc Unit := do
  log c (.entered .poll)
  if !(← this c).connected then return
  else
    lock (.write c)
    -- `send` leaves the notifications of what it has written to this place
    cleanupWriteQueue c false
    pollTimeouts c

/-- `ClientBase::_processingDone` -/
def processingDone (c : ClientId) : Proc Unit := do
  log c (.entered .done)
  if (← this c).state = .disconnecting then
    update c fun cl => { cl with state := .disconnected }
    invoke c .disconnect true

end ClientBase

end AsyncTcpSock
