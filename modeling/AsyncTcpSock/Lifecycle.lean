import AsyncTcpSock.Client

/-!
# The life of a client

An abstract model of one client on its own. Its state is the client together with a `Phase`, which
says how far the handler that is running for it has come; its steps are what user code, the lwIP
thread and the handlers of the manager may do to it, with everything else left out.

* `UserStep`: one step of user code, of the lwIP thread or of the manager's bookkeeping.
* `HandlerStep`: one step of a handler, from one place where it may be interrupted to the next.
* `ClientRun`: what a client may come to from its construction.

Nothing is assumed about the order in which handlers are entered.
-/

namespace AsyncTcpSock

/-! ## Phases -/

/-- What a handler goes on with when a cleanup of the write queue is through. -/
inductive Continuation where
  /-- Nothing more is done with the client. -/
  | leave
  /-- The client is marked as active. -/
  | touch
  /-- The rest of `_sockPoll`. -/
  | poll
  deriving DecidableEq, Repr

/-- How far the handler that runs for a client has come. -/
inductive Phase where
  /-- No handler is running, or the one that is running is done with the client. -/
  | idle
  /-- The handler has just been entered. -/
  | running (h : Handler)
  /-- In the `CONNECT` callback. -/
  | connecting
  /-- In the second half of `_sockIsWriteable`, with the value of its variable `activity`. -/
  | writing (activity : Bool)
  /-- At the start of `_cleanupWriteQueue`. -/
  | cleaning (next : Continuation)
  /-- In `_cleanupWriteQueue`, with notifications still to be delivered. -/
  | notifying (next : Continuation) (stats : WriteStats) (rest : List WriteStats)
  /-- In the `ERROR` callback of `_error`. -/
  | failing (next : Continuation)
  /-- In the part of `_sockPoll` after the notifications. -/
  | polling
  /-- About to be marked as active. -/
  | touching
  deriving DecidableEq, Repr

/-- The phase a handler is in when a cleanup is through. -/
def Continuation.phase : Continuation → Phase
  | leave => .idle
  | touch => .touching
  | poll => .polling

/-- What follows a pass over the write queue. -/
def Continuation.afterPass (activity : Bool) : Continuation := if activity then touch else leave

namespace Phase

/-- The phase of `_cleanupWriteQueue` with a list of notifications still to be delivered. -/
def notify (next : Continuation) : List WriteStats → Phase
  | [] => next.phase
  | stats :: rest => notifying next stats rest

/-- The phase at the end of `_sockIsWriteable`. -/
def afterWriting (activity : Bool) : Phase := (Continuation.afterPass activity).phase

/-- The phases in which user code may be running. -/
def yields : Phase → Bool
  | running _ | writing _ | cleaning _ => false
  | _ => true

end Phase

/-! ## Steps -/

/-- What a step does to the descriptor of a client. -/
inductive SocketChange where
  | kept
  | opened (socket : ℤ)
  | closed
  deriving DecidableEq, Repr

/-- The connect calls that may come to `connect(ip, port)`. -/
def Call.MayOpen (ip : IPAddress) (port : UInt16) : Call → Prop
  | connectIP ip' port' => ip' = ip ∧ port' = port
  | connectHost _ port' => port' = port
  | _ => False

/-- `ClientBase::connect(ip, port)`: what it may do, and what it returns. -/
inductive Attempt (ip : IPAddress) (port : UInt16) :
    Client → SocketChange → Client → Bool → Prop where
  | refused (cl : Client) : Attempt ip port cl .kept cl.refused false
  | opened (cl : Client) (socket : ℤ) : cl.isOpen = false → 0 ≤ socket →
      Attempt ip port cl (.opened socket) (cl.opened socket ip port) true

/-- The client when handler `h` is entered: the manager resets `_dnsFinished` first. -/
def Client.enter (cl : Client) (h : Handler) : Client :=
  { cl with
    dnsFinished := cl.dnsFinished && h != .delayedConnect
    history := .entered h :: cl.history }

/-- `ClientBase(int socket)`, begun at time `t₀` and finished at time `t`. -/
def Client.adopted [Configuration] (t₀ t : Time) (socket : ℤ) : Client :=
  if 0 < socket then
    { Client.new t₀ with socket, state := .connected, rxLastPacket := t }
  else { Client.new t₀ with socket }

/-- One step of user code, of the lwIP thread or of the manager's bookkeeping, begun at time `t₀`
and finished at time `t`. -/
inductive UserStep [Configuration] (t₀ t : Time) : Client → SocketChange → Client → Prop where
  /-- Nothing happens to the client. -/
  | stay (cl : Client) : UserStep t₀ t cl .kept cl
  /-- A call other than a connect call is made. -/
  | call (cl : Client) (u : Call) : u.isConnect = false → UserStep t₀ t cl .kept (cl.log (.call u))
  /-- The timeouts are set. -/
  | configure (cl : Client) (ackTimeout rxTimeout : Option Time) :
      UserStep t₀ t cl .kept { cl with ackTimeout, rxTimeout }
  /-- The client is marked as active. -/
  | touch (cl : Client) : UserStep t₀ t cl .kept { cl with lastActive := t }
  /-- `add` queues a buffer. -/
  | commit (cl : Client) (owned : Bool) (data : List UInt8) : cl.connected = true → data ≠ [] →
      data.length ≤ cl.space → UserStep t₀ t cl .kept (cl.commit owned t data)
  /-- `send` makes a pass over the write queue. -/
  | pass (cl : Client) (io : WriteIo) : cl.connected = true → cl.writeQueue ≠ [] → io.clock = t₀ →
      (processQueue io cl.writeQueue).io.clock = t →
      UserStep t₀ t cl .kept (cl.afterPass (processQueue io cl.writeQueue))
  /-- `close` or `abort` closes the client. -/
  | close (cl : Client) : cl.isOpen = true → UserStep t₀ t cl .closed cl.close_
  /-- A connect call comes to `connect(ip, port)`. -/
  | connect {cl cl' : Client} {ch : SocketChange} {success : Bool} (u : Call) (ip : IPAddress)
      (port : UInt16) : u.MayOpen ip port → Attempt ip port (cl.log (.call u)) ch cl' success →
      UserStep t₀ t cl ch (cl'.log (.returned success))
  /-- A connect call fails because `dns_gethostbyname` does. -/
  | rejected (cl : Client) (u : Call) : u.isConnect = true →
      UserStep t₀ t cl .kept ((cl.log (.call u)).log (.returned false))
  /-- A connect call has to wait for `dns_gethostbyname`. -/
  | wait (cl : Client) (host : String) (port : UInt16) :
      UserStep t₀ t cl .kept
        (((cl.log (.call (.connectHost host port))).waiting host port).log (.returned true))
  /-- `dnsFoundCallback` answers a query. -/
  | answer (cl : Client) (q : DnsQuery) (ip : Option IPAddress) : q ∈ cl.dnsPending →
      UserStep t₀ t cl .kept (cl.dnsFound q ip)

/-- One step of a handler, begun at time `t₀` and finished at time `t`. -/
inductive HandlerStep [Configuration] (t₀ t : Time) :
    Client → Phase → SocketChange → Client → Phase → Prop where
  /-- A handler is entered; `_sockDelayedConnect` only when there is an answer. -/
  | enter (cl : Client) (h : Handler) : (h = .delayedConnect → cl.dnsFinished = true) →
      HandlerStep t₀ t cl .idle .kept (cl.enter h) (.running h)
  /-- `_sockIsWriteable` finds that the attempt has failed. -/
  | attemptFailed (cl : Client) (e : ℤ) : cl.state ≠ .connected →
      HandlerStep t₀ t cl (.running .writeable) .kept (cl.log (.callback (.error e)))
        (.failing .leave)
  /-- `_sockIsWriteable` finds that the attempt has succeeded. -/
  | established (cl : Client) : cl.state ≠ .connected → cl.isOpen = true →
      HandlerStep t₀ t cl (.running .writeable) .kept
        ((cl.establish t).log (.callback .connect)) .connecting
  /-- `_sockIsWriteable` finds an established connection. -/
  | ready (cl : Client) : cl.state = .connected →
      HandlerStep t₀ t cl (.running .writeable) .kept cl (.writing false)
  /-- The `CONNECT` callback has returned. -/
  | announced (cl : Client) : HandlerStep t₀ t cl .connecting .kept cl (.writing true)
  /-- There is nothing to write. -/
  | nothingToWrite (cl : Client) (activity : Bool) : cl.state ≠ .connected ∨ cl.writeQueue = [] →
      HandlerStep t₀ t cl (.writing activity) .kept cl (.afterWriting activity)
  /-- `_sockIsWriteable` makes a pass over the write queue. -/
  | pass (cl : Client) (activity : Bool) (io : WriteIo) : cl.state = .connected →
      cl.writeQueue ≠ [] → io.clock = t₀ → (processQueue io cl.writeQueue).io.clock = t →
      HandlerStep t₀ t cl (.writing activity) .kept
        (cl.afterPass (processQueue io cl.writeQueue))
        (.cleaning (.afterPass (processQueue io cl.writeQueue).activity))
  /-- `_cleanupWriteQueue` finds a buffer with an error. -/
  | writeFailed (cl : Client) (next : Continuation) (e : ℤ) : cl.scan.error = some e →
      HandlerStep t₀ t cl (.cleaning next) .kept (cl.afterFailedScan.log (.callback (.error e)))
        (.failing next)
  /-- `_cleanupWriteQueue` removes the finished buffers. -/
  | cleaned (cl : Client) (next : Continuation) : cl.scan.error = none →
      HandlerStep t₀ t cl (.cleaning next) .kept cl.afterScan (.notify next cl.scan.notifyQueue)
  /-- `_cleanupWriteQueue` reports a buffer. -/
  | notified (cl : Client) (next : Continuation) (stats : WriteStats) (rest : List WriteStats) :
      HandlerStep t₀ t cl (.notifying next stats rest) .kept
        (cl.log (.callback (.sent stats.length stats.delay))) (.notify next rest)
  /-- The `ERROR` callback has returned. -/
  | failed (cl : Client) (next : Continuation) :
      HandlerStep t₀ t cl (.failing next) .closed cl.close_ next.phase
  /-- The client is marked as active. -/
  | touched (cl : Client) : HandlerStep t₀ t cl .touching .kept { cl with lastActive := t } .idle
  /-- `_sockPoll` returns, at its start or after the notifications. -/
  | notPolled (cl : Client) (φ : Phase) : cl.state ≠ .connected →
      φ = .running .poll ∨ φ = .polling → HandlerStep t₀ t cl φ .kept cl .idle
  /-- `_sockPoll` begins. -/
  | poll (cl : Client) : cl.state = .connected →
      HandlerStep t₀ t cl (.running .poll) .kept cl (.cleaning .poll)
  /-- `_checkAckTimeout` reports a timeout. -/
  | ackTimeout (cl : Client) (ackTimeout : Time) (first : WriteQueueBuffer)
      (rest : List WriteQueueBuffer) : cl.state = .connected → cl.ackTimeout = some ackTimeout →
      cl.ackTimeoutSignaled = false → cl.writeQueue = first :: rest →
      ackTimeout ≤ t - first.queuedAt → first.writtenAt = 0 →
      HandlerStep t₀ t cl .polling .kept
        (({ cl with ackTimeoutSignaled := true } : Client).log
          (.callback (.timeout (delayMillis (t - first.queuedAt))))) .idle
  /-- `_checkRxTimeout` finds a socket that can be read. -/
  | rxRenewed (cl : Client) : cl.state = .connected →
      HandlerStep t₀ t cl .polling .kept { cl with rxLastPacket := t } .polling
  /-- `_checkRxTimeout` finds that the connection has timed out. -/
  | rxExpired (cl : Client) (rxTimeout : Time) : cl.state = .connected →
      cl.rxTimeout = some rxTimeout → rxTimeout ≤ t - cl.rxLastPacket →
      HandlerStep t₀ t cl .polling .closed cl.close_ .idle
  /-- `_sockPoll` reaches its callback. -/
  | polled (cl : Client) : cl.state = .connected →
      HandlerStep t₀ t cl .polling .kept (cl.log (.callback .poll)) .idle
  /-- `_sockIsReadable` finds that the peer has closed the connection. -/
  | peerClosed (cl : Client) : cl.isOpen = true →
      HandlerStep t₀ t cl (.running .readable) .closed cl.close_ .idle
  /-- `_sockIsReadable` delivers data. -/
  | received (cl : Client) (data : List UInt8) : cl.isOpen = true →
      HandlerStep t₀ t cl (.running .readable) .kept
        (({ cl with rxLastPacket := t } : Client).log (.callback (.recv data))) .idle
  /-- `_sockIsReadable` finds nothing to read. -/
  | nothingToRead (cl : Client) : HandlerStep t₀ t cl (.running .readable) .kept cl .idle
  /-- `_sockIsReadable` finds an error. -/
  | readFailed (cl : Client) (e : ℤ) :
      HandlerStep t₀ t cl (.running .readable) .kept (cl.log (.callback (.error e)))
        (.failing .leave)
  /-- `_sockDelayedConnect` has an address. -/
  | resolved {cl cl' : Client} {ch : SocketChange} {success : Bool} : cl.ip.isSet = true →
      Attempt cl.ip cl.port cl ch cl' success →
      HandlerStep t₀ t cl (.running .delayedConnect) ch cl' .idle
  /-- `_sockDelayedConnect` has no address. -/
  | unresolved (cl : Client) : cl.ip.isSet = false →
      HandlerStep t₀ t cl (.running .delayedConnect) .kept
        (cl.log (.callback (.error ERR_DNS_RESOLUTION_FAILED))) (.failing .leave)
  /-- `_processingDone` reports the end of a connection. -/
  | disconnected (cl : Client) : cl.state = .disconnecting →
      HandlerStep t₀ t cl (.running .done) .kept
        (({ cl with state := .disconnected } : Client).log (.callback .disconnect)) .idle
  /-- `_processingDone` has nothing to report. -/
  | nothingDone (cl : Client) : cl.state ≠ .disconnecting →
      HandlerStep t₀ t cl (.running .done) .kept cl .idle

/-- One step of a client. User code runs in the phases that yield and leaves the phase alone. -/
inductive ClientStep [Configuration] (t₀ t : Time) :
    Client → Phase → SocketChange → Client → Phase → Prop where
  | user {cl cl' : Client} {ch : SocketChange} {φ : Phase} : φ.yields = true →
      UserStep t₀ t cl ch cl' → ClientStep t₀ t cl φ ch cl' φ
  | handler {cl cl' : Client} {ch : SocketChange} {φ φ' : Phase} :
      HandlerStep t₀ t cl φ ch cl' φ' → ClientStep t₀ t cl φ ch cl' φ'

/-! ## Runs -/

/-- From `cl₀` at time `t₀`, user code, the lwIP thread and the manager's bookkeeping may have led a
client to `cl` at time `t`. -/
inductive UserRun [Configuration] (t₀ : Time) (cl₀ : Client) : Time → Client → Prop where
  | refl : UserRun t₀ cl₀ t₀ cl₀
  | step {t t' : Time} {cl cl' : Client} {ch : SocketChange} : UserRun t₀ cl₀ t cl → t ≤ t' →
      UserStep t t' cl ch cl' → UserRun t₀ cl₀ t' cl'

/-- At time `t` a client may have come to `cl`, in phase `φ`. -/
inductive ClientRun [Configuration] : Time → Client → Phase → Prop where
  | new (t : Time) : ClientRun t (Client.new t) .idle
  | adopted (t₀ t : Time) (socket : ℤ) : t₀ ≤ t → 0 ≤ socket →
      ClientRun t (Client.adopted t₀ t socket) .idle
  | wait {t₀ t : Time} {cl : Client} {φ : Phase} : ClientRun t₀ cl φ → t₀ ≤ t → ClientRun t cl φ
  | step {t₀ t : Time} {cl cl' : Client} {φ φ' : Phase} {ch : SocketChange} :
      ClientRun t₀ cl φ → t₀ ≤ t → ClientStep t₀ t cl φ ch cl' φ' → ClientRun t cl' φ'

section

variable [Configuration] {t₀ t : Time} {cl cl' : Client} {ch : SocketChange} {φ : Phase}

/-- Time may pass. -/
theorem UserRun.wait (h : t₀ ≤ t) : UserRun t₀ cl t cl :=
  .step .refl h (.stay cl)

/-- Runs of user code compose. -/
theorem UserRun.trans {t₁ : Time} {cl₁ : Client} (h₁ : UserRun t₀ cl t₁ cl₁)
    (h₂ : UserRun t₁ cl₁ t cl') : UserRun t₀ cl t cl' := by
  induction h₂ with
  | refl => exact h₁
  | step _ ht hstep ih => exact .step ih ht hstep

/-- User code runs in the phases that yield. -/
theorem ClientRun.user (h : ClientRun t₀ cl φ) (hφ : φ.yields = true)
    (hrun : UserRun t₀ cl t cl') : ClientRun t cl' φ := by
  induction hrun with
  | refl => exact h
  | step _ ht hstep ih => exact .step ih ht (.user hφ hstep)

/-- User code does not take back an answer. -/
theorem UserStep.dnsFinished (h : UserStep t₀ t cl ch cl') (hdns : cl.dnsFinished = true) :
    cl'.dnsFinished = true := by
  cases h with
  | connect u ip port hu hattempt => cases hattempt <;> exact hdns
  | answer q ip hq => rfl
  | _ => exact hdns

/-- A run of user code does not take back an answer. -/
theorem UserRun.dnsFinished (h : UserRun t₀ cl t cl') (hdns : cl.dnsFinished = true) :
    cl'.dnsFinished = true := by
  induction h with
  | refl => exact hdns
  | step _ _ hstep ih => exact hstep.dnsFinished ih

end

end AsyncTcpSock
