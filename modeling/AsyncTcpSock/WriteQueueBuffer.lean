import AsyncTcpSock.Types

/-!
# Write queue buffers

The buffers of a client's write queue and the loops over them: `WriteQueueBufferUtil::write`, which
hands one buffer to the socket, the pass of `ClientBase::_processWriteQueue` over the whole queue,
and the scan at the start of `ClientBase::_cleanupWriteQueue`.

The outcomes of the `lwip_write` calls to come are an argument. When they run out the socket is
full.
-/

namespace AsyncTcpSock

/-- `struct WriteStats` -/
structure WriteStats where
  length : ℕ
  delay : ℕ
  deriving DecidableEq, Repr

/-- `WriteQueueBuffer`. The two alternatives of the variant differ in who owns the bytes only, so
the alternative is a field. `seq` is not in the source: it numbers the buffers of a client in the
order `add` accepted them, and nothing computes with it. -/
structure WriteQueueBuffer where
  /-- `OwnedWriteQueueBuffer` rather than `BorrowedWriteQueueBuffer`. -/
  owned : Bool := true
  /-- `amountWritten` -/
  amountWritten : ℕ := 0
  /-- `queuedAt` -/
  queuedAt : Time
  /-- `writtenAt`; 0 stands for `time_point{}`, that is, not written. -/
  writtenAt : Time := 0
  /-- `errorCode` -/
  errorCode : ℤ := 0
  /-- `data` -/
  data : List UInt8
  /-- The number of the buffer. -/
  seq : ℕ := 0
  deriving DecidableEq, Repr

/-- One call of `lwip_write`: the buffer it was for, the bytes offered and what it reported. -/
structure WriteCall where
  /-- The buffer that the call was for. -/
  seq : ℕ
  /-- The bytes that it was offered. -/
  offered : List UInt8
  /-- What it reported. -/
  outcome : WriteOutcome
  deriving DecidableEq, Repr

/-- The bytes a call handed to the socket. `lwip_write` never takes more than it is offered. -/
def WriteCall.taken (call : WriteCall) : List UInt8 :=
  match call.outcome with
  | .wrote n => call.offered.take n
  | .failed _ => []

/-- Whether a call has reported an error number. -/
def WriteCall.failed (call : WriteCall) : Bool := call.outcome matches .failed _

namespace WriteQueueBuffer

/-- `WriteQueueBufferUtil::hasError` -/
def hasError (buf : WriteQueueBuffer) : Bool := buf.errorCode ≠ 0

/-- `WriteQueueBufferUtil::isFullyWritten` -/
def isFullyWritten (buf : WriteQueueBuffer) : Bool := buf.data.length ≤ buf.amountWritten

/-- The bytes of a buffer that `lwip_write` is offered next. -/
def unwritten (buf : WriteQueueBuffer) : List UInt8 := buf.data.drop buf.amountWritten

/-- What a run of the write loop comes to: the buffer, the bytes written, the calls made in order,
and the outcomes left over. -/
structure WriteResult where
  buf : WriteQueueBuffer
  writtenTotal : ℕ
  calls : List WriteCall
  rest : List WriteOutcome

/-- `WriteQueueBufferUtil::write`, where `now` is what the steady clock shows if the buffer is
completed. Each iteration of the loop consumes one outcome. -/
def write (now : Time) : List WriteOutcome → WriteQueueBuffer → WriteResult
  | [], buf => ⟨buf, 0, [⟨buf.seq, buf.unwritten, .failed EAGAIN⟩], []⟩
  | .wrote n :: rest, buf =>
      let call : WriteCall := ⟨buf.seq, buf.unwritten, .wrote n⟩
      let result := call.taken.length
      let buf := { buf with amountWritten := buf.amountWritten + result }
      -- a call that takes 0 bytes completes nothing, and the loop goes round again
      if buf.isFullyWritten then
        ⟨{ buf with writtenAt := now, data := [] }, result, [call], rest⟩
      else
        let r := write now rest buf
        ⟨r.buf, result + r.writtenTotal, call :: r.calls, r.rest⟩
  | .failed errno :: rest, buf =>
      let call : WriteCall := ⟨buf.seq, buf.unwritten, .failed errno⟩
      -- the socket is full, which is no error
      if errno = EAGAIN ∨ errno = EWOULDBLOCK then ⟨buf, 0, [call], rest⟩
      else ⟨{ buf with errorCode := errno }, 0, [call], rest⟩

end WriteQueueBuffer

/-! ## The pass over the queue -/

/-- What a pass takes from outside: the outcomes of `lwip_write` and the steady clock. -/
structure WriteIo where
  /-- The outcomes of `lwip_write` to come. -/
  writes : List WriteOutcome
  /-- The readings of the clock to come. -/
  ticks : List ℕ
  /-- What the clock has shown last. -/
  clock : Time

/-- `std::chrono::steady_clock::now()`: the next entry of `ticks` is the time that has passed since
the clock was last read. -/
def WriteIo.now (io : WriteIo) : WriteIo :=
  { io with ticks := io.ticks.tail, clock := io.clock + io.ticks.headD 0 }

/-- What a pass over the queue comes to. -/
structure PassResult where
  /-- The queue after the pass. -/
  queue : List WriteQueueBuffer
  /-- What is added to `_writeSpaceRemaining`. -/
  written : ℕ
  /-- Whether anything has been written. -/
  activity : Bool
  /-- The calls of `lwip_write`, in order. -/
  calls : List WriteCall
  /-- What is left to take from outside. -/
  io : WriteIo

/-- The loop of `ClientBase::_processWriteQueue`. It stops at a buffer that has an error already,
skips completed ones and writes the others; `written` is what it adds to `_writeSpaceRemaining`.
The clock is read for every buffer written, of which only a completed one uses it. -/
def processQueue : WriteIo → List WriteQueueBuffer → PassResult
  | io, [] => ⟨[], 0, false, [], io⟩
  | io, buf :: rest =>
      -- `break`: what comes after a buffer with an error is not touched
      if buf.hasError then ⟨buf :: rest, 0, false, [], io⟩
      else if buf.isFullyWritten then
        -- `continue`: the buffer is waiting for `_cleanupWriteQueue`
        let p := processQueue io rest
        ⟨buf :: p.queue, p.written, p.activity, p.calls, p.io⟩
      else
        let io := io.now
        let r := buf.write io.clock io.writes
        -- the loop goes on whatever became of this buffer: neither a full socket nor a new error
        -- stops the pass
        let p := processQueue { io with writes := r.rest } rest
        ⟨r.buf :: p.queue, r.writtenTotal + p.written, decide (0 < r.writtenTotal) || p.activity,
          r.calls ++ p.calls, p.io⟩

/-! ## The scan for finished buffers -/

/-- `WriteStats` of a finished buffer. -/
def WriteQueueBuffer.stats (buf : WriteQueueBuffer) : WriteStats :=
  ⟨buf.amountWritten, delayMillis (buf.writtenAt - buf.queuedAt)⟩

/-- What the scan of `ClientBase::_cleanupWriteQueue` comes to: the new `_rx_last_packet`, the
notifications collected, and the error of the buffer it stopped at, if that is why it stopped. -/
structure ScanResult where
  rxLastPacket : Time
  notifyQueue : List WriteStats
  error : Option ℤ
  deriving DecidableEq, Repr

/-- The loop of `ClientBase::_cleanupWriteQueue` over the front of the queue. -/
def scanQueue : Time → List WriteQueueBuffer → ScanResult
  | rxLastPacket, [] => ⟨rxLastPacket, [], none⟩
  | rxLastPacket, buf :: rest =>
      -- the function returns here, and the notifications collected so far are lost
      if buf.hasError then ⟨rxLastPacket, [], some buf.errorCode⟩
      else if !buf.isFullyWritten then ⟨rxLastPacket, [], none⟩
      else
        let r := scanQueue (if buf.writtenAt > rxLastPacket then buf.writtenAt else rxLastPacket)
          rest
        ⟨r.rxLastPacket, buf.stats :: r.notifyQueue, r.error⟩

end AsyncTcpSock
