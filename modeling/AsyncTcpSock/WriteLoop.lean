import AsyncTcpSock.WriteQueue
import AsyncTcpSock.Loops.Iterate

/-!
# The write loop of one buffer

`WriteQueueBufferUtil::write` as the loop it is: a `do … while` whose body calls `lwip_write`, with
an operating system that may answer each call as it likes. The loop terminates, its calls go through
the data slice by slice, and the buffer is left completed, stalled or failed.

- `writeLoop_eq_write`: the loop is `WriteQueueBuffer.write` on the answers that it gets.
- `writeLoop_terminates`: what a run of the loop comes to.
-/

namespace AsyncTcpSock

/-- What `lwip_write` reports when it is called for the `k`-th time and offered some bytes. -/
abbrev LwipWrite : Type := ℕ → List UInt8 → WriteOutcome

/-- A success takes between one and the offered number of bytes, and a failure sets `errno`. -/
def WriteOutcome.Lawful (offered : List UInt8) : WriteOutcome → Prop
  | .wrote n => 1 ≤ n ∧ n ≤ offered.length
  | .failed errno => errno ≠ 0

/-- A call takes the first bytes that it is offered. -/
theorem WriteCall.taken_prefix (call : WriteCall) : call.taken <+: call.offered := by
  unfold WriteCall.taken
  split
  · exact List.take_prefix ..
  · exact List.nil_prefix

namespace WriteQueueBuffer

/-- The variables of the loop: the buffer, `writtenTotal`, and the calls made so far. -/
structure LoopState where
  buf : WriteQueueBuffer
  writtenTotal : ℕ := 0
  calls : List WriteCall := []

/-- The test at the end of the loop: `.inl` begins another round. -/
def LoopState.again (st : LoopState) : LoopState ⊕ LoopState :=
  if st.buf.isFullyWritten then .inr st else .inl st

/-- The body of the loop. `break` is `.inr`. -/
def loopBody (lwipWrite : LwipWrite) (now : Time) (st : LoopState) : LoopState ⊕ LoopState :=
  let outcome := lwipWrite st.calls.length st.buf.unwritten
  let calls := st.calls ++ [⟨st.buf.seq, st.buf.unwritten, outcome⟩]
  match outcome with
  | .wrote n =>
      let buf := { st.buf with amountWritten := st.buf.amountWritten + n }
      if buf.isFullyWritten then
        .inr ⟨{ buf with writtenAt := now, data := [] }, st.writtenTotal + n, calls⟩
      else LoopState.again ⟨buf, st.writtenTotal + n, calls⟩
  | .failed errno =>
      if errno = EAGAIN ∨ errno = EWOULDBLOCK then .inr ⟨st.buf, st.writtenTotal, calls⟩
      else .inr ⟨{ st.buf with errorCode := errno }, st.writtenTotal, calls⟩

/-- `WriteQueueBufferUtil::write`, for at most `fuel` rounds. -/
def writeLoop (lwipWrite : LwipWrite) (now : Time) (fuel : ℕ) (buf : WriteQueueBuffer) :
    Option LoopState :=
  Loops.iterate (loopBody lwipWrite now) fuel { buf }

/-- The ways through the body. -/
theorem loopBody_cases {lwipWrite : LwipWrite} (now : Time) {st : LoopState}
    (hlawful : (lwipWrite st.calls.length st.buf.unwritten).Lawful st.buf.unwritten) :
    (∃ n, 1 ≤ n ∧ st.buf.amountWritten + n < st.buf.data.length ∧
      loopBody lwipWrite now st =
        .inl ⟨{ st.buf with amountWritten := st.buf.amountWritten + n }, st.writtenTotal + n,
          st.calls ++ [⟨st.buf.seq, st.buf.unwritten, .wrote n⟩]⟩) ∨
    (∃ n, 1 ≤ n ∧ n = st.buf.unwritten.length ∧
      loopBody lwipWrite now st =
        .inr ⟨{ st.buf with
            amountWritten := st.buf.amountWritten + n, writtenAt := now, data := [] },
          st.writtenTotal + n, st.calls ++ [⟨st.buf.seq, st.buf.unwritten, .wrote n⟩]⟩) ∨
    (∃ errno, (errno = EAGAIN ∨ errno = EWOULDBLOCK) ∧
      loopBody lwipWrite now st =
        .inr ⟨st.buf, st.writtenTotal,
          st.calls ++ [⟨st.buf.seq, st.buf.unwritten, .failed errno⟩]⟩) ∨
    ∃ errno, errno ≠ 0 ∧ ¬(errno = EAGAIN ∨ errno = EWOULDBLOCK) ∧
      loopBody lwipWrite now st =
        .inr ⟨{ st.buf with errorCode := errno }, st.writtenTotal,
          st.calls ++ [⟨st.buf.seq, st.buf.unwritten, .failed errno⟩]⟩ := by
  rw [loopBody]
  generalize lwipWrite st.calls.length st.buf.unwritten = outcome at hlawful
  rcases outcome with n | errno
  · obtain ⟨hn, hle⟩ := hlawful
    have hlength : st.buf.unwritten.length = st.buf.data.length - st.buf.amountWritten :=
      length_unwritten
    simp only [LoopState.again, isFullyWritten, decide_eq_true_eq]
    -- the round ends the loop if the call took all that was left
    by_cases hfull : st.buf.data.length ≤ st.buf.amountWritten + n
    · refine .inr (.inl ⟨n, hn, by omega, ?_⟩)
      rw [if_pos hfull]
    · refine .inl ⟨n, hn, by omega, ?_⟩
      rw [if_neg hfull, if_neg hfull]
  · by_cases hstalled : errno = EAGAIN ∨ errno = EWOULDBLOCK
    · refine .inr (.inr (.inl ⟨errno, hstalled, ?_⟩))
      simp only [if_pos hstalled]
    · refine .inr (.inr (.inr ⟨errno, hlawful, hstalled, ?_⟩))
      simp only [if_neg hstalled]

/-! ## The answers that the loop gets -/

/-- The list of what the calls reported. -/
def answers (calls : List WriteCall) : List WriteOutcome := calls.map WriteCall.outcome

/-- From any of its rounds on, the loop is `write` on the answers that it will get. -/
private theorem write_of_iterate {lwipWrite : LwipWrite} {now : Time} (rest : List WriteOutcome)
    (hlawful : ∀ k offered, offered ≠ [] → (lwipWrite k offered).Lawful offered) {fuel : ℕ}
    {st r : LoopState} (hst : st.buf.amountWritten < st.buf.data.length)
    (h : Loops.iterate (loopBody lwipWrite now) fuel st = some r) :
    ∃ calls total, r.calls = st.calls ++ calls ∧ r.writtenTotal = st.writtenTotal + total ∧
      st.buf.write now (answers calls ++ rest) = ⟨r.buf, total, calls, rest⟩ := by
  induction fuel generalizing st with
  | zero => cases h
  | succ fuel ih =>
      have hne : st.buf.unwritten ≠ [] := by
        rw [← List.length_pos_iff, length_unwritten]
        omega
      have hlength : st.buf.unwritten.length = st.buf.data.length - st.buf.amountWritten :=
        length_unwritten
      rcases loopBody_cases now (hlawful st.calls.length _ hne) with
        ⟨n, hn, hlt, hbody⟩ | ⟨n, hn, hall, hbody⟩ | ⟨errno, hstalled, hbody⟩ |
        ⟨errno, -, hfailed, hbody⟩
      · rw [Loops.iterate_succ_of_inl hbody] at h
        obtain ⟨calls, total, hcalls, htotal, hwrite⟩ := ih hlt h
        -- the call took `n` bytes, no more than it was offered
        have htaken : WriteCall.taken ⟨st.buf.seq, st.buf.unwritten, .wrote n⟩ =
            st.buf.unwritten.take n := rfl
        have hmin : min n st.buf.unwritten.length = n := by omega
        refine ⟨⟨st.buf.seq, st.buf.unwritten, .wrote n⟩ :: calls, n + total, ?_, ?_, ?_⟩
        · rw [hcalls, List.append_assoc, List.singleton_append]
        · rw [htotal, Nat.add_assoc]
        · simp only [answers, List.map_cons, List.cons_append, write, htaken, List.length_take,
            hmin]
          rw [if_neg (by simpa [isFullyWritten] using hlt)]
          simp only [answers] at hwrite
          rw [hwrite]
      · rw [Loops.iterate_succ_of_inr hbody] at h
        cases h
        refine ⟨[⟨st.buf.seq, st.buf.unwritten, .wrote n⟩], n, rfl, rfl, ?_⟩
        have hmin : min n st.buf.unwritten.length = n := by omega
        have hfull : st.buf.data.length ≤ st.buf.amountWritten + n := by omega
        simp [answers, write, WriteCall.taken, hmin, isFullyWritten, hfull]
      · rw [Loops.iterate_succ_of_inr hbody] at h
        cases h
        refine ⟨[⟨st.buf.seq, st.buf.unwritten, .failed errno⟩], 0, rfl, rfl, ?_⟩
        simp only [answers, List.map_cons, List.map_nil, List.singleton_append, write,
          if_pos hstalled]
      · rw [Loops.iterate_succ_of_inr hbody] at h
        cases h
        refine ⟨[⟨st.buf.seq, st.buf.unwritten, .failed errno⟩], 0, rfl, rfl, ?_⟩
        simp only [answers, List.map_cons, List.map_nil, List.singleton_append, write,
          if_neg hfailed]

/-- The loop is `write` on the answers that it gets. -/
theorem writeLoop_eq_write {lwipWrite : LwipWrite} {now : Time} (rest : List WriteOutcome)
    (hlawful : ∀ k offered, offered ≠ [] → (lwipWrite k offered).Lawful offered) {fuel : ℕ}
    {buf : WriteQueueBuffer} {r : LoopState} (hbuf : buf.amountWritten < buf.data.length)
    (h : writeLoop lwipWrite now fuel buf = some r) :
    buf.write now (answers r.calls ++ rest) = ⟨r.buf, r.writtenTotal, r.calls, rest⟩ := by
  obtain ⟨calls, total, hcalls, htotal, hwrite⟩ := write_of_iterate rest hlawful hbuf h
  simp only [List.nil_append, Nat.zero_add] at hcalls htotal
  rw [hcalls, htotal]
  exact hwrite

/-! ## What a run of the loop comes to -/

/-- The calls offer consecutive slices of `data` from position `pos` on: each one what its
predecessors have left. -/
def Consecutive (data : List UInt8) : ℕ → List WriteCall → Prop
  | _, [] => True
  | pos, call :: rest =>
      call.offered = data.drop pos ∧ call.taken <+: data.drop pos ∧
        Consecutive data (pos + call.taken.length) rest

/-- The bytes taken by a list of calls. -/
def takenTotal (calls : List WriteCall) : ℕ := (calls.map fun call => call.taken.length).sum

/-- One more call adds what it takes. -/
theorem takenTotal_concat (calls : List WriteCall) (call : WriteCall) :
    takenTotal (calls ++ [call]) = takenTotal calls + call.taken.length := by
  simp [takenTotal]

/-- One more call offers what the calls before it have left. -/
theorem Consecutive.concat {data : List UInt8} {pos : ℕ} {calls : List WriteCall} {call : WriteCall}
    (h : Consecutive data pos calls)
    (hoffered : call.offered = data.drop (pos + takenTotal calls)) :
    Consecutive data pos (calls ++ [call]) := by
  induction calls generalizing pos with
  | nil =>
      have hoffered : call.offered = data.drop pos := by simpa [takenTotal] using hoffered
      exact ⟨hoffered, hoffered ▸ call.taken_prefix, trivial⟩
  | cons first rest ih =>
      obtain ⟨hfirst, htaken, hrest⟩ := h
      refine ⟨hfirst, htaken, ih hrest ?_⟩
      rw [hoffered, takenTotal, List.map_cons, List.sum_cons, ← Nat.add_assoc, takenTotal]

/-- How the loop may leave a buffer. -/
inductive Ending where
  | completed
  | stalled
  | failed
  deriving DecidableEq, Repr

/-- What `r` is when the loop has left the buffer `buf` in one of these ways. -/
def Ending.Holds (buf : WriteQueueBuffer) (now : Time) (r : LoopState) : Ending → Prop
  | completed => r.buf.amountWritten = buf.data.length ∧ r.buf.data = [] ∧ r.buf.writtenAt = now ∧
      r.buf.errorCode = 0
  | stalled => r.buf.amountWritten < buf.data.length ∧ r.buf.data = buf.data ∧
      r.buf.writtenAt = buf.writtenAt ∧ r.buf.errorCode = 0 ∧
      ∃ call errno, r.calls.getLast? = some call ∧ call.outcome = .failed errno ∧
        (errno = EAGAIN ∨ errno = EWOULDBLOCK)
  | failed => r.buf.amountWritten < buf.data.length ∧ r.buf.data = buf.data ∧
      r.buf.writtenAt = buf.writtenAt ∧ r.buf.errorCode ≠ 0 ∧
      ∃ call, r.calls.getLast? = some call ∧ call.outcome = .failed r.buf.errorCode

/-- What the calls have done, in the loop and when it is left. -/
structure Accounted (buf : WriteQueueBuffer) (st : LoopState) : Prop where
  /-- The buffer counts what the loop has written. -/
  amountWritten : st.buf.amountWritten = buf.amountWritten + st.writtenTotal
  /-- `writtenTotal` is the number of bytes the calls have taken. -/
  total : st.writtenTotal = takenTotal st.calls
  /-- Each call offers what the one before it has left. -/
  consecutive : Consecutive buf.data buf.amountWritten st.calls

/-- The loop invariant: nothing of the buffer has changed but the number of bytes written, and each
call has taken a byte. -/
structure Running (buf : WriteQueueBuffer) (st : LoopState) : Prop extends Accounted buf st where
  /-- Nothing else of the buffer has changed. -/
  buf_eq : st.buf = { buf with amountWritten := st.buf.amountWritten }
  /-- Bytes are left to be written. -/
  incomplete : st.buf.amountWritten < buf.data.length
  /-- Each call has taken a byte at least. -/
  calls_le : st.calls.length ≤ st.writtenTotal

variable {buf : WriteQueueBuffer} {now : Time} {st : LoopState}

/-- The data are the same in every round. -/
theorem Running.data_eq (h : Running buf st) : st.buf.data = buf.data := by
  rw [h.buf_eq]

/-- No error has been stored yet. -/
theorem Running.errorCode_eq (h : Running buf st) : st.buf.errorCode = buf.errorCode := by
  rw [h.buf_eq]

/-- No time has been stored yet. -/
theorem Running.writtenAt_eq (h : Running buf st) : st.buf.writtenAt = buf.writtenAt := by
  rw [h.buf_eq]

/-- The loop goes on where the last call has left off. -/
theorem Running.unwritten_eq (h : Running buf st) :
    st.buf.unwritten = buf.data.drop (buf.amountWritten + takenTotal st.calls) := by
  rw [unwritten, h.data_eq, h.amountWritten, h.total]

/-- One more call is accounted for. -/
theorem Running.call (h : Running buf st) {outcome : WriteOutcome} {n : ℕ} {buf' : WriteQueueBuffer}
    (htaken : (WriteCall.mk st.buf.seq st.buf.unwritten outcome).taken.length = n)
    (hbuf' : buf'.amountWritten = st.buf.amountWritten + n) :
    Accounted buf ⟨buf', st.writtenTotal + n,
      st.calls ++ [⟨st.buf.seq, st.buf.unwritten, outcome⟩]⟩ where
  amountWritten := by rw [hbuf', h.amountWritten, Nat.add_assoc]
  total := by rw [takenTotal_concat, htaken, h.total]
  consecutive := h.consecutive.concat h.unwritten_eq

/-- A lawful call takes as many bytes as it reports. -/
theorem length_taken_wrote {seq n : ℕ} {offered : List UInt8} (hn : n ≤ offered.length) :
    (WriteCall.mk seq offered (.wrote n)).taken.length = n := by
  rw [WriteCall.taken, List.length_take, Nat.min_eq_left hn]

/-- A round that does not leave the loop. -/
theorem Running.next (h : Running buf st) {n : ℕ} (hn : 1 ≤ n)
    (hlt : st.buf.amountWritten + n < st.buf.data.length) :
    Running buf ⟨{ st.buf with amountWritten := st.buf.amountWritten + n }, st.writtenTotal + n,
      st.calls ++ [⟨st.buf.seq, st.buf.unwritten, .wrote n⟩]⟩ where
  toAccounted := h.call (length_taken_wrote (by rw [length_unwritten]; omega)) rfl
  buf_eq := by rw [h.buf_eq]
  incomplete := by rwa [h.data_eq] at hlt
  calls_le := by
    have hcalls := h.calls_le
    simp only [List.length_append, List.length_singleton]
    omega

/-- What the loop leaves behind is not two things at once. -/
theorem Ending.Holds.unique {r : LoopState} {k l : Ending} (hk : k.Holds buf now r)
    (hl : l.Holds buf now r) : l = k := by
  cases k <;> cases l <;> simp only [Ending.Holds] at hk hl <;> first | rfl | omega

/-- The loop has been left in the right way. -/
structure Returned (buf : WriteQueueBuffer) (now : Time) (r : LoopState) : Prop
    extends Accounted buf r where
  /-- All calls but the last have taken a byte at least. -/
  calls_le : r.calls.length ≤ r.writtenTotal + 1
  /-- No more has been written than was left. -/
  written_le : r.writtenTotal ≤ buf.data.length - buf.amountWritten
  /-- The last call has ended the loop. -/
  ending : ∃ k : Ending, k.Holds buf now r

/-- Every exit of the loop. -/
theorem Running.returned {lwipWrite : LwipWrite} {r : LoopState} (h : Running buf st)
    (hlawful : ∀ k offered, offered ≠ [] → (lwipWrite k offered).Lawful offered)
    (herror : buf.errorCode = 0) (hbody : loopBody lwipWrite now st = .inr r) :
    Returned buf now r := by
  have hlength : st.buf.unwritten.length = st.buf.data.length - st.buf.amountWritten :=
    length_unwritten
  have hincomplete := h.incomplete
  have hdata := h.data_eq
  have hamount := h.amountWritten
  have hcalls := h.calls_le
  have hne : st.buf.unwritten ≠ [] := by
    rw [← List.length_pos_iff, hlength, hdata]
    omega
  have hcall (outcome : WriteOutcome) :
      (st.calls ++ [WriteCall.mk st.buf.seq st.buf.unwritten outcome]).length =
        st.calls.length + 1 := by
    rw [List.length_append, List.length_singleton]
  rcases loopBody_cases now (hlawful st.calls.length _ hne) with
    ⟨n, -, -, hbody'⟩ | ⟨n, hn, hall, hbody'⟩ | ⟨errno, hfull, hbody'⟩ | ⟨errno, herrno, -, hbody'⟩
  · -- a call that took a part keeps the loop going
    rw [hbody'] at hbody
    cases hbody
  · -- the buffer is fully written, and its data have been released
    rw [hbody'] at hbody
    cases hbody
    rw [hlength, hdata] at hall
    refine ⟨h.call (length_taken_wrote (by rw [hlength, hdata]; omega)) rfl, ?_, ?_,
      .completed, ?_, rfl, rfl, h.errorCode_eq.trans herror⟩
    · show List.length (st.calls ++ _) ≤ st.writtenTotal + n + 1
      rw [hcall]
      omega
    · show st.writtenTotal + n ≤ _
      omega
    · show st.buf.amountWritten + n = _
      omega
  · -- the socket is full
    rw [hbody'] at hbody
    cases hbody
    refine ⟨h.call (n := 0) rfl rfl, ?_, ?_, .stalled, hincomplete, hdata, h.writtenAt_eq,
      h.errorCode_eq.trans herror, _, errno, List.getLast?_concat, rfl, hfull⟩
    · show List.length (st.calls ++ _) ≤ st.writtenTotal + 1
      rw [hcall]
      omega
    · show st.writtenTotal ≤ _
      omega
  · -- a call has failed
    rw [hbody'] at hbody
    cases hbody
    refine ⟨h.call (n := 0) rfl rfl, ?_, ?_, .failed, hincomplete, hdata, h.writtenAt_eq, herrno,
      _, List.getLast?_concat, rfl⟩
    · show List.length (st.calls ++ _) ≤ st.writtenTotal + 1
      rw [hcall]
      omega
    · show st.writtenTotal ≤ _
      omega

/-- The loop ends after at most one call for every byte left and one more. Its calls offer and take
consecutive slices of the data, it returns the number of bytes they have taken, by which it has
advanced `amountWritten`, and it leaves the buffer in exactly one of the three ways. A buffer that
it does not complete keeps its `writtenAt`, which has not been set (`ClientRun.writtenAt_eq_zero`).
-/
theorem writeLoop_terminates (buf : WriteQueueBuffer) (now : Time) (lwipWrite : LwipWrite)
    (hbuf : buf.amountWritten < buf.data.length) (herror : buf.errorCode = 0)
    (hlawful : ∀ k offered, offered ≠ [] → (lwipWrite k offered).Lawful offered) :
    ∃ r, (∀ fuel, buf.data.length - buf.amountWritten + 1 ≤ fuel →
        writeLoop lwipWrite now fuel buf = some r) ∧
      r.calls.length ≤ buf.data.length - buf.amountWritten + 1 ∧
      Consecutive buf.data buf.amountWritten r.calls ∧
      r.buf.amountWritten = buf.amountWritten + r.writtenTotal ∧
      r.writtenTotal = takenTotal r.calls ∧
      ∃! k : Ending, k.Holds buf now r := by
  have hstart : Running buf { buf } := ⟨⟨rfl, rfl, trivial⟩, rfl, hbuf, Nat.le_refl 0⟩
  -- what is left to write becomes less in every round
  have hnext : ∀ st st', Running buf st → loopBody lwipWrite now st = .inl st' →
      Running buf st' ∧
        buf.data.length - st'.buf.amountWritten < buf.data.length - st.buf.amountWritten := by
    intro st st' h hbody
    have hincomplete := h.incomplete
    have hne : st.buf.unwritten ≠ [] := by
      rw [← List.length_pos_iff, length_unwritten, h.data_eq]
      omega
    rcases loopBody_cases now (hlawful st.calls.length _ hne) with
      ⟨n, hn, hlt, hbody'⟩ | ⟨n, -, -, hbody'⟩ | ⟨errno, -, hbody'⟩ | ⟨errno, -, -, hbody'⟩ <;>
      rw [hbody'] at hbody <;> cases hbody
    refine ⟨h.next hn hlt, ?_⟩
    show buf.data.length - (st.buf.amountWritten + n) < _
    omega
  obtain ⟨r, hr, hreturns⟩ := Loops.iterate_terminates (Running buf)
    (fun st => buf.data.length - st.buf.amountWritten) (Returned buf now) hnext
    (fun st r h hbody => h.returned hlawful herror hbody) hstart
  obtain ⟨k, hk⟩ := hr.ending
  have hcalls := hr.calls_le
  have hwritten := hr.written_le
  refine ⟨r, hreturns, by omega, hr.consecutive, hr.amountWritten, hr.total, k, hk, ?_⟩
  intro l hl
  exact hk.unique hl

/-- The first of two bytes is taken, then the socket is full. -/
theorem writeLoop_terminates_stalled :
    ∃ r, (∀ fuel, 3 ≤ fuel →
        writeLoop (fun k _ => if k = 0 then .wrote 1 else .failed EAGAIN) 7 fuel
          { queuedAt := 5, data := [104, 105] } = some r) ∧
      r.calls.length ≤ 3 ∧ Consecutive [104, 105] 0 r.calls ∧
      r.buf.amountWritten = 0 + r.writtenTotal ∧ r.writtenTotal = takenTotal r.calls ∧
      ∃! k : Ending, k.Holds { queuedAt := 5, data := [104, 105] } 7 r :=
  writeLoop_terminates { queuedAt := 5, data := [104, 105] } 7 _ (by decide) rfl (by
    intro k offered hoffered
    split
    · exact ⟨Nat.le_refl 1, List.length_pos_iff.mpr hoffered⟩
    · show EAGAIN ≠ 0
      decide)

end WriteQueueBuffer

end AsyncTcpSock
