import AsyncTcpSock.ClientInvariants
import AsyncTcpSock.Continuity
import AsyncTcpSock.Refinement
import AsyncTcpSock.Runs

/-!
# Durations

The library subtracts times in four places: for the polls, for the two timeouts, and for the delay
that `SENT` reports. In every state of every run the earlier time is the one that is subtracted, and
the first buffer of a write queue, which is the only one the ack timeout looks at, is the one that
has waited longest. (The calls of a run do not overlap. `add` reads the clock before it takes the
mutex, so that the buffers of two threads may change places.)
-/

namespace AsyncTcpSock

open Reentrant

/-- The times of a buffer are in order. -/
def WriteQueueBuffer.Dated (buf : WriteQueueBuffer) : Prop :=
  buf.isFullyWritten = true → buf.queuedAt ≤ buf.writtenAt

/-! ## The pass over the queue -/

/-- The time at which a buffer is completed is later than the one at which it was queued. -/
theorem WriteQueueBuffer.dated_write {buf : WriteQueueBuffer} {now : Time}
    (outs : List WriteOutcome) (hbuf : buf.amountWritten < buf.data.length)
    (hnow : buf.queuedAt ≤ now) : (buf.write now outs).buf.Dated := by
  intro hfull
  rw [write_queuedAt, write_writtenAt now outs hbuf, if_pos hfull]
  exact hnow

/-- A pass completes no buffer before it was queued. -/
theorem dated_processQueue {io : WriteIo} {queue : List WriteQueueBuffer}
    (hdated : ∀ buf ∈ queue, buf.Dated) (hqueued : ∀ buf ∈ queue, buf.queuedAt ≤ io.clock) :
    ∀ buf ∈ (processQueue io queue).queue, buf.Dated := by
  induction queue generalizing io with
  | nil => exact hdated
  | cons buf rest ih =>
      obtain ⟨hbuf, hrest⟩ := List.forall_mem_cons.mp hdated
      obtain ⟨htime, htimes⟩ := List.forall_mem_cons.mp hqueued
      simp only [processQueue]
      split
      · exact hdated
      · split
        · exact List.forall_mem_cons.mpr ⟨hbuf, ih hrest htimes⟩
        · rename_i hfull
          have hlt := WriteQueueBuffer.isFullyWritten_eq_false.mp (eq_false_of_ne_true hfull)
          -- the clock is read before each buffer is written
          have hnow : io.clock ≤ io.now.clock := Nat.le_add_right ..
          refine List.forall_mem_cons.mpr ⟨buf.dated_write _ hlt (htime.trans hnow), ?_⟩
          exact ih hrest fun buf' hbuf' => (htimes buf' hbuf').trans hnow

/-! ## The invariant -/

/-- The write queue is in the order of time. -/
structure Client.InTime (cl : Client) : Prop where
  /-- The buffers are in the order in which they were queued. -/
  sorted : (cl.writeQueue.map WriteQueueBuffer.queuedAt).Pairwise (· ≤ ·)
  /-- No buffer was completed before it was queued. -/
  dated : ∀ buf ∈ cl.writeQueue, buf.Dated

section

variable [Configuration] {t₀ t : Time} {cl cl' : Client} {φ φ' : Phase} {ch : SocketChange}

namespace Client.InTime

omit [Configuration] in
/-- An empty queue is in order. -/
theorem nil (hqueue : cl.writeQueue = []) : cl.InTime := by
  constructor
  · rw [hqueue]
    exact .nil
  · rw [hqueue]
    intro buf hbuf
    cases hbuf

omit [Configuration] in
/-- `add` queues a buffer behind those that are there already. -/
theorem commit (hcl : cl.InTime) (hstamped : cl.Stamped t) (owned : Bool) {data : List UInt8}
    (hdata : data ≠ []) : (cl.commit owned t data).InTime := by
  constructor
  · simp only [Client.commit, List.map_append, List.map_singleton]
    refine List.pairwise_append.mpr ⟨hcl.sorted, List.pairwise_singleton _ _, ?_⟩
    intro a ha b hb
    obtain ⟨buf, hbuf, rfl⟩ := List.mem_map.mp ha
    rw [List.mem_singleton.mp hb]
    exact (hstamped.queue buf hbuf).queuedAt
  · refine List.forall_mem_append.mpr ⟨hcl.dated, List.forall_mem_singleton.mpr fun hfull => ?_⟩
    -- a new buffer has something to write
    exact absurd (List.length_eq_zero_iff.mp (Nat.le_zero.mp (of_decide_eq_true hfull))) hdata

omit [Configuration] in
/-- A pass keeps the order, and completes the buffers of a time that has passed. -/
theorem afterPass (hcl : cl.InTime) (hstamped : cl.Stamped t) {io : WriteIo} (hio : io.clock = t) :
    (cl.afterPass (processQueue io cl.writeQueue)).InTime := by
  constructor
  · rw [Client.afterPass,
      map_processQueue fun now outs _ _ => WriteQueueBuffer.write_queuedAt now outs]
    exact hcl.sorted
  · exact dated_processQueue hcl.dated fun buf hbuf => hio ▸ (hstamped.queue buf hbuf).queuedAt

omit [Configuration] in
/-- The back of the queue is in order. -/
theorem drop (hcl : cl.InTime) (n : ℕ) (hqueue : cl'.writeQueue = cl.writeQueue.drop n) :
    cl'.InTime := by
  constructor
  · rw [hqueue, List.map_drop]
    exact hcl.sorted.sublist (List.drop_sublist ..)
  · rw [hqueue]
    exact fun buf hbuf => hcl.dated buf (List.mem_of_mem_drop hbuf)

omit [Configuration] in
/-- An attempt leaves the queue alone. -/
theorem attempt {ip : IPAddress} {port : UInt16} {success : Bool} (hcl : cl.InTime)
    (h : Attempt ip port cl ch cl' success) : cl'.InTime := by
  cases h <;> exact ⟨hcl.sorted, hcl.dated⟩

end Client.InTime

/-- A step of user code keeps the queue in order. -/
theorem UserStep.inTime (h : UserStep t₀ t cl ch cl') (ht : t₀ ≤ t) (hstamped : cl.Stamped t₀)
    (hcl : cl.InTime) : cl'.InTime := by
  cases h with
  | commit owned data _ hdata _ => exact hcl.commit (hstamped.mono ht) owned hdata
  | pass io _ _ hio _ => exact hcl.afterPass hstamped hio
  | close _ => exact .nil rfl
  | connect u ip port _ hattempt =>
      have hcall : (cl.log (.call u)).InTime := ⟨hcl.sorted, hcl.dated⟩
      have hafter := hcall.attempt hattempt
      exact ⟨hafter.sorted, hafter.dated⟩
  | _ => exact ⟨hcl.sorted, hcl.dated⟩

/-- A step of a handler keeps the queue in order. -/
theorem HandlerStep.inTime (h : HandlerStep t₀ t cl φ ch cl' φ') (hstamped : cl.Stamped t₀)
    (hcl : cl.InTime) : cl'.InTime := by
  cases h with
  | pass activity io _ _ hio _ => exact hcl.afterPass hstamped hio
  | cleaned next _ => exact hcl.drop _ rfl
  | failed | rxExpired | peerClosed => exact .nil rfl
  | resolved _ hattempt => exact hcl.attempt hattempt
  | _ => exact ⟨hcl.sorted, hcl.dated⟩

/-- The queue of every client that a run comes to is in order. -/
theorem ClientRun.inTime (h : ClientRun t cl φ) : cl.InTime := by
  induction h with
  | new t => exact .nil rfl
  | adopted t₀ t socket _ _ =>
      apply Client.InTime.nil
      unfold Client.adopted
      split <;> rfl
  | wait _ _ ih => exact ih
  | step hrun ht hstep ih =>
      have hstamped := hrun.stamped
      cases hstep with
      | user _ hstep => exact hstep.inTime ht hstamped ih
      | handler hstep => exact hstep.inTime hstamped ih

/-- No duration that the library computes is negative: the times at which a client was active and at
which it has received something have passed, and so have those at which its buffers were queued, no
buffer is completed before it is queued, and an incomplete one has no time of completion. The
buffers of the write queue are in the order in which they were queued, so that the ack timeout looks
at the one that has waited longest. -/
theorem durations_nonneg {s : System} (hs : Reachable s) {c : ClientId}
    (hcl : s.state.clients c = some cl) :
    cl.lastActive ≤ s.state.clock ∧ cl.rxLastPacket ≤ s.state.clock ∧
      (cl.writeQueue.map WriteQueueBuffer.queuedAt).Pairwise (· ≤ ·) ∧
      ∀ buf ∈ cl.writeQueue, buf.queuedAt ≤ s.state.clock ∧ buf.writtenAt ≤ s.state.clock ∧
        if buf.isFullyWritten = true then buf.queuedAt ≤ buf.writtenAt else buf.writtenAt = 0 := by
  obtain ⟨φ, hrun⟩ := hs.clientRun hcl
  have hstamped := hrun.stamped
  have hinTime := hrun.inTime
  refine ⟨hrun.lastActive, hstamped.rxLastPacket, hinTime.sorted, fun buf hbuf => ?_⟩
  obtain ⟨hqueued, hwritten, hunset⟩ := hstamped.queue buf hbuf
  refine ⟨hqueued, hwritten, ?_⟩
  split
  · exact hinTime.dated buf hbuf ‹_›
  · exact hunset (eq_false_of_ne_true ‹_›)

end

section

attribute [local instance] Configuration.esp32

/-- A buffer has been completed 3 milliseconds after it was queued, and another one is waiting. -/
theorem durations_nonneg_waiting :
    ∃ s cl, Reachable s ∧ s.state.clients 0 = some cl ∧
      cl.writeQueue.map (fun buf => (buf.queuedAt, buf.writtenAt)) =
        [(1000000, 4000000), (2000000, 0)] ∧
      cl.lastActive ≤ s.state.clock ∧ cl.rxLastPacket ≤ s.state.clock ∧
      (cl.writeQueue.map WriteQueueBuffer.queuedAt).Pairwise (· ≤ ·) ∧
      ∀ buf ∈ cl.writeQueue, buf.queuedAt ≤ s.state.clock ∧ buf.writtenAt ≤ s.state.clock ∧
        if buf.isFullyWritten = true then buf.queuedAt ≤ buf.writtenAt else buf.writtenAt = 0 := by
  obtain ⟨s, cl, hs, hcl, htimes⟩ := exists_reachable_client
    (P := fun cl => cl.writeQueue.map (fun buf => (buf.queuedAt, buf.writtenAt)) =
      [(1000000, 4000000), (2000000, 0)])
    [.ext (.newClientFrom 48),
      .ext (.outcomes {
        ticks := [1000000, 1000000, 2000000, 0], selects := [true], writes := [.wrote 2] }),
      .ext (.call 0 (.add (some [1, 2]) (.of .copy))),
      .ext (.call 0 (.add (some [3, 4]) (.of .copy))), .ext (.call 0 .send)] 0 (by decide +kernel)
  exact ⟨s, cl, hs, hcl, htimes, durations_nonneg hs hcl⟩

end

end AsyncTcpSock
