import Mathlib.Data.List.Forall2
import AsyncTcpSock.Lifecycle
import AsyncTcpSock.Reentrant.History

/-!
# The write queue

What a run of the write loop does to one buffer, what a pass does to a queue, and what the scan for
finished buffers finds. Other modules use the functions of `WriteQueueBuffer.lean` through these
specifications only.
-/

namespace AsyncTcpSock

open Reentrant

/-- What happened to a buffer in a run of the write loop: the bytes taken are the next ones, and
when the buffer is completed it drops its data. A loop that leaves it incomplete ends with a call
that fails. -/
structure WriteQueueBuffer.Written (buf : WriteQueueBuffer) (r : WriteQueueBuffer.WriteResult) :
    Prop where
  /-- No more is written than was left. -/
  total_le : r.writtenTotal ≤ buf.unwritten.length
  /-- The calls take the next bytes. -/
  taken : r.calls.flatMap WriteCall.taken = buf.unwritten.take r.writtenTotal
  /-- All calls are for this buffer. -/
  calls : ∀ call ∈ r.calls, call.seq = buf.seq
  /-- What is written is counted. -/
  amountWritten : r.buf.amountWritten = buf.amountWritten + r.writtenTotal
  /-- The number stays. -/
  seq : r.buf.seq = buf.seq
  /-- A buffer that is completed drops its data. -/
  data : r.buf.data = if r.writtenTotal = buf.unwritten.length then [] else buf.data
  /-- Otherwise the last call has failed. -/
  stalled : r.writtenTotal = buf.unwritten.length ∨
    ∃ before call, r.calls = before ++ [call] ∧ call.failed = true

namespace WriteQueueBuffer

variable {buf : WriteQueueBuffer}

/-- An incomplete buffer has bytes left. -/
theorem isFullyWritten_eq_false :
    buf.isFullyWritten = false ↔ buf.amountWritten < buf.data.length := by
  simp [isFullyWritten]

/-- How many bytes are left. -/
theorem length_unwritten : buf.unwritten.length = buf.data.length - buf.amountWritten := by
  simp [unwritten]

/-- One call and then the rest of the loop. -/
private theorem Written.cons {n : ℕ} {r : WriteResult}
    (h : Written { buf with amountWritten := buf.amountWritten + min n buf.unwritten.length } r) :
    buf.Written ⟨r.buf, min n buf.unwritten.length + r.writtenTotal,
      ⟨buf.seq, buf.unwritten, .wrote n⟩ :: r.calls, r.rest⟩ := by
  -- `k` bytes go out with the first call, and the rest of the loop starts behind them
  generalize hk : min n buf.unwritten.length = k at h
  have hle : k ≤ buf.unwritten.length := hk ▸ Nat.min_le_right n _
  have hrest : unwritten { buf with amountWritten := buf.amountWritten + k } =
      buf.unwritten.drop k := by
    simp only [unwritten, List.drop_drop]
  have htotal := h.total_le
  rw [hrest, List.length_drop] at htotal
  refine ⟨by simp only; omega, ?_, ?_, ?_, h.seq, ?_, ?_⟩
  · have htaken : WriteCall.taken ⟨buf.seq, buf.unwritten, .wrote n⟩ = buf.unwritten.take k := by
      rw [← hk]
      exact List.take_eq_take_min
    rw [List.flatMap_cons, h.taken, hrest, htaken, List.take_add]
  · intro call hcall
    rcases List.mem_cons.mp hcall with rfl | hcall
    · rfl
    · exact h.calls call hcall
  · simp only [h.amountWritten]
    omega
  · have hdata := h.data
    rw [hrest, List.length_drop] at hdata
    have hiff : r.writtenTotal = buf.unwritten.length - k ↔
        k + r.writtenTotal = buf.unwritten.length := by omega
    simpa only [hiff] using hdata
  · rcases h.stalled with hfull | ⟨before, call, hcalls, hfailed⟩
    · rw [hrest, List.length_drop] at hfull
      left
      simp only
      omega
    · exact .inr ⟨_ :: before, call, congrArg (List.cons _) hcalls, hfailed⟩

/-- The write loop, on a buffer that is not fully written. -/
theorem write_spec (now : Time) (outs : List WriteOutcome)
    (hbuf : buf.amountWritten < buf.data.length) : buf.Written (buf.write now outs) := by
  have hlength : buf.unwritten.length = buf.data.length - buf.amountWritten := length_unwritten
  have hne : 0 ≠ buf.unwritten.length := by omega
  induction outs generalizing buf with
  | nil => exact ⟨Nat.zero_le _, by simp [write, WriteCall.taken], by simp [write], rfl, rfl,
      by simp [write, hne], .inr ⟨[], _, rfl, rfl⟩⟩
  | cons out rest ih =>
      cases out with
      | failed errno =>
          simp only [write]
          -- either way the loop ends, and the buffer keeps its bytes
          split
          · exact ⟨Nat.zero_le _, by simp [WriteCall.taken], by simp, rfl, rfl, by simp [hne],
              .inr ⟨[], _, rfl, rfl⟩⟩
          · exact ⟨Nat.zero_le _, by simp [WriteCall.taken], by simp, rfl, rfl, by simp [hne],
              .inr ⟨[], _, rfl, rfl⟩⟩
      | wrote n =>
          simp only [write, WriteCall.taken, List.length_take]
          split
          · -- the buffer is complete, as after a loop that makes no further call
            rename_i hfull
            have hfull' : min n buf.unwritten.length = buf.unwritten.length := by
              simp only [isFullyWritten, decide_eq_true_eq] at hfull
              omega
            refine ⟨Nat.min_le_right .., ?_, by simp, rfl, rfl, by simp [hfull'], .inl hfull'⟩
            rw [List.flatMap_singleton]
            exact List.take_eq_take_min
          · rename_i hfull
            simp only [isFullyWritten, decide_eq_true_eq, Nat.not_le] at hfull
            -- a part is left, and the loop goes on with it
            refine (ih ?_ length_unwritten ?_).cons
            · exact hfull
            · rw [length_unwritten]
              exact Nat.ne_of_lt (Nat.sub_pos_of_lt hfull)

/-- The write loop notes the time when it completes a buffer. -/
theorem write_writtenAt (now : Time) (outs : List WriteOutcome)
    (hbuf : buf.amountWritten < buf.data.length) :
    (buf.write now outs).buf.writtenAt =
      if (buf.write now outs).buf.isFullyWritten then now else buf.writtenAt := by
  have hincomplete : buf.isFullyWritten = false := isFullyWritten_eq_false.mpr hbuf
  induction outs generalizing buf with
  | nil => simp [write, hincomplete]
  | cons out rest ih =>
      cases out with
      | failed errno =>
          simp only [write]
          split
          · rw [hincomplete, if_neg Bool.false_ne_true]
          · exact (if_neg (by simpa [isFullyWritten] using hbuf)).symm
      | wrote n =>
          simp only [write]
          split
          · exact (if_pos (by simp [isFullyWritten])).symm
          · rename_i hlt
            exact ih (isFullyWritten_eq_false.mp (by simpa using hlt)) (by simpa using hlt)

/-- The write loop keeps the time at which the buffer was queued. -/
theorem write_queuedAt (now : Time) (outs : List WriteOutcome) :
    (buf.write now outs).buf.queuedAt = buf.queuedAt := by
  induction outs generalizing buf with
  | nil => rfl
  | cons out rest ih =>
      cases out with
      | failed errno =>
          simp only [write]
          split <;> rfl
      | wrote n =>
          simp only [write]
          split
          · rfl
          · exact ih

/-- The times stored in the buffer have passed at time `t`; `writtenAt` is not set before the buffer
is completed. -/
structure Stamped (buf : WriteQueueBuffer) (t : Time) : Prop where
  /-- It has been queued by then. -/
  queuedAt : buf.queuedAt ≤ t
  /-- If it is completed, then by then. -/
  writtenAt : buf.writtenAt ≤ t
  /-- An incomplete buffer has no time of completion. -/
  unset : buf.isFullyWritten = false → buf.writtenAt = 0

/-- Times that have passed stay past. -/
theorem Stamped.mono {t t' : Time} (h : buf.Stamped t) (ht : t ≤ t') : buf.Stamped t' :=
  ⟨h.queuedAt.trans ht, h.writtenAt.trans ht, h.unset⟩

/-- The write loop stores the time at which it completes the buffer. -/
theorem Stamped.write {now t : Time} (h : buf.Stamped t) (hnow : now ≤ t) (outs : List WriteOutcome)
    (hbuf : buf.amountWritten < buf.data.length) : (buf.write now outs).buf.Stamped t := by
  have hwrittenAt := write_writtenAt now outs hbuf
  refine ⟨(write_queuedAt now outs).symm ▸ h.queuedAt, ?_, fun hincomplete => ?_⟩
  · rw [hwrittenAt]
    split
    · exact hnow
    · exact h.writtenAt
  · rw [hwrittenAt, hincomplete, if_neg Bool.false_ne_true]
    exact h.unset (isFullyWritten_eq_false.mpr hbuf)

end WriteQueueBuffer

/-! ## Passes -/

/-- What a pass does, case by case of the first buffer. -/
theorem processQueue_cons (io : WriteIo) (buf : WriteQueueBuffer) (rest : List WriteQueueBuffer) :
    processQueue io (buf :: rest) = ⟨buf :: rest, 0, false, [], io⟩ ∧ buf.hasError = true ∨
      (∃ p, p = processQueue io rest ∧ buf.isFullyWritten = true ∧
        processQueue io (buf :: rest) =
          ⟨buf :: p.queue, p.written, p.activity, p.calls, p.io⟩) ∨
      ∃ io' r p, p = processQueue io' rest ∧ buf.Written r ∧ buf.hasError = false ∧
        buf.amountWritten < buf.data.length ∧
        processQueue io (buf :: rest) =
          ⟨r.buf :: p.queue, r.writtenTotal + p.written, decide (0 < r.writtenTotal) || p.activity,
            r.calls ++ p.calls, p.io⟩ := by
  simp only [processQueue]
  split
  · exact .inl ⟨rfl, ‹_›⟩
  · rename_i herror
    split
    · exact .inr (.inl ⟨_, rfl, ‹_›, rfl⟩)
    · rename_i hfull
      have hlt : buf.amountWritten < buf.data.length := by
        simpa [WriteQueueBuffer.isFullyWritten] using hfull
      refine .inr (.inr ⟨_, _, _, rfl, WriteQueueBuffer.write_spec io.now.clock io.now.writes hlt,
        by simpa using herror, hlt, rfl⟩)

/-- The bytes that the calls for buffer `seq` handed over. -/
def takenFor (seq : ℕ) (calls : List WriteCall) : List UInt8 :=
  (calls.filter (·.seq = seq)).flatMap WriteCall.taken

/-- Calls add up. -/
theorem takenFor_append (seq : ℕ) (calls₁ calls₂ : List WriteCall) :
    takenFor seq (calls₁ ++ calls₂) = takenFor seq calls₁ ++ takenFor seq calls₂ := by
  simp [takenFor]

/-- One call is for one buffer. -/
theorem takenFor_singleton (seq : ℕ) (call : WriteCall) :
    takenFor seq [call] = if call.seq = seq then call.taken else [] := by
  by_cases h : call.seq = seq <;> simp [takenFor, h]

/-- Calls for other buffers take nothing of this one. -/
theorem takenFor_of_ne {seq : ℕ} {calls : List WriteCall} (h : ∀ call ∈ calls, call.seq ≠ seq) :
    takenFor seq calls = [] := by
  rw [takenFor, List.filter_eq_nil_iff.mpr (by simpa using h), List.flatMap_nil]

/-- Calls that are all for the buffer. -/
theorem takenFor_of_eq {seq : ℕ} {calls : List WriteCall} (h : ∀ call ∈ calls, call.seq = seq) :
    takenFor seq calls = calls.flatMap WriteCall.taken := by
  rw [takenFor, List.filter_eq_self.mpr (by simpa using h)]

/-- What happened to a buffer in a pass that made `calls`. -/
def WriteQueueBuffer.Advanced (calls : List WriteCall) (buf buf' : WriteQueueBuffer) : Prop :=
  buf'.seq = buf.seq ∧ ∃ n ≤ buf.unwritten.length, takenFor buf.seq calls = buf.unwritten.take n ∧
    buf'.amountWritten = buf.amountWritten + n ∧
    buf'.data = if n ≠ 0 ∧ n = buf.unwritten.length then [] else buf.data

/-- A pass leaves a buffer alone that it makes no call for. -/
theorem WriteQueueBuffer.Advanced.of_ne {calls : List WriteCall} {buf : WriteQueueBuffer}
    (h : ∀ call ∈ calls, call.seq ≠ buf.seq) : buf.Advanced calls buf :=
  ⟨rfl, 0, Nat.zero_le _, by rw [takenFor_of_ne h, List.take_zero], rfl, by simp⟩

/-- Calls for other buffers make no difference. -/
theorem WriteQueueBuffer.Advanced.append_of_ne {calls₁ calls₂ : List WriteCall}
    {buf buf' : WriteQueueBuffer} (h : buf.Advanced calls₂ buf')
    (hne : ∀ call ∈ calls₁, call.seq ≠ buf.seq) : buf.Advanced (calls₁ ++ calls₂) buf' := by
  obtain ⟨hseq, n, hle, htaken, hrest⟩ := h
  refine ⟨hseq, n, hle, ?_, hrest⟩
  rw [takenFor_append, takenFor_of_ne hne, List.nil_append, htaken]

/-- The calls of a pass are for buffers of the queue. -/
theorem processQueue_calls (io : WriteIo) (queue : List WriteQueueBuffer) :
    ∀ call ∈ (processQueue io queue).calls, ∃ buf ∈ queue, call.seq = buf.seq := by
  induction queue generalizing io with
  | nil => nofun
  | cons buf rest ih =>
      rcases processQueue_cons io buf rest with ⟨heq, -⟩ | ⟨p, rfl, -, heq⟩ |
        ⟨io', r, p, rfl, hr, -, -, heq⟩
      · rw [heq]
        nofun
      · rw [heq]
        intro call hcall
        obtain ⟨b, hb, hseq⟩ := ih io call hcall
        exact ⟨b, List.mem_cons_of_mem _ hb, hseq⟩
      · rw [heq]
        intro call hcall
        rcases List.mem_append.mp hcall with hcall | hcall
        · exact ⟨buf, List.mem_cons_self, hr.calls call hcall⟩
        · obtain ⟨b, hb, hseq⟩ := ih io' call hcall
          exact ⟨b, List.mem_cons_of_mem _ hb, hseq⟩

/-- A pass advances every buffer of a queue of different buffers. -/
theorem processQueue_advanced (io : WriteIo) {queue : List WriteQueueBuffer}
    (hseqs : queue.Pairwise fun b₁ b₂ => b₁.seq ≠ b₂.seq) :
    List.Forall₂ (WriteQueueBuffer.Advanced (processQueue io queue).calls) queue
      (processQueue io queue).queue := by
  induction queue generalizing io with
  | nil => exact .nil
  | cons buf rest ih =>
      obtain ⟨hne, hrest⟩ := List.pairwise_cons.mp hseqs
      -- the calls of the rest of the pass are for other buffers
      have hother (io : WriteIo) : ∀ call ∈ (processQueue io rest).calls, call.seq ≠ buf.seq := by
        intro call hcall
        obtain ⟨b, hb, hseq⟩ := processQueue_calls io rest call hcall
        rw [hseq]
        exact (hne b hb).symm
      rcases processQueue_cons io buf rest with ⟨heq, -⟩ | ⟨p, rfl, -, heq⟩ |
        ⟨io', r, p, rfl, hr, -, hlt, heq⟩
      · rw [heq]
        exact List.forall₂_same.mpr fun b _ => .of_ne nofun
      · rw [heq]
        exact .cons (.of_ne (hother io)) (ih io hrest)
      · rw [heq]
        have hpos : buf.unwritten.length ≠ 0 := by
          rw [WriteQueueBuffer.length_unwritten]
          omega
        refine .cons ⟨hr.seq, r.writtenTotal, hr.total_le, ?_, hr.amountWritten, ?_⟩ ?_
        · rw [takenFor_append, takenFor_of_eq hr.calls, takenFor_of_ne (hother io'),
            List.append_nil, hr.taken]
        · have hiff : (r.writtenTotal ≠ 0 ∧ r.writtenTotal = buf.unwritten.length) ↔
              r.writtenTotal = buf.unwritten.length := by omega
          simp only [hr.data, hiff]
        · refine ((List.forall₂_and_left _ _).mpr ⟨hne, ih io' hrest⟩).imp ?_
          rintro b b' ⟨hb, hadvanced⟩
          refine hadvanced.append_of_ne fun call hcall => ?_
          rwa [hr.calls call hcall]

/-- A pass advances every buffer that it leaves in a queue of different buffers. -/
theorem exists_advanced (io : WriteIo) {queue : List WriteQueueBuffer}
    (hseqs : queue.Pairwise fun b₁ b₂ => b₁.seq ≠ b₂.seq) {buf' : WriteQueueBuffer}
    (hbuf' : buf' ∈ (processQueue io queue).queue) :
    ∃ buf ∈ queue, buf.Advanced (processQueue io queue).calls buf' := by
  obtain ⟨i, hi, rfl⟩ := List.getElem_of_mem hbuf'
  have hadvanced := processQueue_advanced io hseqs
  have hi' : i < queue.length := hadvanced.length_eq ▸ hi
  exact ⟨queue[i], List.getElem_mem hi', hadvanced.get hi' hi⟩

/-- What the write loop keeps of an incomplete buffer, a pass keeps of every buffer. -/
theorem map_processQueue {β : Type} {f : WriteQueueBuffer → β}
    (hf : ∀ now outs {buf : WriteQueueBuffer}, buf.amountWritten < buf.data.length →
      f (buf.write now outs).buf = f buf) (io : WriteIo) (queue : List WriteQueueBuffer) :
    (processQueue io queue).queue.map f = queue.map f := by
  induction queue generalizing io with
  | nil => rfl
  | cons buf rest ih =>
      simp only [processQueue]
      split
      · rfl
      · split
        · rw [List.map_cons, List.map_cons, ih]
        · rename_i hfull
          have hlt : buf.amountWritten < buf.data.length := by
            simpa [WriteQueueBuffer.isFullyWritten] using hfull
          rw [List.map_cons, List.map_cons, ih, hf _ _ hlt]

/-- A pass leaves a buffer incomplete only if it makes no call for it or the last one fails. -/
theorem exists_failed_call (io : WriteIo) {queue : List WriteQueueBuffer}
    (hseqs : queue.Pairwise fun b₁ b₂ => b₁.seq ≠ b₂.seq) {buf' : WriteQueueBuffer}
    (hbuf' : buf' ∈ (processQueue io queue).queue) (hincomplete : buf'.isFullyWritten = false) :
    buf' ∈ queue ∨ ∃ before call after, (processQueue io queue).calls = before ++ call :: after ∧
      call.seq = buf'.seq ∧ call.failed = true ∧ takenFor buf'.seq after = [] := by
  induction queue generalizing io with
  | nil => cases hbuf'
  | cons buf rest ih =>
      obtain ⟨hne, hrest⟩ := List.pairwise_cons.mp hseqs
      rcases processQueue_cons io buf rest with ⟨heq, -⟩ | ⟨p, rfl, -, heq⟩ |
        ⟨io', r, p, rfl, hr, -, hlt, heq⟩
      · rw [heq] at hbuf'
        exact .inl hbuf'
      · rw [heq] at hbuf' ⊢
        rcases List.mem_cons.mp hbuf' with rfl | hbuf'
        · exact .inl List.mem_cons_self
        · exact (ih io hrest hbuf').imp_left (List.mem_cons_of_mem _)
      · rw [heq] at hbuf' ⊢
        rcases List.mem_cons.mp hbuf' with rfl | hbuf'
        · -- the loop has left this buffer incomplete, and the later calls are for other buffers
          right
          rcases hr.stalled with hdone | ⟨before, call, hcalls, hfailed⟩
          · rw [WriteQueueBuffer.isFullyWritten, hr.data, if_pos hdone] at hincomplete
            simp at hincomplete
          · refine ⟨before, call, (processQueue io' rest).calls, ?_, ?_, hfailed, ?_⟩
            · rw [hcalls, List.append_assoc, List.singleton_append]
            · rw [hr.seq]
              exact hr.calls call (hcalls ▸ List.mem_concat_self)
            · refine takenFor_of_ne fun later hlater => ?_
              obtain ⟨b, hb, hseq⟩ := processQueue_calls io' rest later hlater
              rw [hseq, hr.seq]
              exact (hne b hb).symm
        · refine (ih io' hrest hbuf').imp (List.mem_cons_of_mem _) ?_
          rintro ⟨before, call, after, hcalls, hlast⟩
          refine ⟨r.calls ++ before, call, after, ?_, hlast⟩
          rw [hcalls, List.append_assoc]

/-- A pass over the write queue only moves the clock forward. -/
theorem clock_le_processQueue (io : WriteIo) (queue : List WriteQueueBuffer) :
    io.clock ≤ (processQueue io queue).io.clock := by
  induction queue generalizing io with
  | nil => exact le_rfl
  | cons buf rest ih =>
      simp only [processQueue]
      split
      · exact le_rfl
      · split
        · exact ih io
        · exact (Nat.le_add_right ..).trans (ih ⟨_, io.now.ticks, io.now.clock⟩)

/-- The times stored in a queue have passed when a pass over it is through. -/
theorem stamped_processQueue {io : WriteIo} {queue : List WriteQueueBuffer} {t : Time}
    (hqueue : ∀ buf ∈ queue, buf.Stamped t) (ht : (processQueue io queue).io.clock ≤ t) :
    ∀ buf ∈ (processQueue io queue).queue, buf.Stamped t := by
  induction queue generalizing io with
  | nil => exact hqueue
  | cons buf rest ih =>
      rw [List.forall_mem_cons] at hqueue
      simp only [processQueue] at ht ⊢
      split at ht
      · rw [if_pos ‹_›]
        exact List.forall_mem_cons.mpr hqueue
      · rename_i herror
        rw [if_neg herror]
        split at ht
        · rw [if_pos ‹_›]
          exact List.forall_mem_cons.mpr ⟨hqueue.1, ih hqueue.2 ht⟩
        · rename_i hfull
          rw [if_neg hfull]
          have hnow := (clock_le_processQueue _ rest).trans ht
          have hlt : buf.amountWritten < buf.data.length := by
            simpa [WriteQueueBuffer.isFullyWritten] using hfull
          exact List.forall_mem_cons.mpr ⟨hqueue.1.write hnow _ hlt, ih hqueue.2 ht⟩

/-- The calls of a pass enter the history one by one. -/
theorem wrote_append_singleton (calls : List WriteCall) (call : WriteCall) {past : List Event} :
    ((calls ++ [call]).map Event.wrote).reverse ++ past =
      .wrote call :: ((calls.map Event.wrote).reverse ++ past) := by
  simp

/-- What does not depend on the calls of a pass is the same after it. -/
theorem eq_of_wrote {β : Type} {f : List Event → β} {past : List Event} (calls : List WriteCall)
    (hf : ∀ call past, f (.wrote call :: past) = f past) :
    f ((calls.map Event.wrote).reverse ++ past) = f past := by
  induction calls using List.reverseRecOn with
  | nil => rfl
  | append_singleton calls call ih => rw [wrote_append_singleton, hf, ih]

/-- A pass stays on the connection. -/
theorem Client.connection_afterPass (cl : Client) (p : PassResult) :
    (cl.afterPass p).connection = cl.connection := by
  calc (cl.afterPass p).connection
      = Client.connection { cl with history := .pass :: cl.history } :=
        eq_of_wrote (f := fun past => Client.connection { cl with history := past }) p.calls
          fun _ _ => by simp [Client.connection]
    _ = cl.connection := by simp [Client.connection]

/-- What every call keeps holds throughout a pass. -/
theorem always_wrote {P : List Event → Prop} {past : List Event} (calls : List WriteCall)
    (hP : ∀ call past, P past → P (.wrote call :: past)) (h : Always P past) :
    Always P ((calls.map Event.wrote).reverse ++ past) := by
  induction calls using List.reverseRecOn with
  | nil => exact h
  | append_singleton calls call ih =>
      rw [wrote_append_singleton, always_cons]
      exact ⟨hP call _ ih.now, ih⟩

/-! ## Scans -/

/-- The buffers that the scan for finished buffers passes are fully written and have no error. -/
theorem scanQueue_finished (t : Time) (queue : List WriteQueueBuffer) :
    ∀ buf ∈ queue.take (scanQueue t queue).notifyQueue.length,
      buf.isFullyWritten = true ∧ buf.hasError = false := by
  induction queue generalizing t with
  | nil => simp
  | cons buf rest ih =>
      simp only [scanQueue]
      split
      · simp
      · rename_i herror
        split
        · simp
        · rename_i hfull
          intro b hb
          rcases List.mem_cons.mp hb with rfl | hb
          · exact ⟨by simpa using hfull, by simpa using herror⟩
          · exact ih _ b hb

/-- A scan reports the buffers it passes. -/
theorem scanQueue_notifyQueue (t : Time) (queue : List WriteQueueBuffer) :
    (scanQueue t queue).notifyQueue =
      (queue.take (scanQueue t queue).notifyQueue.length).map WriteQueueBuffer.stats := by
  induction queue generalizing t with
  | nil => rfl
  | cons buf rest ih =>
      simp only [scanQueue]
      split
      · rfl
      · split
        · rfl
        · simp only [List.length_cons, List.take_succ_cons, List.map_cons]
          rw [← ih]

/-- A scan moves the time of the last packet to the latest buffer it passes, if that is later. -/
theorem le_rxLastPacket_scanQueue (t : Time) (queue : List WriteQueueBuffer) :
    t ≤ (scanQueue t queue).rxLastPacket ∧
      ∀ buf ∈ queue.take (scanQueue t queue).notifyQueue.length,
        buf.writtenAt ≤ (scanQueue t queue).rxLastPacket := by
  induction queue generalizing t with
  | nil => exact ⟨le_rfl, nofun⟩
  | cons buf rest ih =>
      simp only [scanQueue, gt_iff_lt]
      split
      · exact ⟨le_rfl, nofun⟩
      · split
        · exact ⟨le_rfl, nofun⟩
        · -- the buffer has set the time with which the scan of the others goes on
          obtain ⟨hle, hrest⟩ := ih (if t < buf.writtenAt then buf.writtenAt else t)
          rw [List.length_cons, List.take_succ_cons, List.forall_mem_cons]
          refine ⟨le_trans ?_ hle, le_trans ?_ hle, hrest⟩
          · split
            · exact Nat.le_of_lt ‹_›
            · exact le_rfl
          · split
            · exact le_rfl
            · exact Nat.le_of_not_lt ‹_›

/-- A scan stores a time that has passed. -/
theorem rxLastPacket_scanQueue_le {t t' : Time} {queue : List WriteQueueBuffer} (ht : t ≤ t')
    (hqueue : ∀ buf ∈ queue, buf.Stamped t') : (scanQueue t queue).rxLastPacket ≤ t' := by
  induction queue generalizing t with
  | nil => exact ht
  | cons buf rest ih =>
      rw [List.forall_mem_cons] at hqueue
      simp only [scanQueue]
      split
      · exact ht
      · split
        · exact ht
        · refine ih ?_ hqueue.2
          split
          · exact hqueue.1.writtenAt
          · exact ht

/-- A scan that finds an error finds it in a buffer of the queue. -/
theorem scanQueue_error {t : Time} {queue : List WriteQueueBuffer} {e : ℤ}
    (h : (scanQueue t queue).error = some e) : queue ≠ [] := by
  rintro rfl
  cases h

end AsyncTcpSock
