import AsyncTcpSock.Registry
import AsyncTcpSock.WritePaths
import AsyncTcpSock.WriteSpace

/-!
# Flushing the write queue

Nothing in the write path holds bytes back. As long as `lwip_write` takes something in every call,
one `_sockIsWriteable` empties the queue: it hands over every byte, in order, gives the whole write
space back and reports every buffer.
-/

namespace AsyncTcpSock

open Reentrant

/-- A call of `lwip_write` has taken at least one byte. -/
def WriteOutcome.takes : WriteOutcome → Bool
  | wrote n => 0 < n
  | failed _ => false

theorem WriteOutcome.errorFree_of_takes {out : WriteOutcome} (h : out.takes = true) :
    out.errorFree = true := by
  cases out with
  | wrote n => rfl
  | failed errno => cases h

/-- The number of bytes of a buffer, whether or not they have been released. -/
def WriteQueueBuffer.size (buf : WriteQueueBuffer) : ℕ := max buf.amountWritten buf.data.length

/-! ## The write loop and the pass -/

/-- Each call takes a byte, so that as many calls as there are bytes are enough for a buffer. -/
theorem WriteQueueBuffer.write_takes {buf : WriteQueueBuffer} (now : Time)
    {outs : List WriteOutcome} (houts : ∀ out ∈ outs, out.takes = true)
    (hbuf : buf.amountWritten < buf.data.length) (henough : buf.unwritten.length ≤ outs.length) :
    (buf.write now outs).writtenTotal = buf.unwritten.length ∧
      (buf.write now outs).rest <:+ outs ∧
      outs.length ≤ (buf.write now outs).rest.length + buf.unwritten.length := by
  have hpos : 0 < buf.unwritten.length := by
    rw [length_unwritten]
    exact Nat.sub_pos_of_lt hbuf
  induction outs generalizing buf with
  | nil => exact absurd hpos (Nat.not_lt.mpr henough)
  | cons out rest ih =>
      obtain ⟨hout, hrest⟩ := List.forall_mem_cons.mp houts
      cases out with
      | failed errno => cases hout
      | wrote n =>
          have hn : 0 < n := of_decide_eq_true hout
          rw [List.length_cons] at henough
          simp only [write, WriteCall.taken, List.length_take]
          split
          · -- the call has taken what was left
            rename_i hfull
            simp only [isFullyWritten, decide_eq_true_eq] at hfull
            rw [length_unwritten] at hpos hfull ⊢
            refine ⟨by simp only; omega, List.suffix_cons .., ?_⟩
            simp only [List.length_cons]
            omega
          · rename_i hfull
            simp only [isFullyWritten, decide_eq_true_eq, Nat.not_le] at hfull
            -- each call takes a byte at least, so it pays for itself
            generalize hk : min n buf.unwritten.length = k at hfull ⊢
            have hrest' : ({ buf with amountWritten := buf.amountWritten + k } :
                WriteQueueBuffer).unwritten.length = buf.unwritten.length - k := by
              rw [length_unwritten, length_unwritten, Nat.sub_sub]
            have hlt : k < buf.unwritten.length := by
              rw [length_unwritten]
              omega
            obtain ⟨htotal, hsuffix, hleft⟩ :=
              @ih { buf with amountWritten := buf.amountWritten + k } hrest hfull (by omega)
                (by omega)
            rw [hrest'] at htotal hleft
            refine ⟨?_, hsuffix.trans (List.suffix_cons ..), ?_⟩
            · show k + (write now rest _).writtenTotal = _
              rw [htotal]
              exact Nat.add_sub_of_le hlt.le
            · show rest.length + 1 ≤ (write now rest _).rest.length + _
              omega

/-- A pass has written the whole queue. -/
structure WritesAll (queue : List WriteQueueBuffer) (p : PassResult) : Prop where
  /-- No buffer is left incomplete. -/
  finished : ∀ buf ∈ p.queue, buf.isFullyWritten = true
  /-- `lwip_write` has taken the bytes of the queue in order. -/
  taken : p.calls.flatMap WriteCall.taken = unwrittenBytes queue
  /-- Every buffer counts all of its bytes as written. -/
  amounts : p.queue.map WriteQueueBuffer.amountWritten = queue.map WriteQueueBuffer.size

theorem writesAll_processQueue {io : WriteIo} {queue : List WriteQueueBuffer} (hclean : Clean queue)
    (hwrites : ∀ out ∈ io.writes, out.takes = true)
    (henough : (unwrittenBytes queue).length ≤ io.writes.length) :
    WritesAll queue (processQueue io queue) := by
  induction queue generalizing io with
  | nil => exact ⟨nofun, rfl, rfl⟩
  | cons buf rest ih =>
      obtain ⟨hbuf, hrest⟩ := List.forall_mem_cons.mp hclean
      rw [unwrittenBytes, List.flatMap_cons, List.length_append] at henough
      simp only [processQueue, hbuf, Bool.false_eq_true, if_false]
      -- a buffer that is complete is passed over, and no call is used up
      split
      · rename_i hfull
        obtain ⟨hfinished, htaken, hamounts⟩ := ih hrest hwrites (by
          rw [unwrittenBytes]
          omega)
        have hle : buf.data.length ≤ buf.amountWritten := of_decide_eq_true hfull
        refine ⟨List.forall_mem_cons.mpr ⟨hfull, hfinished⟩, ?_, ?_⟩
        · rw [htaken, unwrittenBytes, unwrittenBytes, List.flatMap_cons,
            unwritten_of_isFullyWritten hfull, List.nil_append]
        · rw [List.map_cons, List.map_cons, hamounts, WriteQueueBuffer.size, max_eq_left hle]
      · rename_i hfull
        have hlt := WriteQueueBuffer.isFullyWritten_eq_false.mp (eq_false_of_ne_true hfull)
        have hwrites' : ∀ out ∈ io.now.writes, out.takes = true := hwrites
        have hsame : io.now.writes.length = io.writes.length := rfl
        -- the first buffer is written out, and the calls that are left are enough for the rest
        obtain ⟨htotal, hsuffix, hleft⟩ :=
          buf.write_takes io.now.clock hwrites' hlt (by omega)
        have hwritten := WriteQueueBuffer.write_spec io.now.clock io.now.writes hlt
        obtain ⟨hfinished, htaken, hamounts⟩ :=
          @ih ⟨(buf.write io.now.clock io.now.writes).rest, io.now.ticks, io.now.clock⟩ hrest
            (fun out hout => hwrites out (hsuffix.subset hout)) (by
              rw [unwrittenBytes]
              simp only
              omega)
        have hdata := hwritten.data
        rw [if_pos htotal] at hdata
        refine ⟨List.forall_mem_cons.mpr ⟨?_, hfinished⟩, ?_, ?_⟩
        · -- a buffer that is complete has released its data
          exact decide_eq_true (hdata ▸ Nat.zero_le _)
        · rw [List.flatMap_append, htaken, unwrittenBytes, unwrittenBytes, List.flatMap_cons]
          congr 1
          exact hwritten.taken.trans (by rw [htotal, List.take_length])
        · rw [List.map_cons, List.map_cons, hamounts, WriteQueueBuffer.size, max_eq_right hlt.le]
          congr 1
          refine hwritten.amountWritten.trans ?_
          rw [htotal, WriteQueueBuffer.length_unwritten]
          omega

/-! ## The handler -/

section

variable [Configuration] {w : World} {c : ClientId} {cl : Client}

/-- What `_sockIsWriteable` is to come to: the queue is empty, every byte of it has been handed over
in order, and every buffer has been reported with the number of its bytes. -/
structure Client.Flushed (cl cl' : Client) : Prop where
  connected : cl'.state = .connected
  writeQueue : cl'.writeQueue = []
  space : cl'.space = initialWriteSpace
  handed : handedBytes cl'.history = handedBytes cl.history ++ unwrittenBytes cl.writeQueue
  sent : (sentCallbacks cl'.history).map Prod.fst =
    (sentCallbacks cl.history).map Prod.fst ++ cl.writeQueue.map WriteQueueBuffer.size

/-- An empty queue gives the whole write space. -/
theorem Client.Conserved.space_of_nil (hcl : cl.Conserved) (hqueue : cl.writeQueue = [])
    (hstate : cl.state = .connected) : cl.space = initialWriteSpace := by
  rw [Client.Conserved, hqueue, outstanding_nil, Nat.add_zero] at hcl
  rw [Client.space, if_pos (by simpa [Client.connected] using hstate), hcl]

/-- The client after a pass that has written the whole queue, and the scan that follows it. -/
theorem Client.flushed_swept {io : WriteIo} (hstate : cl.state = .connected)
    (hconserved : cl.Conserved) (hclean : Clean (processQueue io cl.writeQueue).queue)
    (hflushed : WritesAll cl.writeQueue (processQueue io cl.writeQueue)) :
    cl.Flushed (cl.afterPass (processQueue io cl.writeQueue)).swept := by
  obtain ⟨hqueue, -, hhanded, hsent⟩ :=
    @Client.swept_eq (cl.afterPass (processQueue io cl.writeQueue)) hclean
  have hall := hflushed.finished
  -- the scan takes the whole queue off when all of it is complete
  have hfinished : (processQueue io cl.writeQueue).queue.takeWhile (·.isFullyWritten) =
      (processQueue io cl.writeQueue).queue := List.takeWhile_eq_self_iff.mpr hall
  have hnil : (cl.afterPass (processQueue io cl.writeQueue)).swept.writeQueue = [] := by
    rw [hqueue]
    exact List.dropWhile_eq_nil_iff.mpr hall
  refine ⟨hstate, hnil, ?_, ?_, ?_⟩
  · have hswept : (cl.afterPass (processQueue io cl.writeQueue)).swept.Conserved :=
      (hconserved.afterPass io).afterScan
    exact hswept.space_of_nil hnil hstate
  · rw [hhanded, Client.afterPass, handedBytes_wrote, hflushed.taken]
    rfl
  · rw [hsent]
    simp only [Client.afterPass, sentCallbacks_wrote, hfinished, List.map_append, List.map_map]
    congr 1
    exact hflushed.amounts

/-- One `_sockIsWriteable` flushes a connection: if every call of `lwip_write` takes at least one
byte and the callbacks do nothing, it leaves an empty queue and the whole write space, has handed
over every byte in order, and has reported every buffer. If no call of `lwip_write` has ever been
made after one of the same pass had failed, all bytes accepted on the connection have then been
handed over. -/
theorem writeable_flushes {good : StepCondition} (hs : ReachableIf good ⟨w, .idle⟩)
    (hcl : w.clients c = some cl) (hstate : cl.state = .connected) (hclean : Clean cl.writeQueue)
    (hwrites : ∀ out ∈ w.outcomes.writes, out.takes = true)
    (henough : (unwrittenBytes cl.writeQueue).length ≤ w.outcomes.writes.length) :
    ∃ activity w' cl', (ClientBase.sockIsWriteable c).undisturbed w = some (activity, w') ∧
      w'.clients c = some cl' ∧ cl.Flushed cl' ∧
      (Always KeepsOrder cl.history → handedBytes cl'.history = acceptedBytes cl.history) := by
  obtain ⟨φ, hrun⟩ := hs.clientRun hcl
  obtain ⟨hsound, -⟩ := hs.registry nofun
  have hheld : w.held = ∅ := hsound.unheld
  have hopen := hrun.coherent.connected hstate
  have hall {cl' : Client} (hflushed : cl.Flushed cl') (hkeeps : Always KeepsOrder cl.history) :
      handedBytes cl'.history = acceptedBytes cl.history :=
    hflushed.handed.trans ((hrun.ordered hkeeps).rest hopen).symm
  have hundisturbed := undisturbed_sockIsWriteable hcl (by simp [hheld])
    (by simpa [Client.connected] using hstate) hclean
    fun out hout => WriteOutcome.errorFree_of_takes (hwrites out hout)
  -- an empty queue makes no pass, and the order is kept as it was
  by_cases hqueue : cl.writeQueue = []
  · rw [if_pos hqueue] at hundisturbed
    have hflushed : cl.Flushed (cl.log (.entered .writeable)) :=
      ⟨hstate, hqueue, hrun.conserved.space_of_nil hqueue hstate,
        by rw [hqueue]; exact (List.append_nil _).symm,
        by rw [hqueue]; exact (List.append_nil _).symm⟩
    exact ⟨_, _, _, hundisturbed, World.put_clients_self .., hflushed, hall hflushed⟩
  · rw [if_neg hqueue] at hundisturbed
    have hpass : WritesAll cl.writeQueue (processQueue w.writeIo cl.writeQueue) :=
      writesAll_processQueue hclean hwrites henough
    have hswept : (cl.log (.entered .writeable)).Flushed _ :=
      Client.flushed_swept hstate hrun.conserved
        (hclean.processQueue fun out hout =>
          WriteOutcome.errorFree_of_takes (hwrites out hout)).1 hpass
    have hflushed : cl.Flushed _ := { hswept with }
    exact ⟨_, _, _, hundisturbed, World.put_clients_self .., hflushed, hall hflushed⟩

end

section

attribute [local instance] Configuration.esp32

/-- A buffer of which `send` has written a byte, and another one, are flushed by three calls. -/
theorem writeable_flushes_two :
    ∃ w cl activity w' cl', Reachable ⟨w, .idle⟩ ∧ w.clients 0 = some cl ∧
      unwrittenBytes cl.writeQueue = [2, 3, 4] ∧
      (ClientBase.sockIsWriteable 0).undisturbed w = some (activity, w') ∧
      w'.clients 0 = some cl' ∧ cl.Flushed cl' ∧
      (Always KeepsOrder cl.history → handedBytes cl'.history = acceptedBytes cl.history) := by
  obtain ⟨⟨w, control⟩, hs, hidle, hwrites, hclient⟩ := exists_reachable
    (P := fun s => s.control.isIdle = true ∧
      s.state.outcomes.writes = [.wrote 1, .wrote 1, .wrote 1] ∧
      (s.state.clients 0).any (fun cl => decide (cl.state = .connected ∧
        unwrittenBytes cl.writeQueue = [2, 3, 4] ∧
        ∀ buf ∈ cl.writeQueue, buf.hasError = false)) = true)
    [.ext (.newClientFrom 48), .ext (.call 0 (.add (some [1, 2]) (.of .copy))),
      .ext (.call 0 (.add (some [3, 4]) (.of .copy))),
      .ext (.outcomes { selects := [true], writes := [.wrote 1] }), .ext (.call 0 .send),
      .ext (.outcomes { writes := [.wrote 1, .wrote 1, .wrote 1] })] (by decide +kernel)
  obtain rfl : control = .idle := Control.isIdle_iff.mp hidle
  obtain ⟨cl, hcl, hP⟩ := (Option.any_eq_true _ _).mp hclient
  obtain ⟨hstate, hunwritten, hclean⟩ := of_decide_eq_true hP
  have hwrites' : w.outcomes.writes = [.wrote 1, .wrote 1, .wrote 1] := hwrites
  obtain ⟨activity, w', cl', h⟩ := writeable_flushes hs hcl hstate hclean
    (by rw [hwrites']; decide) (by rw [hunwritten, hwrites']; decide)
  exact ⟨w, cl, activity, w', cl', hs, hcl, hunwritten, h⟩

end

end AsyncTcpSock
