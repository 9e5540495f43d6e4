import AsyncTcpSock.Flushing
import AsyncTcpSock.SentOnce

/-!
# What callbacks find

User code acts on what a callback tells it about its client. Any callback of any client may have
closed or destroyed clients, and opened or filled others, before this one is invoked; here is what
it finds nevertheless.

- `Client.unreported`: the lengths of the buffers that are in the queue or about to be reported.
- `Callback.Finds`: what a callback can rely on.
- `callbacks_find`: in every run, every callback finds it.
-/

namespace AsyncTcpSock

open Reentrant

/-! ## The lengths of buffers -/

/-- A run of the write loop keeps the size of a buffer, whether it completes the buffer or not. -/
theorem WriteQueueBuffer.size_write (now : Time) (outs : List WriteOutcome)
    {buf : WriteQueueBuffer} (hlt : buf.amountWritten < buf.data.length) :
    (buf.write now outs).buf.size = buf.size := by
  have h := write_spec now outs hlt
  have hunwritten : buf.unwritten.length = buf.data.length - buf.amountWritten :=
    List.length_drop ..
  have hle := h.total_le
  rw [WriteQueueBuffer.size, WriteQueueBuffer.size, h.amountWritten, h.data]
  split
  · rw [List.length_nil]
    omega
  · omega

/-- A scan reports the sizes of the buffers it passes. -/
theorem map_length_scanQueue (t : Time) (queue : List WriteQueueBuffer) :
    (scanQueue t queue).notifyQueue.map WriteStats.length =
      (queue.take (scanQueue t queue).notifyQueue.length).map WriteQueueBuffer.size := by
  conv_lhs => rw [scanQueue_notifyQueue, List.map_map]
  refine List.map_congr_left fun buf hbuf => ?_
  have hfull : buf.data.length ≤ buf.amountWritten := by
    simpa [WriteQueueBuffer.isFullyWritten] using (scanQueue_finished t queue buf hbuf).1
  exact (max_eq_left hfull).symm

/-- The lengths of the buffers that have been accepted and not been reported: those that a handler
is about to report, and those of the queue. -/
def Client.unreported (cl : Client) (φ : Phase) : List ℕ :=
  φ.pending ++ cl.writeQueue.map WriteQueueBuffer.size

section

variable [Configuration] {t₀ t : Time} {cl cl' : Client} {φ φ' : Phase} {ch : SocketChange}

/-- A length that `add` accepts. -/
def IsBufferSize (n : ℕ) : Prop := 0 < n ∧ n ≤ initialWriteSpace

/-- Only `add` makes buffers, and it fits them into the write space. -/
theorem UserStep.unreported (h : UserStep t₀ t cl ch cl') (hcl : cl.Conserved) {n : ℕ}
    (hn : n ∈ cl'.unreported φ) : n ∈ cl.unreported φ ∨ IsBufferSize n := by
  cases h with
  | commit owned data hconnected hdata hspace =>
      rw [Client.unreported, Client.commit, List.map_append, ← List.append_assoc] at hn
      refine (List.mem_append.mp hn).imp_right fun hnew => ?_
      obtain rfl : n = data.length := by
        simpa [WriteQueueBuffer.size] using hnew
      have hle : cl.writeSpaceRemaining ≤ initialWriteSpace := hcl ▸ Nat.le_add_right ..
      rw [Client.space, if_pos hconnected] at hspace
      exact ⟨List.length_pos_of_ne_nil hdata, hspace.trans hle⟩
  | pass io _ _ _ _ =>
      rw [Client.unreported, Client.afterPass, map_processQueue WriteQueueBuffer.size_write] at hn
      exact .inl hn
  | close _ =>
      rw [Client.unreported, Client.close_, List.map_nil, List.append_nil] at hn
      exact .inl (List.mem_append_left _ hn)
  | connect u ip port _ hattempt => cases hattempt <;> exact .inl hn
  | _ => exact .inl hn

/-- A handler makes no buffers. -/
theorem HandlerStep.unreported (h : HandlerStep t₀ t cl φ ch cl' φ') :
    cl'.unreported φ' ⊆ cl.unreported φ := by
  have hnone (next : Continuation) : next.phase.pending = [] := pending_notify next []
  cases h with
  | pass activity io _ _ _ _ =>
      rw [Client.unreported, Client.afterPass, map_processQueue WriteQueueBuffer.size_write]
      exact List.Subset.refl _
  | cleaned next _ =>
      -- the buffers that leave the queue are those that are going to be reported
      have hlengths : cl.scan.notifyQueue.map WriteStats.length =
          (cl.writeQueue.take cl.scan.notifyQueue.length).map WriteQueueBuffer.size :=
        map_length_scanQueue ..
      have hsame : cl.afterScan.unreported (.notify next cl.scan.notifyQueue) =
          cl.unreported (.cleaning next) :=
        calc (Phase.notify next cl.scan.notifyQueue).pending ++
              (cl.writeQueue.drop cl.scan.notifyQueue.length).map WriteQueueBuffer.size
            = (cl.writeQueue.take cl.scan.notifyQueue.length ++
                cl.writeQueue.drop cl.scan.notifyQueue.length).map WriteQueueBuffer.size := by
              rw [pending_notify, hlengths, List.map_append]
          _ = cl.writeQueue.map WriteQueueBuffer.size := by rw [List.take_append_drop]
      rw [hsame]
      exact List.Subset.refl _
  | notified next stats rest =>
      rw [Client.unreported, pending_notify]
      exact List.subset_cons_self ..
  | failed next =>
      rw [Client.unreported, hnone]
      exact List.nil_subset _
  | nothingToWrite activity _ =>
      rw [Client.unreported, Phase.afterWriting, hnone]
      exact List.Subset.refl _
  | notPolled _ _ hφ => rcases hφ with rfl | rfl <;> exact List.Subset.refl _
  | rxExpired | peerClosed => exact List.nil_subset _
  | resolved _ hattempt => cases hattempt <;> exact List.Subset.refl _
  | _ => exact List.Subset.refl _

/-- Whatever is in the queue or about to be reported has been accepted by `add`. -/
theorem ClientRun.isBufferSize (h : ClientRun t cl φ) : ∀ n ∈ cl.unreported φ, IsBufferSize n := by
  induction h with
  | new t => exact nofun
  | adopted t₀ t socket _ _ =>
      unfold Client.adopted
      split <;> exact nofun
  | wait _ _ ih => exact ih
  | step hrun _ hstep ih =>
      cases hstep with
      | user _ hstep => exact fun n hn => (hstep.unreported hrun.conserved hn).elim (ih n) id
      | handler hstep => exact fun n hn => ih n (hstep.unreported hn)

/-! ## Callbacks -/

/-- What a callback finds when it is invoked for client `cl` at time `now`. -/
def Callback.Finds (now : Time) (cl : Client) : Callback → Prop
  | connect => cl.state = .connected ∧ cl.isOpen = true ∧ cl.rxLastPacket = now ∧
      cl.ackTimeoutSignaled = false
  | disconnect => cl.state = .disconnected ∧ cl.isOpen = false ∧ cl.writeQueue = [] ∧
      cl.writeSpaceRemaining = initialWriteSpace
  | poll => cl.state = .connected ∧ cl.isOpen = true
  | recv _ => cl.isOpen = true ∧ cl.rxLastPacket = now
  | sent length _ => IsBufferSize length
  | timeout delay => cl.state = .connected ∧ cl.isOpen = true ∧ cl.ackTimeoutSignaled = true ∧
      ∃ ackTimeout first rest, cl.ackTimeout = some ackTimeout ∧ cl.writeQueue = first :: rest ∧
        ackTimeout ≤ now - first.queuedAt ∧ delay = delayMillis (now - first.queuedAt)
  | error _ => True

/-- The step that delivers a callback has seen to what the callback finds. -/
theorem establishes_finds : Establishes fun cb now cl => cb.Finds now cl := by
  intro t₀ t cl cl' φ φ' cb hrun _ _ hdelivery
  cases hdelivery with
  | connect hopen => exact ⟨rfl, hopen, rfl, rfl⟩
  | sent next stats rest => exact hrun.isBufferSize _ List.mem_cons_self
  | timeout ackTimeout first rest hstate hack hqueue hdue _ =>
      exact ⟨hstate, hrun.coherent.connected hstate, rfl, ackTimeout, first, rest, hack, hqueue,
        hdue, rfl⟩
  | poll hstate => exact ⟨hstate, hrun.coherent.connected hstate⟩
  | recv data hopen => exact ⟨hopen, rfl⟩
  | disconnect hstate =>
      -- the connection has been closed, so that its queue is empty
      have hclosed := hrun.coherent.disconnecting hstate
      have hqueue := hrun.coherent.closed hclosed
      have hspace := hrun.conserved
      rw [Client.Conserved, hqueue, outstanding_nil, Nat.add_zero] at hspace
      exact ⟨rfl, hclosed, hqueue, hspace⟩
  | error e => exact trivial

/-! ## Runs -/

/-- Whenever a callback of a client is invoked, whatever user code has done before, it finds the
client as its name says: after `CONNECT` and at `POLL` and `TIMEOUT` the client is connected and
open, at `DISCONNECT` it is closed and has an empty queue and the whole write space, `RECV` comes
from an open client, `SENT` reports a length that `add` accepts, and `TIMEOUT` the time for which
the first buffer has been waiting, which is not shorter than the ack timeout. -/
theorem callbacks_find {s s' : System} {l : machine.Label} {c : ClientId} {cb : Callback}
    {last : Bool} (hs : Reachable s) (hstep : machine.step s l = some s') (hl : l.IsInternal)
    (hcallback : s'.control.place = some (.client c cb last)) :
    ∃ cl, s'.state.clients c = some cl ∧ cb.Finds s'.state.clock cl :=
  exists_delivered establishes_finds hs hstep hl hcallback

end

section

attribute [local instance] Configuration.esp32

/-- A connected client with a buffer is closed, and the next cycle reports it. -/
theorem callbacks_find_disconnect :
    ∃ s s' cl, Reachable s ∧ machine.step s (.start .cycle) = some s' ∧
      s'.state.clients 0 = some cl ∧ cl.state = .disconnected ∧ cl.isOpen = false ∧
      cl.writeQueue = [] ∧ cl.writeSpaceRemaining = initialWriteSpace := by
  obtain ⟨s, s', cl, hs, hstep, hplace, hcl, -⟩ := exists_step_client (P := fun _ => True)
    [.ext (.newClientFrom 48), .ext (.call 0 (.add (some [1, 2]) (.of .copy))),
      .ext (.call 0 .close)] (.start .cycle) (.client 0 .disconnect true) 0 (by decide +kernel)
  obtain ⟨cl', hcl', hfinds⟩ := callbacks_find hs hstep trivial hplace
  obtain rfl := Option.some.inj (hcl.symm.trans hcl')
  exact ⟨s, s', cl, hs, hstep, hcl, hfinds⟩

end

end AsyncTcpSock
