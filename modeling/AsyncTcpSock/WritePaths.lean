import Mathlib.Data.List.TakeWhile
import AsyncTcpSock.WriteReturn

/-!
# The two write paths

User code writes the queue with `send`, the manager with `_sockIsWriteable`. `send` leaves finished
buffers in the queue: `_sockPoll` reports and removes them later. `_sockIsWriteable` does this after
every pass. Here the same calls are made on both paths, with callbacks that do nothing, and the
client on the path through `send` lags behind the other by the finished buffers at the front of its
queue.
-/

namespace AsyncTcpSock

open Reentrant

/-! ## The two paths -/

/-- What is done to the client: `add`, or writing the queue. -/
inductive WriteOp where
  | add (data : Option (List UInt8)) (flags : ClientApiFlags)
  | write
  deriving DecidableEq, Repr

namespace ClientBase

variable [Configuration]

/-- One call; what `add` returns is recorded. -/
def writeOp (c : ClientId) (write : Proc Bool) : WriteOp → Proc (Option ℕ)
  | .add data flags => do
      let n ← add c data flags
      return some n
  | .write => do
      let _ ← write
      return none

/-- Call after call, where `write` stands for writing the queue. -/
def writing (c : ClientId) (write : Proc Bool) : List WriteOp → Proc (List (Option ℕ))
  | [] => return []
  | op :: rest => do
      let r ← writeOp c write op
      let rs ← writing c write rest
      return r :: rs

/-- The notification part of `_sockPoll`. -/
def pollNotify (c : ClientId) : Proc Unit := do
  Proc.lock (.write c)
  cleanupWriteQueue c false

/-- The path through `send`. -/
def writingBySend (c : ClientId) (ops : List WriteOp) : Proc (List (Option ℕ)) := do
  let rs ← writing c (send c) ops
  pollNotify c
  return rs

/-- The path through the manager. -/
def writingByManager (c : ClientId) (ops : List WriteOp) : Proc (List (Option ℕ)) :=
  writing c (sockIsWriteable c) ops

end ClientBase

/-- `lwip_write` takes some bytes, or the socket is full. -/
def WriteOutcome.errorFree : WriteOutcome → Bool
  | wrote _ => true
  | failed errno => errno = EAGAIN ∨ errno = EWOULDBLOCK

/-- The `SENT` callbacks delivered, in order. -/
def sentCallbacks : List Event → List (ℕ × ℕ)
  | [] => []
  | .callback (.sent length delay) :: past => sentCallbacks past ++ [(length, delay)]
  | _ :: past => sentCallbacks past

/-- The two paths have come to the same. -/
structure Client.SameWriting (cl₁ cl₂ : Client) : Prop where
  writeQueue : cl₁.writeQueue = cl₂.writeQueue
  writeSpaceRemaining : cl₁.writeSpaceRemaining = cl₂.writeSpaceRemaining
  rxLastPacket : cl₁.rxLastPacket = cl₂.rxLastPacket
  handed : handedBytes cl₁.history = handedBytes cl₂.history
  sent : sentCallbacks cl₁.history = sentCallbacks cl₂.history

/-! ## Queues without errors -/

/-- No buffer of a queue has an error. -/
def Clean (queue : List WriteQueueBuffer) : Prop := ∀ buf ∈ queue, buf.hasError = false

/-- An error-free write loop leaves no error in its buffer. -/
theorem WriteQueueBuffer.hasError_write {buf : WriteQueueBuffer} (now : Time)
    {outs : List WriteOutcome} (houts : ∀ out ∈ outs, out.errorFree = true)
    (hbuf : buf.hasError = false) :
    (buf.write now outs).buf.hasError = false ∧ (buf.write now outs).rest <:+ outs := by
  induction outs generalizing buf with
  | nil => exact ⟨hbuf, List.suffix_refl _⟩
  | cons out rest ih =>
      obtain ⟨hout, hrest⟩ := List.forall_mem_cons.mp houts
      cases out with
      | wrote n =>
          simp only [write]
          split
          · exact ⟨hbuf, List.suffix_cons ..⟩
          · refine ⟨(ih hrest ?_).1, (ih hrest ?_).2.trans (List.suffix_cons ..)⟩
            · exact hbuf
            · exact hbuf
      | failed errno =>
          simp only [WriteOutcome.errorFree, decide_eq_true_eq] at hout
          simp only [write, hout, if_true]
          exact ⟨hbuf, List.suffix_cons ..⟩

/-- An error-free pass leaves no error in the queue. -/
theorem Clean.processQueue {queue : List WriteQueueBuffer} (hqueue : Clean queue) {io : WriteIo}
    (hio : ∀ out ∈ io.writes, out.errorFree = true) :
    Clean (processQueue io queue).queue ∧ (processQueue io queue).io.writes <:+ io.writes := by
  induction queue generalizing io with
  | nil => exact ⟨nofun, List.suffix_refl _⟩
  | cons buf rest ih =>
      obtain ⟨hbuf, hrest⟩ := List.forall_mem_cons.mp hqueue
      simp only [AsyncTcpSock.processQueue, hbuf, Bool.false_eq_true, if_false]
      split
      · have hih := ih hrest hio
        exact ⟨List.forall_mem_cons.mpr ⟨hbuf, hih.1⟩, hih.2⟩
      · have hwrite := buf.hasError_write io.now.clock hio hbuf
        have hleft : ∀ out ∈ (buf.write io.now.clock io.now.writes).rest, out.errorFree = true :=
          fun out hout => hio out (hwrite.2.subset hout)
        refine ⟨List.forall_mem_cons.mpr ⟨hwrite.1, (ih hrest ?_).1⟩,
          (ih hrest ?_).2.trans hwrite.2⟩
        · exact hleft
        · exact hleft

/-- A pass skips finished buffers at the front. -/
theorem processQueue_append {front : List WriteQueueBuffer} (hclean : Clean front)
    (hfront : ∀ buf ∈ front, buf.isFullyWritten = true) (io : WriteIo)
    (queue : List WriteQueueBuffer) :
    processQueue io (front ++ queue) =
      { processQueue io queue with queue := front ++ (processQueue io queue).queue } := by
  induction front with
  | nil => rfl
  | cons buf rest ih =>
      obtain ⟨herror, hclean⟩ := List.forall_mem_cons.mp hclean
      obtain ⟨hfull, hrest⟩ := List.forall_mem_cons.mp hfront
      simp only [List.cons_append, processQueue, herror, hfull, Bool.false_eq_true, if_false,
        if_true]
      rw [ih hclean hrest]

/-- `_rx_last_packet` after a scan that has passed some buffers. -/
def lastWritten (rxLastPacket : Time) (bufs : List WriteQueueBuffer) : Time :=
  bufs.foldl (fun t buf => if buf.writtenAt > t then buf.writtenAt else t) rxLastPacket

/-- A scan of a queue without errors reports the finished buffers at the front. -/
theorem scanQueue_clean {queue : List WriteQueueBuffer} (hqueue : Clean queue) (t : Time) :
    scanQueue t queue = ⟨lastWritten t (queue.takeWhile (·.isFullyWritten)),
      (queue.takeWhile (·.isFullyWritten)).map WriteQueueBuffer.stats, none⟩ := by
  induction queue generalizing t with
  | nil => rfl
  | cons buf rest ih =>
      obtain ⟨hbuf, hrest⟩ := List.forall_mem_cons.mp hqueue
      cases hfull : buf.isFullyWritten with
      | false => simp [scanQueue, hbuf, hfull, lastWritten]
      | true => simp [scanQueue, hbuf, hfull, lastWritten, ih hrest]

theorem drop_length_takeWhile {α : Type} (p : α → Bool) (l : List α) :
    l.drop (l.takeWhile p).length = l.dropWhile p := by
  induction l with
  | nil => rfl
  | cons a as ih => cases h : p a <;> simp [h, ih]

/-! ## The simulation -/

/-- The queue does not begin with a finished buffer. -/
def Swept (queue : List WriteQueueBuffer) : Prop := queue.takeWhile (·.isFullyWritten) = []

/-- The client on the path through `send` lags behind the one on the path through the manager by
finished buffers `front`, which are still in its queue and have not been reported. -/
structure Client.Lags (front : List WriteQueueBuffer) (cl₁ cl₂ : Client) : Prop where
  /-- The second queue lacks the front of the first. -/
  queue : cl₁.writeQueue = front ++ cl₂.writeQueue
  /-- The buffers of the front are finished. -/
  finished : ∀ buf ∈ front, buf.isFullyWritten = true
  /-- No buffer has an error. -/
  clean : Clean cl₁.writeQueue
  /-- Both clients are connected. -/
  connected : cl₁.connected = true ∧ cl₂.connected = true
  /-- They have the same write space. -/
  writeSpaceRemaining : cl₁.writeSpaceRemaining = cl₂.writeSpaceRemaining
  /-- They number buffers alike. -/
  nextSeq : cl₁.nextSeq = cl₂.nextSeq
  /-- The second has noted the times of the front. -/
  rxLastPacket : lastWritten cl₁.rxLastPacket front = cl₂.rxLastPacket
  /-- The same bytes have been handed over. -/
  handed : handedBytes cl₁.history = handedBytes cl₂.history
  /-- The second has reported the front. -/
  sent : sentCallbacks cl₂.history = sentCallbacks cl₁.history ++
    front.map fun buf => (buf.stats.length, buf.stats.delay)

/-- The effect of the notifications at the end of `_cleanupWriteQueue`. -/
def Client.notifiedSent (cl : Client) (stats : List WriteStats) : Client :=
  { cl with
    history := (stats.map fun s => Event.callback (.sent s.length s.delay)).reverse ++ cl.history }

/-- The effect of `_cleanupWriteQueue` on a queue without errors. -/
def Client.swept (cl : Client) : Client := cl.afterScan.notifiedSent cl.scan.notifyQueue

theorem sentCallbacks_wrote (calls : List WriteCall) {past : List Event} :
    sentCallbacks ((calls.map Event.wrote).reverse ++ past) = sentCallbacks past :=
  eq_of_wrote calls fun _ _ => rfl

/-- The notifications are the callbacks that are delivered. -/
theorem sentCallbacks_notified (stats : List WriteStats) (past : List Event) :
    sentCallbacks ((stats.map fun s => Event.callback (.sent s.length s.delay)).reverse ++ past) =
      sentCallbacks past ++ stats.map fun s => (s.length, s.delay) := by
  induction stats generalizing past with
  | nil => simp
  | cons s rest ih => simp [ih, sentCallbacks]

theorem handedBytes_notified (stats : List WriteStats) (past : List Event) :
    handedBytes ((stats.map fun s => Event.callback (.sent s.length s.delay)).reverse ++ past) =
      handedBytes past := by
  induction stats generalizing past with
  | nil => rfl
  | cons s rest ih => simp [ih, handedBytes]

namespace Client

variable {cl cl₁ cl₂ : Client} {front : List WriteQueueBuffer}

/-- What `_cleanupWriteQueue` comes to on a queue without errors. -/
theorem swept_eq (hclean : Clean cl.writeQueue) :
    cl.swept.writeQueue = cl.writeQueue.dropWhile (·.isFullyWritten) ∧
      cl.swept.rxLastPacket =
        lastWritten cl.rxLastPacket (cl.writeQueue.takeWhile (·.isFullyWritten)) ∧
      handedBytes cl.swept.history = handedBytes cl.history ∧
      sentCallbacks cl.swept.history = sentCallbacks cl.history ++
        (cl.writeQueue.takeWhile (·.isFullyWritten)).map
          fun buf => (buf.stats.length, buf.stats.delay) := by
  have hscan : cl.scan = _ := scanQueue_clean hclean cl.rxLastPacket
  refine ⟨?_, ?_, handedBytes_notified _ _, ?_⟩
  · simp only [swept, notifiedSent, afterScan, hscan, List.length_map, drop_length_takeWhile]
  · simp only [swept, notifiedSent, afterScan, hscan]
  · refine (sentCallbacks_notified _ _).trans ?_
    simp only [hscan, List.map_map]
    rfl

namespace Lags

theorem log (h : Lags front cl₁ cl₂) : Lags front cl₁ (cl₂.log (.entered .writeable)) :=
  ⟨h.queue, h.finished, h.clean, h.connected, h.writeSpaceRemaining, h.nextSeq, h.rxLastPacket,
    h.handed, h.sent⟩

/-- Both paths queue the same buffer. -/
theorem commit (h : Lags front cl₁ cl₂) (owned : Bool) (queuedAt : Time) (data : List UInt8) :
    Lags front (cl₁.commit owned queuedAt data) (cl₂.commit owned queuedAt data) := by
  refine ⟨?_, h.finished, ?_, h.connected, ?_, ?_, h.rxLastPacket, h.handed, h.sent⟩
  · simp only [Client.commit, h.queue, h.nextSeq, List.append_assoc]
  · intro buf hbuf
    rcases List.mem_append.mp hbuf with hbuf | hbuf
    · exact h.clean buf hbuf
    · rw [List.mem_singleton.mp hbuf]
      rfl
  · simp only [Client.commit, h.writeSpaceRemaining]
  · simp only [Client.commit, h.nextSeq]

theorem clean_front (h : Lags front cl₁ cl₂) : Clean front := fun buf hbuf =>
  h.clean buf (h.queue ▸ List.mem_append_left _ hbuf)

theorem clean_back (h : Lags front cl₁ cl₂) : Clean cl₂.writeQueue := fun buf hbuf =>
  h.clean buf (h.queue ▸ List.mem_append_right _ hbuf)

/-- Both paths make the same pass. -/
theorem processQueue_eq (h : Lags front cl₁ cl₂) (io : WriteIo) :
    processQueue io cl₁.writeQueue = { processQueue io cl₂.writeQueue with
      queue := front ++ (processQueue io cl₂.writeQueue).queue } := by
  rw [h.queue, processQueue_append h.clean_front h.finished]

/-- After a pass one path reports the buffers that are finished, the other falls behind by them. -/
theorem write (h : Lags front cl₁ cl₂) {io : WriteIo}
    (hio : ∀ out ∈ io.writes, out.errorFree = true) :
    Lags (front ++ (processQueue io cl₂.writeQueue).queue.takeWhile (·.isFullyWritten))
      (cl₁.afterPass (processQueue io cl₁.writeQueue))
      (cl₂.afterPass (processQueue io cl₂.writeQueue)).swept := by
  -- what is in `front` is complete, so the pass goes on behind it as in the other client
  have hpass : Clean (cl₂.afterPass (processQueue io cl₂.writeQueue)).writeQueue :=
    (h.clean_back.processQueue hio).1
  obtain ⟨hqueue, hrx, hhanded, hsent⟩ := swept_eq hpass
  rw [h.processQueue_eq]
  refine ⟨?_, ?_, ?_, h.connected, ?_, h.nextSeq, ?_, ?_, ?_⟩
  · -- what the manager sweeps off is what the other client has kept at the front
    rw [hqueue, List.append_assoc]
    exact congrArg (front ++ ·) List.takeWhile_append_dropWhile.symm
  · intro buf hbuf
    rcases List.mem_append.mp hbuf with hbuf | hbuf
    · exact h.finished buf hbuf
    · exact List.mem_takeWhile_imp hbuf
  · intro buf hbuf
    rcases List.mem_append.mp hbuf with hbuf | hbuf
    · exact h.clean_front buf hbuf
    · exact hpass buf hbuf
  · exact congrArg (· + _) h.writeSpaceRemaining
  · rw [hrx, lastWritten, List.foldl_append]
    exact congrArg (lastWritten · _) h.rxLastPacket
  · have hcalls := h.handed
    simp only [afterPass] at hhanded ⊢
    rw [hhanded, handedBytes_wrote, handedBytes_wrote]
    exact congrArg (· ++ _) hcalls
  · have hreported := h.sent
    simp only [afterPass] at hsent ⊢
    rw [hsent, sentCallbacks_wrote, sentCallbacks_wrote, List.map_append, ← List.append_assoc]
    exact congrArg (· ++ _) hreported

/-- A pass over finished buffers does nothing. -/
theorem idle (h : Lags front cl₁ cl₂) (hqueue : cl₂.writeQueue = []) (io : WriteIo) :
    Lags front (cl₁.afterPass (processQueue io cl₁.writeQueue)) cl₂ := by
  have hnone : processQueue io [] = ⟨[], 0, false, [], io⟩ := rfl
  rw [h.processQueue_eq, hqueue, hnone]
  have hclean := h.clean
  rw [h.queue, hqueue] at hclean
  exact ⟨by simp [afterPass, hqueue], h.finished, hclean, h.connected, h.writeSpaceRemaining,
    h.nextSeq, h.rxLastPacket, h.handed, h.sent⟩

/-- When the finished buffers are reported at last, both paths have come to the same. -/
theorem flush (h : Lags front cl₁ cl₂) (hswept : Swept cl₂.writeQueue) :
    cl₁.swept.SameWriting cl₂ := by
  obtain ⟨hqueue, hrx, hhanded, hsent⟩ := swept_eq h.clean
  have htake : cl₁.writeQueue.takeWhile (·.isFullyWritten) = front := by
    rw [h.queue, List.takeWhile_append_of_pos h.finished, hswept, List.append_nil]
  have hdrop : cl₁.writeQueue.dropWhile (·.isFullyWritten) = cl₂.writeQueue := by
    rw [h.queue, List.dropWhile_append_of_pos h.finished]
    have hsplit := List.takeWhile_append_dropWhile (p := (·.isFullyWritten)) (l := cl₂.writeQueue)
    rwa [hswept, List.nil_append] at hsplit
  exact ⟨hqueue.trans hdrop, h.writeSpaceRemaining, by rw [hrx, htake, h.rxLastPacket],
    hhanded.trans h.handed, by rw [hsent, htake, h.sent]⟩

end Lags

end Client

theorem Swept.append {queue : List WriteQueueBuffer} (h : Swept queue) {buf : WriteQueueBuffer}
    (hbuf : buf.isFullyWritten = false) : Swept (queue ++ [buf]) := by
  cases queue with
  | nil => simp [Swept, hbuf]
  | cons first rest =>
      have hfirst : first.isFullyWritten = false := by
        by_contra hfull
        simp [Swept, hfull] at h
      simp [Swept, hfirst]

theorem swept_dropWhile (queue : List WriteQueueBuffer) :
    Swept (queue.dropWhile (·.isFullyWritten)) := by
  induction queue with
  | nil => rfl
  | cons buf rest ih =>
      cases hfull : buf.isFullyWritten with
      | true => simpa [hfull] using ih
      | false => simp [Swept, hfull]

/-! ## Undisturbed handlers -/

/-- The world in which the queue of client `c` has been written and finished buffers have been
reported. -/
def World.sweep (w : World) (c : ClientId) (cl : Client) : World :=
  let p := processQueue w.writeIo cl.writeQueue
  w.put c (cl.afterPass p).swept
    { w.outcomes with writes := p.io.writes, ticks := p.io.ticks } p.io.clock

section

variable [Configuration] {w w₁ w₂ : World} {c : ClientId} {cl cl₁ cl₂ : Client}
  {front : List WriteQueueBuffer}

omit [Configuration] in
/-- The notifications, with callbacks that do nothing. -/
theorem wp_notifySent_idle {tail : Bool} {stats : List WriteStats} {Q : Unit → World → Prop}
    (hcl : w.clients c = some cl)
    (hQ : Q () (w.put c (cl.notifiedSent stats) w.outcomes w.clock)) :
    wp Contract.idle (ClientBase.notifySent c tail stats) Q w := by
  induction stats generalizing w cl with
  | nil =>
      rw [ClientBase.notifySent, wp_pure]
      have hnone : cl.notifiedSent [] = cl := rfl
      rwa [hnone, ← World.elapse_eq_put _ _ hcl] at hQ
  | cons s rest ih =>
      rw [ClientBase.notifySent, wp_bind, Proc.invoke, wp_bind, Proc.wp_log, hcl, Option.elim_some]
      refine wp_idle_yield (ih (World.put_clients_self ..) ?_)
      rw [World.put_put]
      simpa [Client.notifiedSent, Client.log] using hQ

/-- `_cleanupWriteQueue` on a queue without errors. -/
theorem wp_cleanupWriteQueue_idle {tail : Bool} {Q : Unit → World → Prop}
    (hcl : w.clients c = some cl) (hheld : Mutex.write c ∉ w.held) (hclean : Clean cl.writeQueue)
    (hQ : Q () (w.put c cl.swept w.outcomes w.clock)) :
    wp Contract.idle (ClientBase.cleanupWriteQueue c tail) Q (w.hold (.write c)) := by
  have hscan : cl.scan.error = none := by rw [Client.scan, scanQueue_clean hclean]
  simp only [ClientBase.cleanupWriteQueue, wp_bind, Proc.wp_this, World.hold_clients, hcl,
    Option.elim_some, hscan, Proc.wp_update, World.hold_put, Proc.wp_unlock]
  rw [World.release_hold (by simpa using hheld)]
  refine wp_notifySent_idle (World.put_clients_self ..) ?_
  rw [World.put_put]
  exact hQ

/-- The second half of `_sockIsWriteable` on a connected client. -/
theorem wp_writeAvailable_idle {activity : Bool} {Q : Bool → World → Prop}
    (hcl : w.clients c = some cl) (hheld : Mutex.write c ∉ w.held)
    (hconnected : cl.connected = true) (hclean : Clean cl.writeQueue)
    (hwrites : ∀ out ∈ w.outcomes.writes, out.errorFree = true)
    (hQ : if cl.writeQueue = [] then Q activity w
      else Q (processQueue w.writeIo cl.writeQueue).activity (w.sweep c cl)) :
    wp Contract.idle (ClientBase.writeAvailable c activity) Q w := by
  have hstate : cl.state = .connected := by simpa [Client.connected] using hconnected
  have hc : (w.hold (.write c)).clients c = some cl := hcl
  rw [ClientBase.writeAvailable, wp_bind, Proc.wp_lock, if_neg hheld, wp_bind, Proc.wp_this, hc,
    Option.elim_some, Proc.wp_ite]
  split at hQ
  · rename_i hnil
    rw [if_neg (by simp [hnil]), wp_bind, Proc.wp_unlock, World.release_hold hheld, wp_pure]
    exact hQ
  · rename_i hne
    -- without errors in the queue the scan does no more than sweep it
    have hpass : Clean (processQueue w.writeIo cl.writeQueue).queue :=
      (hclean.processQueue hwrites).1
    rw [if_pos ⟨hstate, by simpa using hne⟩, wp_bind, ClientBase.wp_processWriteQueue_eq hc,
      wp_bind, World.hold_pass]
    refine wp_cleanupWriteQueue_idle (World.put_clients_self ..) hheld hpass ?_
    rw [wp_pure, World.pass, World.put_put]
    exact hQ

/-- `_sockIsWriteable` on a connected client. -/
theorem wp_sockIsWriteable_idle {Q : Bool → World → Prop} (hcl : w.clients c = some cl)
    (hheld : Mutex.write c ∉ w.held) (hconnected : cl.connected = true)
    (hclean : Clean cl.writeQueue) (hwrites : ∀ out ∈ w.outcomes.writes, out.errorFree = true)
    (hQ : if cl.writeQueue = [] then
        Q false (w.put c (cl.log (.entered .writeable)) w.outcomes w.clock)
      else Q (processQueue w.writeIo cl.writeQueue).activity
        (w.sweep c (cl.log (.entered .writeable)))) :
    wp Contract.idle (ClientBase.sockIsWriteable c) Q w := by
  have hstate : cl.state = .connected := by simpa [Client.connected] using hconnected
  rw [ClientBase.sockIsWriteable, wp_bind, Proc.wp_log, hcl, Option.elim_some, wp_bind,
    Proc.wp_this, World.put_clients_self, Option.elim_some, Proc.wp_ite,
    if_neg (by simpa [Client.log] using hstate)]
  refine wp_writeAvailable_idle (World.put_clients_self ..) hheld hconnected hclean hwrites ?_
  rw [World.sweep, World.put_put]
  exact hQ

/-- The undisturbed run of `_sockIsWriteable`. -/
theorem undisturbed_sockIsWriteable (hcl : w.clients c = some cl) (hheld : Mutex.write c ∉ w.held)
    (hconnected : cl.connected = true) (hclean : Clean cl.writeQueue)
    (hwrites : ∀ out ∈ w.outcomes.writes, out.errorFree = true) :
    (ClientBase.sockIsWriteable c).undisturbed w = some (
      if cl.writeQueue = [] then
        (false, w.put c (cl.log (.entered .writeable)) w.outcomes w.clock)
      else ((processQueue w.writeIo cl.writeQueue).activity,
        w.sweep c (cl.log (.entered .writeable)))) := by
  refine undisturbed_of_wp (wp_sockIsWriteable_idle hcl hheld hconnected hclean hwrites ?_)
  by_cases hqueue : cl.writeQueue = []
  · rw [if_pos hqueue, if_pos hqueue]
  · rw [if_neg hqueue, if_neg hqueue]

omit [Configuration] in
/-- The undisturbed run of `send`, on a socket that is ready. -/
theorem undisturbed_send (hcl : w.clients c = some cl) (hheld : Mutex.write c ∉ w.held)
    (hconnected : cl.connected = true) (hready : w.outcomes.selects.headD false = true) :
    (ClientBase.send c).undisturbed w = some (
      if cl.writeQueue = [] then (false, w.selected)
      else ((processQueue w.writeIo cl.writeQueue).activity, w.selected.pass c cl)) := by
  refine undisturbed_of_wp ((ClientBase.wp_send_eq hcl hheld hconnected).mpr ?_)
  by_cases hqueue : cl.writeQueue = []
  · rw [if_neg (fun h => h.2 hqueue), if_pos hqueue]
  · rw [if_pos ⟨hready, hqueue⟩, if_neg hqueue]

omit [Configuration] in
/-- The undisturbed run of `add`. -/
theorem undisturbed_add (hcl : w.clients c = some cl) (hheld : Mutex.write c ∉ w.held)
    (data : List UInt8) (flags : ClientApiFlags) :
    (ClientBase.add c (some data) flags).undisturbed w = some (
      if cl.toSend data.length = 0 then (0, w)
      else (cl.toSend data.length, w.tick.put c
        (cl.commit (flags.test .copy) w.tick.clock (data.take (cl.toSend data.length)))
        w.tick.outcomes w.tick.clock)) := by
  refine undisturbed_of_wp ((ClientBase.wp_add_eq hcl hheld).mpr ?_)
  by_cases hsize : cl.toSend data.length = 0
  · rw [if_pos hsize, if_pos hsize]
  · rw [if_neg hsize, if_neg hsize]

/-- The notification part of `_sockPoll`. -/
theorem wp_pollNotify_idle {Q : Unit → World → Prop} (hcl : w.clients c = some cl)
    (hheld : Mutex.write c ∉ w.held) (hclean : Clean cl.writeQueue)
    (hQ : Q () (w.put c cl.swept w.outcomes w.clock)) :
    wp Contract.idle (ClientBase.pollNotify c) Q w := by
  rw [ClientBase.pollNotify, wp_bind, Proc.wp_lock, if_neg hheld]
  exact wp_cleanupWriteQueue_idle hcl hheld hclean hQ

/-! ## Both paths -/

/-- The worlds of the two paths: they agree on what `lwip_write` and the clock are going to report,
and the client of the first lags behind. -/
structure World.Lags (c : ClientId) (front : List WriteQueueBuffer) (w₁ w₂ : World)
    (cl₁ cl₂ : Client) : Prop where
  /-- The client on the first path. -/
  clients₁ : w₁.clients c = some cl₁
  /-- The client on the second path. -/
  clients₂ : w₂.clients c = some cl₂
  /-- The write mutex is free on the first path. -/
  held₁ : Mutex.write c ∉ w₁.held
  /-- The write mutex is free on the second path. -/
  held₂ : Mutex.write c ∉ w₂.held
  /-- The two paths are going to get the same answers. -/
  io : w₁.writeIo = w₂.writeIo
  /-- None of these answers is an error. -/
  errorFree : ∀ out ∈ w₁.writeIo.writes, out.errorFree = true
  /-- The first client has still to report the buffers in `front`. -/
  lags : cl₁.Lags front cl₂

namespace World.Lags

omit [Configuration] in
theorem toSend (h : Lags c front w₁ w₂ cl₁ cl₂) (size : ℕ) : cl₁.toSend size = cl₂.toSend size := by
  simp only [Client.toSend, Client.space, h.lags.connected.1, h.lags.connected.2, if_true,
    h.lags.writeSpaceRemaining]

omit [Configuration] in
theorem commit (h : Lags c front w₁ w₂ cl₁ cl₂) (owned : Bool) (data : List UInt8) :
    Lags c front
      (w₁.tick.put c (cl₁.commit owned w₁.tick.clock data) w₁.tick.outcomes w₁.tick.clock)
      (w₂.tick.put c (cl₂.commit owned w₂.tick.clock data) w₂.tick.outcomes w₂.tick.clock)
      (cl₁.commit owned w₁.tick.clock data) (cl₂.commit owned w₂.tick.clock data) := by
  obtain ⟨hwrites, hticks, hclock⟩ := WriteIo.mk.inj h.io
  have htime : w₁.tick.clock = w₂.tick.clock := by
    simp only [World.tick, World.elapse_clock, hticks, hclock]
  refine ⟨World.put_clients_self .., World.put_clients_self .., h.held₁, h.held₂, ?_, h.errorFree,
    ?_⟩
  · refine WriteIo.mk.injEq .. ▸ ⟨hwrites, ?_, htime⟩
    exact congrArg List.tail hticks
  · rw [htime]
    exact h.lags.commit owned _ data

omit [Configuration] in
/-- After a pass on both paths. -/
theorem pass_io (h : Lags c front w₁ w₂ cl₁ cl₂) :
    (processQueue w₁.writeIo cl₁.writeQueue).io = (processQueue w₂.writeIo cl₂.writeQueue).io := by
  rw [h.io, h.lags.processQueue_eq]

omit [Configuration] in
theorem errorFree_pass (h : Lags c front w₁ w₂ cl₁ cl₂) :
    ∀ out ∈ (processQueue w₁.writeIo cl₁.writeQueue).io.writes, out.errorFree = true :=
  fun out hout => h.errorFree out ((h.lags.clean.processQueue h.errorFree).2.subset hout)

omit [Configuration] in
/-- Writing the queue on both paths. -/
theorem write (h : Lags c front w₁ w₂ cl₁ cl₂) :
    Lags c (front ++ (processQueue w₂.writeIo cl₂.writeQueue).queue.takeWhile (·.isFullyWritten))
      (w₁.selected.pass c cl₁) (w₂.sweep c (cl₂.log (.entered .writeable)))
      (cl₁.afterPass (processQueue w₁.writeIo cl₁.writeQueue))
      ((cl₂.log (.entered .writeable)).afterPass
        (processQueue w₂.writeIo cl₂.writeQueue)).swept := by
  refine ⟨World.put_clients_self .., World.put_clients_self .., h.held₁, h.held₂, h.pass_io,
    h.errorFree_pass, ?_⟩
  rw [h.io]
  exact h.lags.log.write (h.io ▸ h.errorFree)

omit [Configuration] in
/-- Writing the queue on both paths when the client of the second has nothing to write. -/
theorem idle (h : Lags c front w₁ w₂ cl₁ cl₂) (hqueue : cl₂.writeQueue = []) :
    Lags c front (w₁.selected.pass c cl₁)
      (w₂.put c (cl₂.log (.entered .writeable)) w₂.outcomes w₂.clock)
      (cl₁.afterPass (processQueue w₁.writeIo cl₁.writeQueue)) (cl₂.log (.entered .writeable)) := by
  have hio := h.pass_io
  rw [hqueue] at hio
  exact ⟨World.put_clients_self .., World.put_clients_self .., h.held₁, h.held₂, hio,
    h.errorFree_pass, h.lags.log.idle hqueue _⟩

omit [Configuration] in
/-- Writing the queue on both paths when both are empty. -/
theorem nothing (h : Lags c front w₁ w₂ cl₁ cl₂) :
    Lags c front w₁.selected (w₂.put c (cl₂.log (.entered .writeable)) w₂.outcomes w₂.clock) cl₁
      (cl₂.log (.entered .writeable)) :=
  ⟨h.clients₁, World.put_clients_self .., h.held₁, h.held₂, h.io, h.errorFree, h.lags.log⟩

end World.Lags

/-- One call on both paths. -/
theorem exists_writeOp (h : World.Lags c front w₁ w₂ cl₁ cl₂) (op : WriteOp)
    (hready : op = .write → w₁.outcomes.selects.headD false = true) :
    ∃ r w₁' w₂' front' cl₁' cl₂',
      (ClientBase.writeOp c (ClientBase.send c) op).undisturbed w₁ = some (r, w₁') ∧
      (ClientBase.writeOp c (ClientBase.sockIsWriteable c) op).undisturbed w₂ = some (r, w₂') ∧
      World.Lags c front' w₁' w₂' cl₁' cl₂' ∧
      w₁'.outcomes.selects = w₁.outcomes.selects.drop ([op].count .write) ∧
      (op = .write ∨ Swept cl₂.writeQueue → Swept cl₂'.writeQueue) := by
  cases op with
  | add data flags =>
      have hkept (hswept : WriteOp.add data flags = .write ∨ Swept cl₂.writeQueue) :
          Swept cl₂.writeQueue := hswept.resolve_left nofun
      cases data with
      | none => exact ⟨some 0, w₁, w₂, front, cl₁, cl₂, rfl, rfl, h, rfl, hkept⟩
      | some data =>
          have hsend := undisturbed_add h.clients₁ h.held₁ data flags
          have hmanager := undisturbed_add h.clients₂ h.held₂ data flags
          rw [h.toSend] at hsend
          by_cases hsize : cl₂.toSend data.length = 0
          · rw [if_pos hsize] at hsend hmanager
            exact ⟨some 0, w₁, w₂, front, cl₁, cl₂, by simp [ClientBase.writeOp, hsend],
              by simp [ClientBase.writeOp, hmanager], h, rfl, hkept⟩
          · rw [if_neg hsize] at hsend hmanager
            obtain ⟨-, hpos, -, hle⟩ := ClientBase.toSend_pos hsize
            refine ⟨some (cl₂.toSend data.length), _, _, front, _, _,
              by simp [ClientBase.writeOp, hsend], by simp [ClientBase.writeOp, hmanager],
              h.commit (flags.test .copy) (data.take (cl₂.toSend data.length)), rfl,
              fun hswept => ?_⟩
            -- `add` never queues an empty buffer, so that the new one is not finished
            refine (hkept hswept).append (WriteQueueBuffer.isFullyWritten_eq_false.mpr ?_)
            rw [List.length_take]
            simp only
            omega
  | write =>
      have herrorFree : ∀ out ∈ w₂.writeIo.writes, out.errorFree = true := h.io ▸ h.errorFree
      have hsend := undisturbed_send h.clients₁ h.held₁ h.lags.connected.1 (hready rfl)
      have hmanager := undisturbed_sockIsWriteable h.clients₂ h.held₂ h.lags.connected.2
        h.lags.clean_back herrorFree
      have htail : w₁.outcomes.selects.tail =
          w₁.outcomes.selects.drop ([WriteOp.write].count .write) := by simp
      -- with an empty queue the manager does nothing, and `send` looks at finished buffers only
      by_cases hqueue₂ : cl₂.writeQueue = []
      · rw [if_pos hqueue₂] at hmanager
        have hswept : Swept (cl₂.log (.entered .writeable)).writeQueue := by
          simp [Client.log, hqueue₂, Swept]
        by_cases hqueue₁ : cl₁.writeQueue = []
        · rw [if_pos hqueue₁] at hsend
          exact ⟨none, _, _, front, cl₁, _, by simp [ClientBase.writeOp, hsend],
            by simp [ClientBase.writeOp, hmanager], h.nothing, htail, fun _ => hswept⟩
        · rw [if_neg hqueue₁] at hsend
          exact ⟨none, _, _, front, _, _, by simp [ClientBase.writeOp, hsend],
            by simp [ClientBase.writeOp, hmanager], h.idle hqueue₂, htail, fun _ => hswept⟩
      · have hqueue₁ : cl₁.writeQueue ≠ [] := by
          rw [h.lags.queue]
          exact List.append_ne_nil_of_right_ne_nil _ hqueue₂
        rw [if_neg hqueue₁] at hsend
        rw [if_neg hqueue₂] at hmanager
        refine ⟨none, _, _, _, _, _, by simp [ClientBase.writeOp, hsend],
          by simp [ClientBase.writeOp, hmanager], h.write, htail, fun _ => ?_⟩
        have hclean : Clean ((cl₂.log (.entered .writeable)).afterPass
            (processQueue w₂.writeIo cl₂.writeQueue)).writeQueue :=
          (h.lags.clean_back.processQueue herrorFree).1
        rw [(Client.swept_eq hclean).1]
        exact swept_dropWhile _

/-- Every sequence of calls keeps the first client behind the second by finished buffers. -/
theorem exists_writing (h : World.Lags c front w₁ w₂ cl₁ cl₂) (ops : List WriteOp)
    (hready : List.replicate (ops.count .write) true <+: w₁.outcomes.selects) :
    ∃ rs w₁' w₂' front' cl₁' cl₂',
      (ClientBase.writing c (ClientBase.send c) ops).undisturbed w₁ = some (rs, w₁') ∧
      (ClientBase.writingByManager c ops).undisturbed w₂ = some (rs, w₂') ∧
      World.Lags c front' w₁' w₂' cl₁' cl₂' ∧
      (.write ∈ ops ∨ Swept cl₂.writeQueue → Swept cl₂'.writeQueue) := by
  induction ops generalizing w₁ w₂ cl₁ cl₂ front with
  | nil => exact ⟨[], w₁, w₂, front, cl₁, cl₂, rfl, rfl, h, fun hswept => hswept.resolve_left nofun⟩
  | cons op rest ih =>
      have hcount : (op :: rest).count .write = [op].count .write + rest.count .write := by
        rw [← List.count_append, List.singleton_append]
      -- a `write` consumes one outcome of `select`, the other operations none
      rw [hcount, List.replicate_add] at hready
      obtain ⟨selects, hselects⟩ := hready
      obtain ⟨r, w₁', w₂', front', cl₁', cl₂', hsend, hmanager, h', htail, hswept⟩ :=
        exists_writeOp h op (by rintro rfl; simp [← hselects])
      rw [← hselects, List.append_assoc, List.drop_left' (List.length_replicate ..)] at htail
      obtain ⟨rs, w₁'', w₂'', front'', cl₁'', cl₂'', hsends, hmanagers, h'', hswepts⟩ :=
        ih h' (htail ▸ List.prefix_append ..)
      refine ⟨r :: rs, w₁'', w₂'', front'', cl₁'', cl₂'', ?_, ?_, h'', ?_⟩
      · simp [ClientBase.writing, hsend, hsends]
      · rw [ClientBase.writingByManager] at hmanagers ⊢
        simp [ClientBase.writing, hmanager, hmanagers]
      · intro hsweep
        refine hswepts ?_
        rcases hsweep with hmem | hsweep
        · rcases List.mem_cons.mp hmem with rfl | hmem
          · exact .inr (hswept (.inl rfl))
          · exact .inl hmem
        · exact .inr (hswept (.inr hsweep))

/-- On every connected client whose queue has no errors, and for every sequence of calls, every
error-free behaviour of `lwip_write` and every clock, the two paths come to the same, if the queue
is written at least once or does not begin with a finished buffer. -/
theorem send_agrees_with_manager (hcl : w.clients c = some cl) (hheld : Mutex.write c ∉ w.held)
    (hconnected : cl.connected = true) (hclean : Clean cl.writeQueue)
    (hwrites : ∀ out ∈ w.outcomes.writes, out.errorFree = true) (ops : List WriteOp)
    (hready : List.replicate (ops.count .write) true <+: w.outcomes.selects)
    (hsweep : .write ∈ ops ∨ ∀ buf ∈ cl.writeQueue.head?, buf.isFullyWritten = false) :
    ∃ rs w₁ w₂ cl₁ cl₂, (ClientBase.writingBySend c ops).undisturbed w = some (rs, w₁) ∧
      (ClientBase.writingByManager c ops).undisturbed w = some (rs, w₂) ∧
      w₁.clients c = some cl₁ ∧ w₂.clients c = some cl₂ ∧ cl₁.SameWriting cl₂ := by
  have hlags : World.Lags c [] w w cl cl :=
    ⟨hcl, hcl, hheld, hheld, rfl, hwrites, rfl, nofun, hclean, ⟨hconnected, hconnected⟩, rfl, rfl,
      rfl, rfl, by simp⟩
  obtain ⟨rs, w₁, w₂, front, cl₁, cl₂, hsend, hmanager, h, hswept⟩ :=
    exists_writing hlags ops hready
  -- the poll sweeps off what is finished at the front; the manager has none of it left
  have hfront : Swept cl₂.writeQueue := by
    refine hswept (hsweep.imp_right fun hhead => ?_)
    cases hqueue : cl.writeQueue with
    | nil => rfl
    | cons buf rest => simp [Swept, hhead buf (by simp [hqueue])]
  have hnotify := undisturbed_of_wp (wp_pollNotify_idle h.clients₁ h.held₁ h.lags.clean rfl)
  refine ⟨rs, w₁.put c cl₁.swept w₁.outcomes w₁.clock, w₂, cl₁.swept, cl₂, ?_, hmanager,
    World.put_clients_self .., h.clients₂,
    h.lags.flush hfront⟩
  simp [ClientBase.writingBySend, hsend, hnotify]

end

section

attribute [local instance] Configuration.esp32

/-- Two buffers are added and written, the second one in two passes. -/
theorem send_agrees_with_manager_twice : ∃ rs w₁ w₂ cl₁ cl₂,
    (ClientBase.writingBySend 0
      [.add (some [1, 2]) (.of .copy), .write, .add (some [3]) (.of .copy), .write]).undisturbed
        (connectedClient [true, true] [.wrote 2, .wrote 1]) = some (rs, w₁) ∧
    (ClientBase.writingByManager 0
      [.add (some [1, 2]) (.of .copy), .write, .add (some [3]) (.of .copy), .write]).undisturbed
        (connectedClient [true, true] [.wrote 2, .wrote 1]) = some (rs, w₂) ∧
    w₁.clients 0 = some cl₁ ∧ w₂.clients 0 = some cl₂ ∧ cl₁.SameWriting cl₂ := by
  have hcl : (connectedClient [true, true] [.wrote 2, .wrote 1]).clients 0 =
      some (Client.adopted 0 0 48) := rfl
  refine send_agrees_with_manager hcl (by decide) rfl nofun ?_ _ ?_ ?_
  · decide
  · decide
  · decide

/-- A client has sent a buffer, and then neither path writes the queue: `_sockPoll` reports the
buffer on the one, nothing does on the other. -/
theorem not_send_agrees_with_manager : ∃ s cl, Reachable s ∧ s.control = .idle ∧
    s.state.clients 0 = some cl ∧ cl.connected = true ∧ Clean cl.writeQueue ∧
    (∀ out ∈ s.state.outcomes.writes, out.errorFree = true) ∧
    ¬ ∃ rs w₁ w₂ cl₁ cl₂, (ClientBase.writingBySend 0 []).undisturbed s.state = some (rs, w₁) ∧
      (ClientBase.writingByManager 0 []).undisturbed s.state = some (rs, w₂) ∧
      w₁.clients 0 = some cl₁ ∧ w₂.clients 0 = some cl₂ ∧ cl₁.SameWriting cl₂ := by
  obtain ⟨s, hs, hidle, hwrites, hcl, hsend⟩ := exists_reachable (P := fun s =>
    s.control.isIdle = true ∧ (∀ out ∈ s.state.outcomes.writes, out.errorFree = true) ∧
      (s.state.clients 0).any (fun cl => cl.connected = true ∧
        (∀ buf ∈ cl.writeQueue, buf.hasError = false) ∧ cl.writeQueue ≠ []) = true ∧
      ((ClientBase.writingBySend 0 []).undisturbed s.state).any
        (fun p => (p.2.clients 0).any (·.writeQueue = [])) = true)
    [.ext (.newClientFrom 48), .ext (.call 0 (.add (some [1, 2]) (.of .copy))),
      .ext (.outcomes { selects := [true], writes := [.wrote 2] }), .ext (.call 0 .send)]
    (by decide +kernel)
  obtain ⟨cl, hcl, hstate⟩ := (Option.any_eq_true _ _).mp hcl
  obtain ⟨hconnected, hclean, hqueue⟩ := of_decide_eq_true hstate
  refine ⟨s, cl, hs, Control.isIdle_iff.mp hidle, hcl, hconnected, hclean, hwrites, ?_⟩
  rintro ⟨rs, w₁, w₂, cl₁, cl₂, hrun₁, hrun₂, hcl₁, hcl₂, hsame⟩
  -- the manager has not touched the client, and `_sockPoll` has emptied the queue
  have hworld : s.state = w₂ := congrArg Prod.snd (Option.some.inj hrun₂)
  rw [← hworld, hcl, Option.some.injEq] at hcl₂
  rw [hrun₁] at hsend
  have hempty : cl₁.writeQueue = [] := by simpa [hcl₁] using hsend
  exact hqueue (hcl₂ ▸ hsame.writeQueue ▸ hempty)

end

end AsyncTcpSock
