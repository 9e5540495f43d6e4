import AsyncTcpSock.ClientInvariants
import AsyncTcpSock.Refinement
import AsyncTcpSock.Runs
import AsyncTcpSock.WriteQueue

/-!
# Stream order

The bytes handed to the socket of a connection, compared with the bytes accepted on it. They agree
as long as no `lwip_write` takes bytes after another one of the same pass over the queue has failed:
`_processWriteQueue` goes on to the next buffer when a buffer stalls, and a socket that has made
room in between then takes bytes out of order.
-/

namespace AsyncTcpSock

open Reentrant

/-! ## The two streams of a connection -/

/-- The bytes `add` has accepted on the current connection, in order. -/
def acceptedBytes : List Event → List UInt8
  | [] => []
  | .opened _ _ _ :: _ => []
  | .accepted _ data :: past => acceptedBytes past ++ data
  | _ :: past => acceptedBytes past

/-- The bytes handed to the socket of the current connection, in order. -/
def handedBytes : List Event → List UInt8
  | [] => []
  | .opened _ _ _ :: _ => []
  | .wrote call :: past => handedBytes past ++ call.taken
  | _ :: past => handedBytes past

/-- A call of the current pass over the queue has failed. -/
def stalled : List Event → Bool
  | [] => false
  | .pass :: _ => false
  | .wrote call :: past => call.failed || stalled past
  | _ :: past => stalled past

/-- The last event is not a call that takes bytes in a pass that has stalled. -/
def KeepsOrder : List Event → Prop
  | .wrote call :: past => stalled past = true → call.taken = []
  | _ => True

instance : DecidablePred KeepsOrder := fun past =>
  decidable_of_bool
    (match past with
      | .wrote call :: past => stalled past = true → call.taken = []
      | _ => true)
    (by unfold KeepsOrder; split <;> simp [imp_iff_not_or])

/-- The calls of one pass: none takes bytes after another has failed. -/
def InOrder (calls : List WriteCall) : Prop :=
  calls.Pairwise fun earlier later => earlier.failed = true → later.taken = []

variable {past : List Event}

/-- A pass accepts nothing. -/
theorem acceptedBytes_wrote (calls : List WriteCall) :
    acceptedBytes ((calls.map Event.wrote).reverse ++ past) = acceptedBytes past :=
  eq_of_wrote calls fun _ _ => rfl

/-- A pass hands over what its calls take. -/
theorem handedBytes_wrote (calls : List WriteCall) :
    handedBytes ((calls.map Event.wrote).reverse ++ past) =
      handedBytes past ++ calls.flatMap WriteCall.taken := by
  induction calls using List.reverseRecOn with
  | nil => simp
  | append_singleton calls call ih =>
      rw [wrote_append_singleton, handedBytes, ih, List.flatMap_append, List.flatMap_singleton,
        List.append_assoc]

/-- A pass has stalled if one of its calls has failed. -/
theorem stalled_wrote (calls : List WriteCall) :
    stalled ((calls.map Event.wrote).reverse ++ .pass :: past) = calls.any WriteCall.failed := by
  induction calls using List.reverseRecOn with
  | nil => rfl
  | append_singleton calls call ih =>
      rw [wrote_append_singleton, stalled, ih, List.any_append, Bool.or_comm]
      simp

/-- The condition on the history is a condition on the calls of each pass. -/
theorem inOrder_of_always {calls : List WriteCall}
    (h : Always KeepsOrder ((calls.map Event.wrote).reverse ++ .pass :: past)) : InOrder calls := by
  induction calls using List.reverseRecOn with
  | nil => exact .nil
  | append_singleton calls call ih =>
      rw [wrote_append_singleton, always_cons] at h
      refine List.pairwise_append.mpr ⟨ih h.2, List.pairwise_singleton .., ?_⟩
      intro earlier hearlier later hlater hfailed
      obtain rfl := List.mem_singleton.mp hlater
      apply h.1
      rw [stalled_wrote]
      exact List.any_eq_true.mpr ⟨earlier, hearlier, hfailed⟩

/-- The bytes handed over stay a prefix throughout a pass whose bytes, all in all, are. -/
theorem always_prefix_wrote {calls : List WriteCall}
    (h : Always (fun past => handedBytes past <+: acceptedBytes past) past)
    (hcalls : handedBytes past ++ calls.flatMap WriteCall.taken <+: acceptedBytes past) :
    Always (fun past => handedBytes past <+: acceptedBytes past)
      ((calls.map Event.wrote).reverse ++ past) := by
  induction calls using List.reverseRecOn with
  | nil => exact h
  | append_singleton calls call ih =>
      have hbefore : handedBytes past ++ calls.flatMap WriteCall.taken <+: acceptedBytes past := by
        refine List.IsPrefix.trans ?_ hcalls
        rw [List.flatMap_append, ← List.append_assoc]
        exact List.prefix_append ..
      have hnow := hcalls
      rw [← handedBytes_wrote, ← acceptedBytes_wrote (calls ++ [call]),
        wrote_append_singleton] at hnow
      rw [wrote_append_singleton, always_cons]
      exact ⟨hnow, ih hbefore⟩

/-! ## A pass over the queue -/

/-- The bytes of a queue that have still to be handed over. -/
def unwrittenBytes (queue : List WriteQueueBuffer) : List UInt8 :=
  queue.flatMap WriteQueueBuffer.unwritten

/-- A completed buffer has nothing left. -/
theorem unwritten_of_isFullyWritten {buf : WriteQueueBuffer} (h : buf.isFullyWritten = true) :
    buf.unwritten = [] :=
  List.drop_eq_nil_of_le (by simpa [WriteQueueBuffer.isFullyWritten] using h)

/-- A pass in order takes bytes from the front of the queue. -/
theorem unwrittenBytes_processQueue (io : WriteIo) (queue : List WriteQueueBuffer)
    (h : InOrder (processQueue io queue).calls) :
    (processQueue io queue).calls.flatMap WriteCall.taken ++
      unwrittenBytes (processQueue io queue).queue = unwrittenBytes queue := by
  -- along the queue: a buffer is not reached, complete already, or written now
  induction queue generalizing io with
  | nil => rfl
  | cons buf rest ih =>
      rcases processQueue_cons io buf rest with ⟨heq, -⟩ | ⟨p, rfl, hfull, heq⟩ |
        ⟨io', r, p, rfl, hr, -, -, heq⟩
      · rw [heq]
        rfl
      · rw [heq] at h ⊢
        have hrest := ih io h
        simp only [unwrittenBytes, List.flatMap_cons, unwritten_of_isFullyWritten hfull,
          List.nil_append] at hrest ⊢
        exact hrest
      · rw [heq] at h ⊢
        obtain ⟨-, hlater, hacross⟩ := List.pairwise_append.mp h
        have hrest := ih io' hlater
        simp only [unwrittenBytes, List.flatMap_append, List.flatMap_cons, hr.taken] at hrest ⊢
        rcases hr.stalled with hdone | ⟨before, call, hcalls, hfailed⟩
        · -- the buffer is complete, and the pass has taken all of it
          have hnone : r.buf.unwritten = [] := by
            rw [WriteQueueBuffer.unwritten, hr.data, if_pos hdone, List.drop_nil]
          rw [hdone, List.take_length, hnone, List.nil_append, List.append_assoc, hrest]
        · -- the buffer has stalled, and the rest of the pass takes nothing
          have hcall : call ∈ r.calls := hcalls ▸ List.mem_concat_self
          have hnothing : (processQueue io' rest).calls.flatMap WriteCall.taken = [] :=
            List.flatMap_eq_nil_iff.mpr fun later hmem => hacross call hcall later hmem hfailed
          have hunwritten : r.buf.unwritten = buf.unwritten.drop r.writtenTotal := by
            rw [WriteQueueBuffer.unwritten, hr.data, hr.amountWritten]
            split
            · rename_i hdone
              rw [hdone, List.drop_length, List.drop_nil]
            · rw [WriteQueueBuffer.unwritten, List.drop_drop]
          rw [hnothing, List.nil_append] at hrest
          rw [hnothing, List.append_nil, hunwritten, ← List.append_assoc, List.take_append_drop,
            hrest]

/-- The finished buffers that a scan passes have nothing left. -/
theorem unwrittenBytes_drop_scanQueue (t : Time) (queue : List WriteQueueBuffer) :
    unwrittenBytes (queue.drop (scanQueue t queue).notifyQueue.length) = unwrittenBytes queue := by
  have hfront : (queue.take (scanQueue t queue).notifyQueue.length).flatMap
      WriteQueueBuffer.unwritten = [] :=
    List.flatMap_eq_nil_iff.mpr fun buf hbuf =>
      unwritten_of_isFullyWritten (scanQueue_finished t queue buf hbuf).1
  unfold unwrittenBytes
  conv_rhs => rw [← List.take_append_drop (scanQueue t queue).notifyQueue.length queue]
  rw [List.flatMap_append, hfront, List.nil_append]

/-! ## The invariant -/

section

variable [Configuration] {t₀ t : Time} {cl cl' : Client} {φ φ' : Phase} {ch : SocketChange}

/-- The bytes handed over have always been a prefix of the bytes accepted. While the connection is
open, what is missing is in the queue. -/
structure Client.Ordered (cl : Client) : Prop where
  /-- What is handed over has been accepted before, in this order. -/
  always : Always (fun past => handedBytes past <+: acceptedBytes past) cl.history
  /-- What is missing is in the queue. -/
  rest : cl.isOpen = true →
    acceptedBytes cl.history = handedBytes cl.history ++ unwrittenBytes cl.writeQueue

namespace Client.Ordered

omit [Configuration] in
/-- An event that belongs to neither stream changes nothing. -/
theorem log {e : Event} (hcl : cl.Ordered) (haccepted : acceptedBytes (e :: cl.history) =
    acceptedBytes cl.history) (hhanded : handedBytes (e :: cl.history) = handedBytes cl.history) :
    (cl.log e).Ordered := by
  refine ⟨always_cons.mpr ⟨?_, hcl.always⟩, ?_⟩
  · rw [haccepted, hhanded]
    exact hcl.always.now
  · simp only [Client.log, haccepted, hhanded]
    exact hcl.rest

omit [Configuration] in
/-- A connection begins with nothing accepted and nothing handed over. -/
theorem attempt {ip : IPAddress} {port : UInt16} {success : Bool} (hcl : cl.Ordered)
    (hcoherent : cl.Coherent) (h : Attempt ip port cl ch cl' success) : cl'.Ordered := by
  cases h with
  | refused => exact ⟨always_cons.mpr ⟨hcl.always.now, hcl.always⟩, hcl.rest⟩
  | opened socket hclosed _ =>
      refine ⟨always_cons.mpr ⟨List.prefix_rfl, hcl.always⟩, fun _ => ?_⟩
      -- a client without a socket has an empty queue
      simp only [Client.opened, hcoherent.closed hclosed]
      rfl

/-- The streams of a connection that has ended stay as they are. -/
theorem close_ (hcl : cl.Ordered) : cl.close_.Ordered :=
  ⟨always_cons.mpr ⟨hcl.always.now, hcl.always⟩, nofun⟩

omit [Configuration] in
/-- A pass moves bytes from the queue to the socket. -/
theorem afterPass {io : WriteIo} (hcl : cl.Ordered) (hcoherent : cl.Coherent)
    (hqueue : cl.writeQueue ≠ [])
    (hkeeps : Always KeepsOrder (cl.afterPass (processQueue io cl.writeQueue)).history) :
    (cl.afterPass (processQueue io cl.writeQueue)).Ordered := by
  have hpass := unwrittenBytes_processQueue io cl.writeQueue (inOrder_of_always hkeeps)
  have hopen : cl.isOpen = true := by
    by_contra hclosed
    exact hqueue (hcoherent.closed (by simpa using hclosed))
  have hrest := hcl.rest hopen
  rw [← hpass, ← List.append_assoc] at hrest
  constructor
  · apply always_prefix_wrote (hcl.log rfl rfl : (cl.log .pass).Ordered).always
    exact ⟨_, hrest.symm⟩
  · intro _
    simp only [Client.afterPass, acceptedBytes_wrote, handedBytes_wrote]
    exact hrest

end Client.Ordered

/-- A step of user code that keeps the order hands over a prefix of what has been accepted. -/
theorem UserStep.ordered (h : UserStep t₀ t cl ch cl') (hcl : cl.Ordered) (hcoherent : cl.Coherent)
    (hkeeps : Always KeepsOrder cl'.history) : cl'.Ordered := by
  cases h with
  | stay | configure | touch => exact ⟨hcl.always, hcl.rest⟩
  | commit owned data _ _ _ =>
      refine ⟨always_cons.mpr ⟨hcl.always.now.trans (List.prefix_append ..), hcl.always⟩, ?_⟩
      intro hopen
      have hrest := hcl.rest hopen
      simp only [Client.commit, acceptedBytes, handedBytes, hrest, unwrittenBytes,
        List.flatMap_append, List.flatMap_singleton, List.append_assoc]
      rfl
  | pass io _ hqueue _ _ => exact hcl.afterPass hcoherent hqueue hkeeps
  | close _ => exact hcl.close_
  | connect u ip port _ hattempt =>
      have hlog : (cl.log (.call u)).Ordered := hcl.log rfl rfl
      exact (hlog.attempt hcoherent.log hattempt).log rfl rfl
  | rejected u _ => exact (hcl.log rfl rfl : (cl.log (.call u)).Ordered).log rfl rfl
  | wait host port =>
      have hlog : (cl.log (.call (.connectHost host port))).Ordered := hcl.log rfl rfl
      have hwaiting : ((cl.log (.call (.connectHost host port))).waiting host port).Ordered :=
        ⟨(hlog.log rfl rfl : Client.Ordered (Client.log _ (.query _))).always, hlog.rest⟩
      exact hwaiting.log rfl rfl
  | _ => exact ⟨always_cons.mpr ⟨hcl.always.now, hcl.always⟩, hcl.rest⟩

/-- So does a step of a handler. -/
theorem HandlerStep.ordered (h : HandlerStep t₀ t cl φ ch cl' φ') (hcl : cl.Ordered)
    (hcoherent : cl.Coherent) (hkeeps : Always KeepsOrder cl'.history) : cl'.Ordered := by
  cases h with
  | ready | announced | nothingToWrite | touched | notPolled | poll | rxRenewed | nothingToRead |
    nothingDone => exact ⟨hcl.always, hcl.rest⟩
  | pass activity io _ hqueue _ _ => exact hcl.afterPass hcoherent hqueue hkeeps
  | writeFailed next e _ =>
      have hscan : cl.afterFailedScan.Ordered :=
        ⟨(hcl.log rfl rfl : (cl.log cl.firstError).Ordered).always, hcl.rest⟩
      exact hscan.log rfl rfl
  | cleaned next _ =>
      refine ⟨always_cons.mpr ⟨hcl.always.now, hcl.always⟩, fun hopen => ?_⟩
      simp only [Client.afterScan, Client.scan, unwrittenBytes_drop_scanQueue]
      exact hcl.rest hopen
  | failed | rxExpired | peerClosed => exact hcl.close_
  | resolved _ hattempt => exact hcl.attempt hcoherent hattempt
  | _ => exact ⟨always_cons.mpr ⟨hcl.always.now, hcl.always⟩, hcl.rest⟩

/-- Every client that a run in order comes to has handed over a prefix. -/
theorem ClientRun.ordered (h : ClientRun t cl φ) (hkeeps : Always KeepsOrder cl.history) :
    cl.Ordered := by
  have hnil : Always (fun past => handedBytes past <+: acceptedBytes past) [] :=
    always_nil.mpr List.prefix_rfl
  refine ClientRun.holds (I := fun cl _ => cl.Ordered) (fun t => ⟨hnil, fun _ => rfl⟩)
    (fun t₀ t socket _ => ?_) (fun hrun hcl hkeeps hstep => ?_) h hkeeps
  · unfold Client.adopted
    split <;> exact ⟨hnil, fun _ => rfl⟩
  · cases hstep with
    | user _ hstep => exact hstep.ordered hcl hrun.coherent hkeeps
    | handler hstep => exact hstep.ordered hcl hrun.coherent hkeeps

/-- In every run, the bytes handed to the socket of a connection are at every moment a prefix of the
bytes accepted on it, provided that no call of `lwip_write` takes bytes after another one of the
same pass has failed. -/
theorem handedBytes_prefix_acceptedBytes {s : System} (hs : Reachable s) {c : ClientId}
    (hcl : s.state.clients c = some cl) (hkeeps : Always KeepsOrder cl.history) :
    Always (fun past => handedBytes past <+: acceptedBytes past) cl.history := by
  obtain ⟨φ, hrun⟩ := hs.clientRun hcl
  exact (hrun.ordered hkeeps).always

end

section

attribute [local instance] Configuration.esp32

/-- A client with buffers `[1, 2]` and `[3]` in its queue makes a pass in which `lwip_write` has the
outcomes `writes`. -/
def onePass (writes : List WriteOutcome) : List Label :=
  [.ext (.newClientFrom 48), .ext (.call 0 (.add (some [1, 2]) (.of .copy))),
    .ext (.call 0 (.add (some [3]) (.of .copy))), .ext (.outcomes { writes }),
    .start (.handle .writeable 0)]

/-- The socket takes one byte and is full. -/
theorem handedBytes_prefix_acceptedBytes_full :
    ∃ s cl, Reachable s ∧ s.state.clients 0 = some cl ∧ handedBytes cl.history = [1] ∧
      Always (fun past => handedBytes past <+: acceptedBytes past) cl.history := by
  obtain ⟨s, cl, hs, hcl, hhanded, hkeeps⟩ := exists_reachable_client
    (P := fun cl => handedBytes cl.history = [1] ∧ Always KeepsOrder cl.history)
    (onePass [.wrote 1, .failed EAGAIN]) 0 (by decide +kernel)
  exact ⟨s, cl, hs, hcl, hhanded, handedBytes_prefix_acceptedBytes hs hcl hkeeps⟩

/-- The socket is full when the first buffer is offered and has room for the second. -/
theorem not_handedBytes_prefix_acceptedBytes :
    ∃ s cl, Reachable s ∧ s.state.clients 0 = some cl ∧
      ¬ Always (fun past => handedBytes past <+: acceptedBytes past) cl.history :=
  exists_reachable_client (onePass [.failed EAGAIN, .wrote 1]) 0 (by decide +kernel)

end

end AsyncTcpSock
