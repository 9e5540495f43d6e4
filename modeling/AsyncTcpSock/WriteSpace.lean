import AsyncTcpSock.Refinement
import AsyncTcpSock.Runs
import AsyncTcpSock.WriteQueue

/-!
# Write-space conservation

`_writeSpaceRemaining` and the unwritten bytes in the write queue of a client add up to
`INITIAL_WRITE_SPACE`, in every state of every run.
-/

namespace AsyncTcpSock

/-- The bytes in a queue that have still to be written: for every buffer that is not fully written,
`data.size() - amountWritten`. -/
def outstanding (queue : List WriteQueueBuffer) : ℕ :=
  ((queue.filter fun buf => !buf.isFullyWritten).map
    fun buf => buf.data.length - buf.amountWritten).sum

/-- An empty queue has nothing to write. -/
@[simp]
theorem outstanding_nil : outstanding [] = 0 := rfl

/-- A fully written buffer contributes nothing, as its difference is zero. -/
@[simp]
theorem outstanding_cons (buf : WriteQueueBuffer) (rest : List WriteQueueBuffer) :
    outstanding (buf :: rest) = (buf.data.length - buf.amountWritten) + outstanding rest := by
  cases h : buf.isFullyWritten with
  | true =>
      have hle : buf.data.length ≤ buf.amountWritten := by
        simpa [WriteQueueBuffer.isFullyWritten] using h
      simp [outstanding, h, Nat.sub_eq_zero_of_le hle]
  | false => simp [outstanding, h]

/-- The parts of a queue add up. -/
theorem outstanding_append (front back : List WriteQueueBuffer) :
    outstanding (front ++ back) = outstanding front + outstanding back := by
  simp [outstanding]

/-- A pass turns outstanding bytes into write space. -/
theorem outstanding_processQueue (io : WriteIo) (queue : List WriteQueueBuffer) :
    outstanding (processQueue io queue).queue + (processQueue io queue).written =
      outstanding queue := by
  induction queue generalizing io with
  | nil => rfl
  | cons buf rest ih =>
      rcases processQueue_cons io buf rest with ⟨heq, -⟩ | ⟨p, rfl, -, heq⟩ |
        ⟨io', r, p, rfl, hr, -, hlt, heq⟩
      · rw [heq]
        rfl
      · rw [heq]
        have hrest := ih io
        simp only [outstanding_cons]
        omega
      · rw [heq]
        have hrest := ih io'
        have hle := hr.total_le
        rw [WriteQueueBuffer.length_unwritten] at hle
        simp only [outstanding_cons, hr.data, hr.amountWritten, WriteQueueBuffer.length_unwritten]
        split
        · simp only [List.length_nil]
          omega
        · omega

/-- The finished buffers that a scan passes are not outstanding. -/
theorem outstanding_drop_scanQueue (t : Time) (queue : List WriteQueueBuffer) :
    outstanding (queue.drop (scanQueue t queue).notifyQueue.length) = outstanding queue := by
  have hzero (front : List WriteQueueBuffer) (h : ∀ buf ∈ front, buf.isFullyWritten = true) :
      outstanding front = 0 := by
    have hnone : front.filter (fun buf => !buf.isFullyWritten) = [] := by
      simpa [List.filter_eq_nil_iff] using h
    rw [outstanding, hnone]
    rfl
  have hfront := hzero _ fun buf hbuf => (scanQueue_finished t queue buf hbuf).1
  conv_rhs => rw [← List.take_append_drop (scanQueue t queue).notifyQueue.length queue]
  rw [outstanding_append, hfront, Nat.zero_add]

section

variable [Configuration] {t₀ t : Time} {cl cl' : Client} {φ φ' : Phase} {ch : SocketChange}

/-- The write space and the outstanding bytes add up to the initial write space. -/
def Client.Conserved (cl : Client) : Prop :=
  cl.writeSpaceRemaining + outstanding cl.writeQueue = initialWriteSpace

/-- To queue a buffer turns write space into outstanding bytes. -/
theorem Client.Conserved.commit (hcl : cl.Conserved) {data : List UInt8}
    (hdata : data.length ≤ cl.writeSpaceRemaining) (owned : Bool) (queuedAt : Time) :
    (cl.commit owned queuedAt data).Conserved := by
  simp only [Client.Conserved, Client.commit, outstanding_append, outstanding_cons,
    outstanding_nil, Nat.sub_zero] at hcl ⊢
  omega

/-- A pass gives the space back that it frees. -/
theorem Client.Conserved.afterPass (hcl : cl.Conserved) (io : WriteIo) :
    (cl.afterPass (processQueue io cl.writeQueue)).Conserved := by
  have hpass := outstanding_processQueue io cl.writeQueue
  simp only [Client.Conserved, Client.afterPass] at hcl ⊢
  omega

/-- The buffers that a scan removes have nothing left to write. -/
theorem Client.Conserved.afterScan (hcl : cl.Conserved) : cl.afterScan.Conserved := by
  simp only [Client.Conserved, Client.afterScan, Client.scan, outstanding_drop_scanQueue] at hcl ⊢
  exact hcl

/-- A step of user code conserves the write space. -/
theorem UserStep.conserved (h : UserStep t₀ t cl ch cl') (hcl : cl.Conserved) : cl'.Conserved := by
  cases h with
  | commit owned data hconnected _ hspace =>
      rw [Client.space, if_pos hconnected] at hspace
      exact hcl.commit hspace owned _
  | pass io _ _ _ _ => exact hcl.afterPass io
  | close _ => simp [Client.Conserved, Client.close_]
  | connect u ip port _ hattempt => cases hattempt <;> exact hcl
  | _ => exact hcl

/-- A step of a handler conserves the write space. -/
theorem HandlerStep.conserved (h : HandlerStep t₀ t cl φ ch cl' φ') (hcl : cl.Conserved) :
    cl'.Conserved := by
  cases h with
  | pass activity io _ _ _ _ => exact hcl.afterPass io
  | cleaned next _ => exact hcl.afterScan
  | failed next => simp [Client.Conserved, Client.close_]
  | rxExpired => simp [Client.Conserved, Client.close_]
  | peerClosed => simp [Client.Conserved, Client.close_]
  | resolved _ hattempt => cases hattempt <;> exact hcl
  | _ => exact hcl

/-- Every client that a run comes to has all of its write space. -/
theorem ClientRun.conserved (h : ClientRun t cl φ) : cl.Conserved := by
  induction h with
  | new t => simp [Client.Conserved, Client.new]
  | adopted t₀ t socket _ _ =>
      simp only [Client.Conserved, Client.adopted]
      split <;> simp [Client.new]
  | wait _ _ ih => exact ih
  | step _ _ hstep ih =>
      cases hstep with
      | user _ hstep => exact hstep.conserved ih
      | handler hstep => exact hstep.conserved ih

/-- In every state of every run, the write space of a client and its unwritten bytes add up to the
initial write space; so the counter never exceeds it, and is full exactly when no unwritten byte is
queued. -/
theorem writeSpace_conservation {s : System} (hs : Reachable s) {c : ClientId} {cl : Client}
    (hcl : s.state.clients c = some cl) :
    cl.writeSpaceRemaining + outstanding cl.writeQueue = initialWriteSpace ∧
      cl.writeSpaceRemaining ≤ initialWriteSpace ∧
      (cl.writeSpaceRemaining = initialWriteSpace ↔ outstanding cl.writeQueue = 0) := by
  obtain ⟨φ, hrun⟩ := hs.clientRun hcl
  have hconserved : cl.writeSpaceRemaining + outstanding cl.writeQueue = initialWriteSpace :=
    hrun.conserved
  omega

end

section

attribute [local instance] Configuration.esp32

/-- One of two queued bytes has been written. -/
theorem writeSpace_conservation_partial :
    ∃ s cl, Reachable s ∧ s.state.clients 0 = some cl ∧ outstanding cl.writeQueue = 1 ∧
      cl.writeSpaceRemaining + outstanding cl.writeQueue = 5744 := by
  obtain ⟨s, cl, hs, hcl, hqueue⟩ := exists_reachable_client
    (P := fun cl => outstanding cl.writeQueue = 1)
    [.ext (.newClientFrom 48), .ext (.call 0 (.add (some [1, 2]) (.of .copy))),
      .ext (.outcomes { writes := [.wrote 1] }), .start (.handle .writeable 0)] 0
    (by decide +kernel)
  exact ⟨s, cl, hs, hcl, hqueue, (writeSpace_conservation hs hcl).1⟩

end

end AsyncTcpSock
