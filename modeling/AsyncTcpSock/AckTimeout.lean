import AsyncTcpSock.ClientInvariants
import AsyncTcpSock.Durations
import AsyncTcpSock.Refinement
import AsyncTcpSock.Runs
import AsyncTcpSock.WriteQueue

/-!
# The ack timeout

`_checkAckTimeout` reports that nothing of the first buffer has been written for too long. It looks
at `writtenAt`, which the write loop sets when it completes a buffer, so that a buffer looks as if
nothing of it had been written when a call has failed half way through it. (So does one that has
been completed at time 0, which stands for a `writtenAt` that has not been set.)

- `Client.Tallied`: the bytes of a buffer that have been handed over are the ones it counts.
- `Client.CutShort`: a buffer that is written in part has been interrupted by a call that failed.
- `Client.Armed`: between two timeouts a buffer is accepted or a connection established.
- `ack_timeout_unmoved_iff`: when a timeout is reported for a buffer that has not moved.
-/

namespace AsyncTcpSock

open Reentrant

/-! ## The property -/

/-- The bytes of buffer `seq` that have been handed to the socket. -/
def handedFor (seq : ℕ) : List Event → List UInt8
  | [] => []
  | .wrote call :: past => handedFor seq past ++ if call.seq = seq then call.taken else []
  | _ :: past => handedFor seq past

/-- At time `now`, the first buffer of the queue has been there for the ack timeout, and nothing of
it has been handed over. -/
def Client.Overdue (cl : Client) (now : Time) : Prop :=
  ∃ first rest ackTimeout, cl.writeQueue = first :: rest ∧ cl.ackTimeout = some ackTimeout ∧
    first.queuedAt + ackTimeout ≤ now ∧ handedFor first.seq cl.history = []

/-- `TIMEOUT` has been delivered, and since then nothing has been accepted and no connection
established. -/
def signaled : List Event → Bool
  | [] => false
  | .callback (.timeout _) :: _ => true
  | .callback .connect :: _ => false
  | .accepted _ (_ :: _) :: _ => false
  | _ :: past => signaled past

/-- The last event is not a second timeout. -/
def Rearmed : List Event → Prop
  | .callback (.timeout _) :: past => signaled past = false
  | _ => True

/-- A call of `lwip_write` for buffer `seq` has failed after others had taken a part of it. -/
def interrupted (seq : ℕ) : List Event → Bool
  | [] => false
  | .wrote call :: past =>
      (decide (call.seq = seq) && call.failed && handedFor seq past ≠ []) || interrupted seq past
  | _ :: past => interrupted seq past

/-- No call for the first buffer has failed after others had taken a part of it, and the buffer was
not queued and completed at time 0. -/
def Client.FrontUninterrupted (cl : Client) : Prop :=
  ∀ first ∈ cl.writeQueue.head?, interrupted first.seq cl.history = false ∧
    (0 < first.queuedAt ∨ first.isFullyWritten = false)

instance : DecidablePred Client.FrontUninterrupted := fun cl =>
  inferInstanceAs (Decidable (∀ first ∈ cl.writeQueue.head?,
    interrupted first.seq cl.history = false ∧
      (0 < first.queuedAt ∨ first.isFullyWritten = false)))

/-! ## Buffers and their calls -/

section

variable {past : List Event}

/-- A pass hands over what its calls for the buffer take. -/
theorem handedFor_wrote (seq : ℕ) (calls : List WriteCall) :
    handedFor seq ((calls.map Event.wrote).reverse ++ past) =
      handedFor seq past ++ takenFor seq calls := by
  induction calls using List.reverseRecOn with
  | nil => simp [takenFor]
  | append_singleton calls call ih =>
      rw [wrote_append_singleton, handedFor, ih, takenFor_append, takenFor_singleton,
        List.append_assoc]

/-- What has been interrupted stays so. -/
theorem interrupted_append {seq : ℕ} (es : List Event) (h : interrupted seq past = true) :
    interrupted seq (es ++ past) = true := by
  induction es with
  | nil => exact h
  | cons e es ih =>
      cases e with
      | wrote call => exact Bool.or_eq_true_iff.mpr (.inr ih)
      | _ => exact ih

/-- A buffer of which nothing has been handed over has not been interrupted. -/
theorem interrupted_of_handedFor {seq : ℕ} (h : handedFor seq past = []) :
    interrupted seq past = false := by
  induction past with
  | nil => rfl
  | cons e past ih =>
      cases e with
      | wrote call =>
          have hpast : handedFor seq past = [] := (List.append_eq_nil_iff.mp h).1
          simp [interrupted, hpast, ih hpast]
      | _ => exact ih h

/-- A call that fails interrupts a buffer of which bytes have been handed over, if no later call of
the pass takes any. -/
theorem interrupted_wrote {seq : ℕ} {before after : List WriteCall} {call : WriteCall}
    (hseq : call.seq = seq) (hfailed : call.failed = true) (hafter : takenFor seq after = [])
    (hhanded : handedFor seq
      (((before ++ call :: after).map Event.wrote).reverse ++ past) ≠ []) :
    interrupted seq (((before ++ call :: after).map Event.wrote).reverse ++ past) = true := by
  have htaken : call.taken = [] := by
    unfold WriteCall.failed at hfailed
    unfold WriteCall.taken
    split at hfailed
    · rename_i heq
      rw [heq]
    · cases hfailed
  -- the call that fails takes nothing and later ones neither, so the bytes went out before it
  have hbefore : handedFor seq ((before.map Event.wrote).reverse ++ past) ≠ [] := by
    rw [← List.singleton_append, handedFor_wrote, takenFor_append, takenFor_append, hafter,
      takenFor_singleton, if_pos hseq, htaken, List.append_nil, List.append_nil,
      ← handedFor_wrote] at hhanded
    exact hhanded
  have hsplit : ((before ++ call :: after).map Event.wrote).reverse ++ past =
      (after.map Event.wrote).reverse ++
        (.wrote call :: ((before.map Event.wrote).reverse ++ past)) := by
    simp
  rw [hsplit]
  refine interrupted_append _ (Bool.or_eq_true_iff.mpr (.inl ?_))
  simp [hseq, hfailed, hbefore]

/-- The buffers of a queue are numbered in order, and each one counts the bytes that the calls for
it have taken. The numbers from `nextSeq` on have not been used. -/
structure Client.Tallied (cl : Client) : Prop where
  /-- No number is used twice. -/
  seqs : cl.writeQueue.Pairwise fun b₁ b₂ => b₁.seq ≠ b₂.seq
  /-- The numbers have been used. -/
  bound : ∀ buf ∈ cl.writeQueue, buf.seq < cl.nextSeq
  /-- Nothing has been handed over for a number to come. -/
  unused : ∀ seq, cl.nextSeq ≤ seq → handedFor seq cl.history = []
  /-- A buffer counts what has been handed over for it. -/
  counted : ∀ buf ∈ cl.writeQueue, (handedFor buf.seq cl.history).length = buf.amountWritten

variable {cl cl' : Client}

namespace Client.Tallied

/-- A step that hands over nothing, and keeps some of the buffers. -/
theorem of_sublist (hcl : cl.Tallied) (hqueue : cl'.writeQueue.Sublist cl.writeQueue)
    (hnext : cl'.nextSeq = cl.nextSeq)
    (hhanded : ∀ seq, handedFor seq cl'.history = handedFor seq cl.history) : cl'.Tallied where
  seqs := hcl.seqs.sublist hqueue
  bound buf hbuf := hnext ▸ hcl.bound buf (hqueue.subset hbuf)
  unused seq hseq := by rw [hhanded, hcl.unused seq (hnext ▸ hseq)]
  counted buf hbuf := by rw [hhanded, hcl.counted buf (hqueue.subset hbuf)]

/-- An event that is not a call. -/
theorem log (hcl : cl.Tallied) {e : Event}
    (he : ∀ seq past, handedFor seq (e :: past) = handedFor seq past) : (cl.log e).Tallied :=
  hcl.of_sublist (List.Sublist.refl _) rfl fun _ => he _ _

/-- A client without buffers. -/
theorem of_nil (hcl : cl.Tallied) (hqueue : cl'.writeQueue = []) (hnext : cl'.nextSeq = cl.nextSeq)
    (hhanded : ∀ seq, handedFor seq cl'.history = handedFor seq cl.history) : cl'.Tallied :=
  hcl.of_sublist (hqueue ▸ List.nil_sublist _) hnext hhanded

/-- An attempt hands over nothing. -/
theorem attempt {ip : IPAddress} {port : UInt16} {ch : SocketChange} {success : Bool}
    (hcl : cl.Tallied) (h : Attempt ip port cl ch cl' success) : cl'.Tallied := by
  cases h with
  | refused => exact hcl.log fun _ _ => rfl
  | opened socket _ _ => exact hcl.of_sublist (List.Sublist.refl _) rfl fun _ => rfl

/-- `add` queues a buffer under a new number. -/
theorem commit (hcl : cl.Tallied) (owned : Bool) (t : Time) (data : List UInt8) :
    (cl.commit owned t data).Tallied where
  seqs := by
    refine List.pairwise_append.mpr ⟨hcl.seqs, List.pairwise_singleton .., ?_⟩
    intro buf hbuf new hnew
    obtain rfl := List.mem_singleton.mp hnew
    exact Nat.ne_of_lt (hcl.bound buf hbuf)
  bound buf hbuf := by
    rcases List.mem_append.mp hbuf with hold | hnew
    · exact Nat.lt_succ_of_lt (hcl.bound buf hold)
    · obtain rfl := List.mem_singleton.mp hnew
      exact Nat.lt_succ_self _
  unused seq hseq := hcl.unused seq (Nat.le_of_succ_le hseq)
  counted buf hbuf := by
    rcases List.mem_append.mp hbuf with hold | hnew
    · exact hcl.counted buf hold
    · obtain rfl := List.mem_singleton.mp hnew
      exact congrArg List.length (hcl.unused cl.nextSeq le_rfl)

/-- A pass over the queue. -/
theorem afterPass (hcl : cl.Tallied) (io : WriteIo) :
    (cl.afterPass (processQueue io cl.writeQueue)).Tallied where
  seqs := by
    have hseqs := hcl.seqs
    rw [← List.pairwise_map (f := WriteQueueBuffer.seq)] at hseqs ⊢
    rwa [Client.afterPass, map_processQueue fun now outs _ hlt =>
      (WriteQueueBuffer.write_spec now outs hlt).seq]
  bound buf' hbuf' := by
    obtain ⟨buf, hbuf, hseq, -⟩ := exists_advanced io hcl.seqs hbuf'
    rw [hseq]
    exact hcl.bound buf hbuf
  unused seq hseq := by
    -- the calls of a pass are for buffers in the queue, whose numbers have been used
    have hnone : takenFor seq (processQueue io cl.writeQueue).calls = [] := by
      refine takenFor_of_ne fun call hcall heq => ?_
      obtain ⟨buf, hbuf, hcall_seq⟩ := processQueue_calls io cl.writeQueue call hcall
      have hlt := hcl.bound buf hbuf
      rw [← hcall_seq, heq] at hlt
      exact absurd hlt (Nat.not_lt.mpr hseq)
    have hunused := hcl.unused seq hseq
    simp only [Client.afterPass, handedFor_wrote, hnone, List.append_nil]
    exact hunused
  counted buf' hbuf' := by
    obtain ⟨buf, hbuf, hseq, n, hn, htaken, hamount, -⟩ := exists_advanced io hcl.seqs hbuf'
    have hcounted := hcl.counted buf hbuf
    have hlength : (takenFor buf.seq (processQueue io cl.writeQueue).calls).length = n := by
      rw [htaken, List.length_take, Nat.min_eq_left hn]
    simp only [Client.afterPass, handedFor_wrote, hseq, List.length_append, hlength, hamount]
    exact congrArg (· + n) hcounted

end Client.Tallied

end

section

variable [Configuration] {t₀ t : Time} {cl cl' : Client} {φ φ' : Phase} {ch : SocketChange}

/-- A step of user code keeps the tally. -/
theorem UserStep.tallied (h : UserStep t₀ t cl ch cl') (hcl : cl.Tallied) : cl'.Tallied := by
  cases h with
  | stay | configure | touch => exact hcl.of_sublist (List.Sublist.refl _) rfl fun _ => rfl
  | call u _ => exact hcl.log fun _ _ => rfl
  | commit owned data _ _ _ => exact hcl.commit owned t data
  | pass io _ _ _ _ => exact hcl.afterPass io
  | close _ => exact hcl.of_nil rfl rfl fun _ => rfl
  | connect u ip port _ hattempt =>
      have hcall : (cl.log (.call u)).Tallied := hcl.log fun _ _ => rfl
      exact (hcall.attempt hattempt).log fun _ _ => rfl
  | rejected u _ =>
      have hcall : (cl.log (.call u)).Tallied := hcl.log fun _ _ => rfl
      exact hcall.log fun _ _ => rfl
  | wait | answer => exact hcl.of_sublist (List.Sublist.refl _) rfl fun _ => rfl

/-- A step of a handler keeps the tally. -/
theorem HandlerStep.tallied (h : HandlerStep t₀ t cl φ ch cl' φ') (hcl : cl.Tallied) :
    cl'.Tallied := by
  cases h with
  | pass activity io _ _ _ _ => exact hcl.afterPass io
  | cleaned next _ => exact hcl.of_sublist (List.drop_sublist ..) rfl fun _ => rfl
  | failed | rxExpired | peerClosed => exact hcl.of_nil rfl rfl fun _ => rfl
  | resolved _ hattempt => exact hcl.attempt hattempt
  | _ => exact hcl.of_sublist (List.Sublist.refl _) rfl fun _ => rfl

/-- Every client that a run comes to keeps the tally. -/
theorem ClientRun.tallied (h : ClientRun t cl φ) : cl.Tallied := by
  have hempty (cl : Client) (hqueue : cl.writeQueue = []) (hhistory : cl.history = []) :
      cl.Tallied :=
    ⟨hqueue ▸ .nil, by simp [hqueue], fun _ _ => by rw [hhistory, handedFor], by simp [hqueue]⟩
  induction h with
  | new t => exact hempty _ rfl rfl
  | adopted t₀ t socket _ _ =>
      unfold Client.adopted
      split <;> exact hempty _ rfl rfl
  | wait _ _ ih => exact ih
  | step _ _ hstep ih =>
      cases hstep with
      | user _ hstep => exact hstep.tallied ih
      | handler hstep => exact hstep.tallied ih

/-! ## Interrupted buffers -/

/-- A buffer of the queue that is written in part has been interrupted; a completed one has been
written. -/
structure Client.CutShort (cl : Client) : Prop where
  /-- A call for a buffer that is written in part has failed. -/
  part : ∀ buf ∈ cl.writeQueue, buf.isFullyWritten = false → 0 < buf.amountWritten →
    interrupted buf.seq cl.history = true
  /-- A completed buffer is not empty. -/
  full : ∀ buf ∈ cl.writeQueue, buf.isFullyWritten = true → 0 < buf.amountWritten

namespace Client.CutShort

omit [Configuration] in
/-- A step that keeps some of the buffers. -/
theorem of_sublist (hcl : cl.CutShort) (hqueue : cl'.writeQueue.Sublist cl.writeQueue)
    (hhistory : cl.history <:+ cl'.history) : cl'.CutShort where
  part buf hbuf hincomplete hpart := by
    obtain ⟨es, hes⟩ := hhistory
    rw [← hes]
    exact interrupted_append es (hcl.part buf (hqueue.subset hbuf) hincomplete hpart)
  full buf hbuf := hcl.full buf (hqueue.subset hbuf)

omit [Configuration] in
/-- `add` queues a buffer of which nothing has been written. -/
theorem commit (hcl : cl.CutShort) (owned : Bool) (queuedAt : Time) {data : List UInt8}
    (hdata : data ≠ []) : (cl.commit owned queuedAt data).CutShort where
  part buf hbuf hincomplete hpart := by
    rcases List.mem_append.mp hbuf with hold | hnew
    · exact hcl.part buf hold hincomplete hpart
    · obtain rfl := List.mem_singleton.mp hnew
      exact absurd hpart (Nat.lt_irrefl 0)
  full buf hbuf hfull := by
    rcases List.mem_append.mp hbuf with hold | hnew
    · exact hcl.full buf hold hfull
    · obtain rfl := List.mem_singleton.mp hnew
      exact absurd (List.length_eq_zero_iff.mp (Nat.le_zero.mp (of_decide_eq_true hfull))) hdata

omit [Configuration] in
/-- A pass interrupts the buffers that it leaves written in part. -/
theorem afterPass (hcl : cl.CutShort) (htallied : cl.Tallied) (io : WriteIo) :
    (cl.afterPass (processQueue io cl.writeQueue)).CutShort where
  part buf' hbuf' hincomplete hpart := by
    rcases exists_failed_call io htallied.seqs hbuf' hincomplete with
      hbuf | ⟨before, call, after, hcalls, hseq, hfailed, hafter⟩
    · exact interrupted_append _ (interrupted_append [.pass] (hcl.part buf' hbuf hincomplete hpart))
    · -- the buffer counts the bytes that have been handed over up to the call that failed
      have hcounted := (htallied.afterPass io).counted buf' hbuf'
      simp only [Client.afterPass, hcalls] at hcounted ⊢
      refine interrupted_wrote hseq hfailed hafter fun hnone => ?_
      rw [hnone] at hcounted
      exact absurd hcounted (Nat.ne_of_lt hpart)
  full buf' hbuf' hfull := by
    obtain ⟨buf, hbuf, -, n, -, -, hamount, hdata⟩ := exists_advanced io htallied.seqs hbuf'
    rcases Nat.eq_zero_or_pos n with rfl | hn
    · -- the pass has written nothing, so that the buffer has been complete before
      have hsame : buf'.data = buf.data := by simpa using hdata
      rw [hamount, Nat.add_zero]
      refine hcl.full buf hbuf ?_
      rwa [WriteQueueBuffer.isFullyWritten, hsame, hamount, Nat.add_zero] at hfull
    · rw [hamount]
      exact Nat.add_pos_right _ hn

end Client.CutShort

/-- A step of user code leaves a buffer written in part only by a call that fails. -/
theorem UserStep.cutShort (h : UserStep t₀ t cl ch cl') (htallied : cl.Tallied)
    (hcl : cl.CutShort) : cl'.CutShort := by
  have hhistory := h.history
  cases h with
  | commit owned data _ hdata _ => exact hcl.commit owned t hdata
  | pass io _ _ _ _ => exact hcl.afterPass htallied io
  | close _ => exact hcl.of_sublist (List.nil_sublist _) hhistory
  | connect u ip port _ hattempt =>
      cases hattempt <;> exact hcl.of_sublist (List.Sublist.refl _) hhistory
  | _ => exact hcl.of_sublist (List.Sublist.refl _) hhistory

/-- So does a step of a handler. -/
theorem HandlerStep.cutShort (h : HandlerStep t₀ t cl φ ch cl' φ') (htallied : cl.Tallied)
    (hcl : cl.CutShort) : cl'.CutShort := by
  have hhistory := h.history
  cases h with
  | pass activity io _ _ _ _ => exact hcl.afterPass htallied io
  | cleaned next _ => exact hcl.of_sublist (List.drop_sublist ..) hhistory
  | failed | rxExpired | peerClosed => exact hcl.of_sublist (List.nil_sublist _) hhistory
  | resolved _ hattempt =>
      cases hattempt <;> exact hcl.of_sublist (List.Sublist.refl _) hhistory
  | _ => exact hcl.of_sublist (List.Sublist.refl _) hhistory

/-- In every client that a run comes to, a buffer written in part has been interrupted. -/
theorem ClientRun.cutShort (h : ClientRun t cl φ) : cl.CutShort := by
  have hempty (cl : Client) (hqueue : cl.writeQueue = []) : cl.CutShort :=
    ⟨by simp [hqueue], by simp [hqueue]⟩
  induction h with
  | new t => exact hempty _ rfl
  | adopted t₀ t socket _ _ =>
      unfold Client.adopted
      split <;> exact hempty _ rfl
  | wait _ _ ih => exact ih
  | step hrun _ hstep ih =>
      cases hstep with
      | user _ hstep => exact hstep.cutShort hrun.tallied ih
      | handler hstep => exact hstep.cutShort hrun.tallied ih

/-! ## Timeouts -/

/-- `_ack_timeout_signaled` is set from a timeout until a buffer is accepted or a connection
established, so that there is no second timeout before. -/
structure Client.Armed (cl : Client) : Prop where
  /-- The flag is set after a timeout. -/
  flag : signaled cl.history = true → cl.ackTimeoutSignaled = true
  /-- There has been no second timeout too early. -/
  always : Always Rearmed cl.history

namespace Client.Armed

omit [Configuration] in
/-- An event that neither is a timeout nor allows for one. -/
theorem log (hcl : cl.Armed) {e : Event} (he : ∀ past, signaled (e :: past) = signaled past)
    (hrearmed : ∀ past, Rearmed (e :: past)) : (cl.log e).Armed :=
  ⟨fun h => hcl.flag ((he _).symm.trans h), always_cons.mpr ⟨hrearmed _, hcl.always⟩⟩

omit [Configuration] in
/-- An attempt neither is a timeout nor allows for one. -/
theorem attempt {ip : IPAddress} {port : UInt16} {success : Bool} (hcl : cl.Armed)
    (h : Attempt ip port cl ch cl' success) : cl'.Armed := by
  cases h with
  | refused => exact hcl.log (fun _ => rfl) fun _ => trivial
  | opened => exact ⟨hcl.flag, always_cons.mpr ⟨trivial, hcl.always⟩⟩

omit [Configuration] in
/-- A buffer that is accepted is not empty. -/
theorem commit (hcl : cl.Armed) (owned : Bool) (queuedAt : Time) {data : List UInt8}
    (hdata : data ≠ []) : (cl.commit owned queuedAt data).Armed := by
  obtain ⟨b, bs, rfl⟩ := List.exists_cons_of_ne_nil hdata
  exact ⟨nofun, always_cons.mpr ⟨trivial, hcl.always⟩⟩

omit [Configuration] in
/-- Nor is a pass over the queue. -/
theorem afterPass (hcl : cl.Armed) (p : PassResult) : (cl.afterPass p).Armed := by
  have hsignaled : signaled (cl.afterPass p).history = signaled cl.history :=
    eq_of_wrote p.calls fun _ _ => rfl
  refine ⟨fun h => hcl.flag (hsignaled.symm.trans h), ?_⟩
  exact always_wrote p.calls (fun _ _ _ => trivial) (always_cons.mpr ⟨trivial, hcl.always⟩)

end Client.Armed

/-- A step of user code that allows for a timeout clears the flag. -/
theorem UserStep.armed (h : UserStep t₀ t cl ch cl') (hcl : cl.Armed) : cl'.Armed := by
  cases h with
  | stay | configure | touch => exact ⟨hcl.flag, hcl.always⟩
  | commit owned data _ hdata _ => exact hcl.commit owned t hdata
  | pass io _ _ _ _ => exact hcl.afterPass _
  | connect u ip port _ hattempt =>
      have hcall : (cl.log (.call u)).Armed := hcl.log (fun _ => rfl) fun _ => trivial
      exact (hcall.attempt hattempt).log (fun _ => rfl) fun _ => trivial
  | rejected u _ =>
      have hcall : (cl.log (.call u)).Armed := hcl.log (fun _ => rfl) fun _ => trivial
      exact hcall.log (fun _ => rfl) fun _ => trivial
  | wait host port =>
      refine ⟨hcl.flag, ?_⟩
      simpa [Client.log, Client.waiting, Rearmed] using hcl.always
  | call | close | answer => exact ⟨hcl.flag, always_cons.mpr ⟨trivial, hcl.always⟩⟩

/-- A step of a handler that reports a timeout sets the flag, which has been clear. -/
theorem HandlerStep.armed (h : HandlerStep t₀ t cl φ ch cl' φ') (hcl : cl.Armed) : cl'.Armed := by
  cases h with
  | ready | announced | nothingToWrite | touched | notPolled | poll | rxRenewed | nothingToRead |
    nothingDone => exact ⟨hcl.flag, hcl.always⟩
  | established _ _ => exact ⟨nofun, always_cons.mpr ⟨trivial, hcl.always⟩⟩
  | pass activity io _ _ _ _ => exact hcl.afterPass _
  | resolved _ hattempt => exact hcl.attempt hattempt
  | writeFailed next e _ =>
      refine ⟨hcl.flag, ?_⟩
      simpa [Client.log, Client.afterFailedScan, Client.firstError, Rearmed] using hcl.always
  | ackTimeout ackTimeout first rest _ _ hflag _ _ _ =>
      -- the flag has been clear, so that nothing has been signaled since it was cleared
      have hnot : signaled cl.history = false :=
        eq_false_of_ne_true fun h => Bool.false_ne_true (hflag.symm.trans (hcl.flag h))
      exact ⟨fun _ => rfl, always_cons.mpr ⟨hnot, hcl.always⟩⟩
  | _ => exact ⟨hcl.flag, always_cons.mpr ⟨trivial, hcl.always⟩⟩

/-- No client that a run comes to has had a second timeout too early. -/
theorem ClientRun.armed (h : ClientRun t cl φ) : cl.Armed := by
  induction h with
  | new t => exact ⟨nofun, always_nil.mpr trivial⟩
  | adopted t₀ t socket _ _ =>
      unfold Client.adopted
      split <;> exact ⟨nofun, always_nil.mpr trivial⟩
  | wait _ _ ih => exact ih
  | step _ _ hstep ih =>
      cases hstep with
      | user _ hstep => exact hstep.armed ih
      | handler hstep => exact hstep.armed ih

/-- Nothing of a buffer that looks unwritten to `_checkAckTimeout` has been handed over if and only
if it has not been interrupted and not been completed at time 0. -/
theorem ClientRun.handedFor_eq_nil_iff {buf : WriteQueueBuffer} (h : ClientRun t cl φ)
    (hbuf : buf ∈ cl.writeQueue) (hunset : buf.writtenAt = 0) :
    handedFor buf.seq cl.history = [] ↔ interrupted buf.seq cl.history = false ∧
      (0 < buf.queuedAt ∨ buf.isFullyWritten = false) := by
  -- a buffer counts the bytes that were handed over for it
  have hcounted : handedFor buf.seq cl.history = [] ↔ buf.amountWritten = 0 := by
    rw [← h.tallied.counted buf hbuf, List.length_eq_zero_iff]
  constructor
  · intro hnone
    refine ⟨interrupted_of_handedFor hnone, .inr (eq_false_of_ne_true fun hfull => ?_)⟩
    exact absurd (hcounted.mp hnone) (Nat.ne_of_gt (h.cutShort.full buf hbuf hfull))
  · rintro ⟨hwhole, htime⟩
    have hincomplete : buf.isFullyWritten = false := by
      refine htime.elim (fun hqueued => eq_false_of_ne_true fun hfull => ?_) id
      -- a completed buffer has a time of completion, which is not before it was queued
      have hle := h.inTime.dated buf hbuf hfull
      rw [hunset] at hle
      exact absurd hqueued (Nat.not_lt.mpr hle)
    rw [hcounted]
    by_contra hpart
    have hinterrupted := h.cutShort.part buf hbuf hincomplete (Nat.pos_of_ne_zero hpart)
    rw [hwhole] at hinterrupted
    cases hinterrupted

/-- What is known when `TIMEOUT` is delivered. -/
def TimeoutAt (cb : Callback) (now : Time) (cl : Client) : Prop :=
  ∀ delay, cb = .timeout delay → (cl.Overdue now ↔ cl.FrontUninterrupted) ∧
    Always Rearmed cl.history

/-- `_checkAckTimeout` looks at the time for which the first buffer has been waiting and at its
`writtenAt`. -/
theorem establishes_timeout : Establishes TimeoutAt := by
  intro t₀ t cl cl' φ φ' cb hrun ht hrun' hdelivery delay hcb
  refine ⟨?_, hrun'.armed.always⟩
  cases hdelivery with
  | timeout ackTimeout first rest hstate hack hqueue hdue hunset =>
      have hfirst : first ∈ cl.writeQueue := hqueue ▸ List.mem_cons_self
      have hstamped : first.queuedAt ≤ t := (hrun.stamped.queue first hfirst).queuedAt.trans ht
      have hwaited : first.queuedAt + ackTimeout ≤ t :=
        Nat.add_comm .. ▸ Nat.add_le_of_le_sub hstamped hdue
      have hiff := hrun.handedFor_eq_nil_iff hfirst hunset
      simpa [Client.Overdue, Client.FrontUninterrupted, Client.log, hqueue, hack, handedFor,
        interrupted, hwaited] using hiff
  | _ => cases hcb

/-- In every run, when a poll delivers `TIMEOUT`, the first buffer of the queue has been there for
the ack timeout without a byte having been handed over if and only if no call of `lwip_write` for it
has failed after others had taken a part of it (and it was not queued and completed at time 0);
between two timeouts a buffer has been accepted or a connection established. -/
theorem ack_timeout_unmoved_iff {s s' : System} {l : machine.Label} {c : ClientId} {delay : ℕ}
    {last : Bool} (hs : Reachable s) (hstep : machine.step s l = some s') (hl : l.IsInternal)
    (htimeout : s'.control.place = some (.client c (.timeout delay) last)) :
    ∃ cl, s'.state.clients c = some cl ∧ (cl.Overdue s'.state.clock ↔ cl.FrontUninterrupted) ∧
      Always Rearmed cl.history := by
  obtain ⟨cl, hcl, h⟩ := exists_delivered establishes_timeout hs hstep hl htimeout
  exact ⟨cl, hcl, h delay rfl⟩

end

section

attribute [local instance] Configuration.esp32

/-- Nothing of a buffer is written for five seconds, in which one call fails. -/
theorem ack_timeout_unmoved_iff_stalled :
    ∃ s s' cl, Reachable s ∧ machine.step s (.start (.handle .poll 0)) = some s' ∧
      s'.state.clients 0 = some cl ∧ cl.Overdue s'.state.clock ∧ Always Rearmed cl.history := by
  obtain ⟨s, s', cl, hs, hstep, hplace, hcl, hwhole⟩ := exists_step_client
    (P := Client.FrontUninterrupted)
    [.ext (.newClientFrom 48),
      .ext (.outcomes {
        writes := [.failed EAGAIN], ticks := [milliseconds 1, 0, milliseconds 5000] }),
      .ext (.call 0 (.add (some [1, 2]) (.of .copy))), .start (.handle .writeable 0)]
    (.start (.handle .poll 0)) (.client 0 (.timeout 5000) true) 0 (by decide +kernel)
  obtain ⟨cl', hcl', hiff, hrearmed⟩ := ack_timeout_unmoved_iff hs hstep trivial hplace
  obtain rfl := Option.some.inj (hcl.symm.trans hcl')
  exact ⟨s, s', cl, hs, hstep, hcl, hiff.mpr hwhole, hrearmed⟩

/-- One of two bytes has been written when a poll reports, five seconds later, that nothing has. -/
theorem not_ack_timeout_unmoved :
    ∃ s s' cl, Reachable s ∧ machine.step s (.start (.handle .poll 0)) = some s' ∧
      s'.control.place = some (.client 0 (.timeout 5000) true) ∧ s'.state.clients 0 = some cl ∧
      ¬ cl.Overdue s'.state.clock := by
  obtain ⟨s, s', cl, hs, hstep, hplace, hcl, hmoved⟩ := exists_step_client
    (P := fun cl => ∀ first ∈ cl.writeQueue.head?, handedFor first.seq cl.history = [1])
    [.ext (.newClientFrom 48),
      .ext (.outcomes {
        writes := [.wrote 1, .failed EAGAIN], ticks := [milliseconds 1, 0, milliseconds 5000] }),
      .ext (.call 0 (.add (some [1, 2]) (.of .copy))), .start (.handle .writeable 0)]
    (.start (.handle .poll 0)) (.client 0 (.timeout 5000) true) 0 (by decide +kernel)
  refine ⟨s, s', cl, hs, hstep, hplace, hcl, ?_⟩
  rintro ⟨first, rest, ackTimeout, hqueue, -, -, hnone⟩
  have hone := hmoved first (by rw [hqueue]; rfl)
  rw [hnone] at hone
  cases hone

end

end AsyncTcpSock
