import AsyncTcpSock.WriteQueue

/-!
# Invariants of a client

`ClientRun.holds` is the invariant rule for the abstract model of a client: what its construction
establishes and every step keeps holds of it at every moment. The steps may be assumed to meet a
condition on the history, and then the rule is about the runs whose history always meets it.

`Client.Coherent` says how the fields of a client hang together, and `Client.Stamped` that the times
it stores have passed.
-/

namespace AsyncTcpSock

open Reentrant

/-! ## Connect calls -/

/-- A call that may open a socket is a connect call. -/
theorem Call.MayOpen.isConnect {u : Call} {ip : IPAddress} {port : UInt16} (h : u.MayOpen ip port) :
    u.isConnect = true := by
  cases u <;> first | rfl | exact h.elim

/-- A connect call is one of the calls that control the connection. -/
theorem Call.isControl_of_isConnect {u : Call} (h : u.isConnect = true) : u.isControl = true := by
  cases u <;> first | rfl | cases h

/-! ## Phases -/

/-- The phases a client may be in when `DISCONNECT` has been delivered, until it is asked to connect
again. -/
def Phase.atRest : Phase → Bool
  | idle | running .poll | running .done => true
  | _ => false

/-- User code does not run when a handler has just been entered. -/
theorem Phase.ne_running {φ : Phase} (hφ : φ.yields = true) (h : Handler) : φ ≠ .running h := by
  rintro rfl
  cases hφ

/-- It may run at the end of a cleanup. -/
theorem Phase.yields_notify (next : Continuation) (stats : List WriteStats) :
    (Phase.notify next stats).yields = true := by
  cases stats with
  | nil => cases next <;> rfl
  | cons stats rest => rfl

variable [Configuration] {t₀ t : Time} {cl cl' : Client} {φ φ' : Phase} {ch : SocketChange}

/-! ## Histories only grow -/

omit [Configuration] in
/-- An attempt is one event. -/
theorem Attempt.history {ip : IPAddress} {port : UInt16} {success : Bool}
    (h : Attempt ip port cl ch cl' success) : ∃ e, cl'.history = e :: cl.history := by
  cases h with
  | refused => exact ⟨_, rfl⟩
  | opened => exact ⟨_, rfl⟩

/-- A step of user code adds to the history. -/
theorem UserStep.history (h : UserStep t₀ t cl ch cl') : cl.history <:+ cl'.history := by
  cases h with
  | stay | configure | touch => exact List.suffix_rfl
  | call | commit | close | answer => exact List.suffix_cons ..
  | pass io => exact (List.suffix_cons ..).trans (List.suffix_append ..)
  | connect u ip port _ hattempt =>
      obtain ⟨e, he⟩ := hattempt.history
      simp only [Client.log, he]
      exact ⟨[_, e, _], rfl⟩
  | rejected u _ => exact ⟨[_, _], rfl⟩
  | wait host port => exact ⟨[_, _, _], rfl⟩

/-- A step of a handler adds to the history. -/
theorem HandlerStep.history (h : HandlerStep t₀ t cl φ ch cl' φ') :
    cl.history <:+ cl'.history := by
  cases h with
  | ready | announced | nothingToWrite | touched | notPolled | poll | rxRenewed | nothingToRead |
    nothingDone => exact List.suffix_rfl
  | pass activity io => exact (List.suffix_cons ..).trans (List.suffix_append ..)
  | writeFailed next e _ => exact ⟨[_, _], rfl⟩
  | resolved _ hattempt =>
      obtain ⟨e, he⟩ := hattempt.history
      rw [he]
      exact List.suffix_cons ..
  | _ => exact List.suffix_cons ..

/-- A step of a client adds to its history. -/
theorem ClientStep.history (h : ClientStep t₀ t cl φ ch cl' φ') : cl.history <:+ cl'.history := by
  cases h with
  | user _ h => exact h.history
  | handler h => exact h.history

/-! ## Descriptors -/

/-- The socket of a client before and after a step that makes the change `ch`: a descriptor is
stored only where there was none. -/
def SocketChange.Relates : SocketChange → ℤ → ℤ → Prop
  | kept, s, s' => s' = s
  | opened fd, s, s' => s = -1 ∧ s' = fd
  | closed, _, s' => s' = -1

omit [Configuration] in
/-- A client that is closed has the socket -1. -/
theorem SocketChange.Relates.closed (s : ℤ) : SocketChange.closed.Relates s (-1) := rfl

omit [Configuration] in
/-- An attempt stores the descriptor that it opens. -/
theorem Attempt.relates {ip : IPAddress} {port : UInt16} {success : Bool}
    (h : Attempt ip port cl ch cl' success) : ch.Relates cl.socket cl'.socket := by
  cases h with
  | refused => rfl
  | opened socket hclosed _ => exact ⟨by simpa [Client.isOpen] using hclosed, rfl⟩

/-- The socket of a client changes as the step of user code says. -/
theorem UserStep.relates (h : UserStep t₀ t cl ch cl') : ch.Relates cl.socket cl'.socket := by
  cases h with
  | connect u ip port _ hattempt => exact hattempt.relates
  | _ => rfl

/-- The socket of a client changes as the step of a handler says. -/
theorem HandlerStep.relates (h : HandlerStep t₀ t cl φ ch cl' φ') :
    ch.Relates cl.socket cl'.socket := by
  cases h with
  | resolved _ hattempt => exact hattempt.relates
  | _ => rfl

/-! ## The invariant rule -/

/-- An invariant that construction establishes and every step keeps whose history meets `P`
throughout holds of every client whose history does. -/
theorem ClientRun.holds {P : List Event → Prop} {I : Client → Phase → Prop}
    (hnew : ∀ t, I (Client.new t) .idle)
    (hadopted : ∀ t₀ t socket, 0 ≤ socket → I (Client.adopted t₀ t socket) .idle)
    (hstep : ∀ {t₀ t cl φ ch cl' φ'}, ClientRun t₀ cl φ → I cl φ → Always P cl'.history →
      ClientStep t₀ t cl φ ch cl' φ' → I cl' φ')
    (h : ClientRun t cl φ) (hP : Always P cl.history) : I cl φ := by
  induction h with
  | new t => exact hnew t
  | adopted t₀ t socket _ hsocket => exact hadopted t₀ t socket hsocket
  | wait _ _ ih => exact ih hP
  | step hrun _ hclient ih => exact hstep hrun (ih (hP.before hclient.history)) hP hclient

/-! ## Coherence -/

omit [Configuration] in
/-- Descriptors are not negative. -/
theorem Client.isOpen_of_nonneg (h : 0 ≤ cl.socket) : cl.isOpen = true := by
  have hne : cl.socket ≠ -1 := by omega
  simpa [Client.isOpen] using hne

/-- A connection that is established or on its way has a socket, one that has just ended has none,
and a client without a socket has nothing to write. -/
structure Client.Coherent (cl : Client) : Prop where
  /-- A client that is connected has a socket. -/
  connected : cl.state = .connected → cl.isOpen = true
  /-- So has one that is connecting. -/
  connecting : cl.state = .connecting → cl.isOpen = true
  /-- One that is disconnecting has none any more. -/
  disconnecting : cl.state = .disconnecting → cl.isOpen = false
  /-- Without a socket there are no buffers. -/
  closed : cl.isOpen = false → cl.writeQueue = []

namespace Client.Coherent

/-- A client that has just been closed is coherent. -/
theorem close_ (cl : Client) : cl.close_.Coherent :=
  ⟨nofun, nofun, fun _ => rfl, fun _ => rfl⟩

omit [Configuration] in
/-- An event keeps a client coherent. -/
theorem log {e : Event} (hcl : cl.Coherent) : (cl.log e).Coherent :=
  ⟨hcl.connected, hcl.connecting, hcl.disconnecting, hcl.closed⟩

omit [Configuration] in
/-- An attempt keeps a client coherent. -/
theorem attempt {ip : IPAddress} {port : UInt16} {success : Bool} (hcl : cl.Coherent)
    (h : Attempt ip port cl ch cl' success) : cl'.Coherent := by
  cases h with
  | refused => exact ⟨hcl.connected, hcl.connecting, hcl.disconnecting, hcl.closed⟩
  | opened socket hclosed hsocket =>
      have hopen : (cl.opened socket ip port).isOpen = true := Client.isOpen_of_nonneg hsocket
      exact ⟨fun _ => hopen, fun _ => hopen, nofun,
        fun hnot => absurd (hopen.symm.trans hnot) nofun⟩

omit [Configuration] in
/-- A pass over the write queue leaves the rest alone. -/
theorem afterPass {io : WriteIo} (hcl : cl.Coherent) (hqueue : cl.writeQueue ≠ []) :
    (cl.afterPass (processQueue io cl.writeQueue)).Coherent :=
  ⟨hcl.connected, hcl.connecting, hcl.disconnecting, fun hnot => absurd (hcl.closed hnot) hqueue⟩

end Client.Coherent

/-- A step of user code keeps a client coherent. -/
theorem UserStep.coherent (h : UserStep t₀ t cl ch cl') (hcl : cl.Coherent) : cl'.Coherent := by
  cases h with
  | commit owned data hconnected _ _ =>
      have hopen := hcl.connected (by simpa [Client.connected] using hconnected)
      exact ⟨hcl.connected, hcl.connecting, hcl.disconnecting,
        fun hnot => absurd (hopen.symm.trans hnot) nofun⟩
  | pass io _ hqueue _ _ => exact hcl.afterPass hqueue
  | close _ => exact .close_ cl
  | connect u ip port _ hattempt =>
      exact (hcl.log.attempt hattempt).log
  | wait host port => exact ⟨nofun, nofun, nofun, hcl.closed⟩
  | _ => exact ⟨hcl.connected, hcl.connecting, hcl.disconnecting, hcl.closed⟩

/-- A step of a handler keeps a client coherent. -/
theorem HandlerStep.coherent (h : HandlerStep t₀ t cl φ ch cl' φ') (hcl : cl.Coherent) :
    cl'.Coherent := by
  cases h with
  | established _ hopen => exact ⟨fun _ => hopen, nofun, nofun, hcl.closed⟩
  | pass activity io _ hqueue _ _ => exact hcl.afterPass hqueue
  | cleaned next _ =>
      refine ⟨hcl.connected, hcl.connecting, hcl.disconnecting, fun hnot => ?_⟩
      simp only [Client.afterScan, hcl.closed hnot, List.drop_nil]
  | failed | rxExpired | peerClosed => exact .close_ cl
  | resolved _ hattempt => exact hcl.attempt hattempt
  | disconnected _ => exact ⟨nofun, nofun, nofun, hcl.closed⟩
  | _ => exact ⟨hcl.connected, hcl.connecting, hcl.disconnecting, hcl.closed⟩

/-- Every client that a run comes to is coherent. -/
theorem ClientRun.coherent (h : ClientRun t cl φ) : cl.Coherent := by
  induction h with
  | new t => exact ⟨nofun, nofun, nofun, fun _ => rfl⟩
  | adopted t₀ t socket _ hsocket =>
      unfold Client.adopted
      split
      · exact ⟨fun _ => Client.isOpen_of_nonneg hsocket, nofun, nofun, fun _ => rfl⟩
      · exact ⟨nofun, nofun, nofun, fun _ => rfl⟩
  | wait _ _ ih => exact ih
  | step _ _ hstep ih =>
      cases hstep with
      | user _ hstep => exact hstep.coherent ih
      | handler hstep => exact hstep.coherent ih

/-! ## Times -/

/-- The times stored in a client have passed at time `t`. -/
structure Client.Stamped (cl : Client) (t : Time) : Prop where
  /-- The times of the buffers. -/
  queue : ∀ buf ∈ cl.writeQueue, buf.Stamped t
  /-- The time of the last packet. -/
  rxLastPacket : cl.rxLastPacket ≤ t

namespace Client.Stamped

omit [Configuration] in
/-- Times that have passed stay past. -/
theorem mono (hcl : cl.Stamped t₀) (ht : t₀ ≤ t) : cl.Stamped t :=
  ⟨fun buf hbuf => (hcl.queue buf hbuf).mono ht, hcl.rxLastPacket.trans ht⟩

omit [Configuration] in
/-- An attempt stores no time. -/
theorem attempt {ip : IPAddress} {port : UInt16} {success : Bool} (hcl : cl.Stamped t)
    (h : Attempt ip port cl ch cl' success) : cl'.Stamped t := by
  cases h <;> exact ⟨hcl.queue, hcl.rxLastPacket⟩

/-- A client that is closed has no buffers. -/
theorem close_ (hcl : cl.Stamped t) : cl.close_.Stamped t := ⟨nofun, hcl.rxLastPacket⟩

omit [Configuration] in
/-- A pass stores the times at which it completes buffers. -/
theorem afterPass {io : WriteIo} (hcl : cl.Stamped t)
    (ht : (processQueue io cl.writeQueue).io.clock ≤ t) :
    (cl.afterPass (processQueue io cl.writeQueue)).Stamped t :=
  ⟨stamped_processQueue hcl.queue ht, hcl.rxLastPacket⟩

end Client.Stamped

/-- A step of user code stores times that have passed. -/
theorem UserStep.stamped (h : UserStep t₀ t cl ch cl') (hcl : cl.Stamped t) : cl'.Stamped t := by
  cases h with
  | commit owned data _ _ _ =>
      refine ⟨List.forall_mem_append.mpr ⟨hcl.queue, ?_⟩, hcl.rxLastPacket⟩
      exact List.forall_mem_singleton.mpr ⟨le_rfl, Nat.zero_le _, fun _ => rfl⟩
  | pass io _ _ _ ht => exact hcl.afterPass ht.le
  | close _ => exact hcl.close_
  | connect u ip port _ hattempt =>
      have hcall : (cl.log (.call u)).Stamped t := ⟨hcl.queue, hcl.rxLastPacket⟩
      exact ⟨(hcall.attempt hattempt).queue, (hcall.attempt hattempt).rxLastPacket⟩
  | _ => exact ⟨hcl.queue, hcl.rxLastPacket⟩

/-- A step of a handler stores times that have passed. -/
theorem HandlerStep.stamped (h : HandlerStep t₀ t cl φ ch cl' φ') (hcl : cl.Stamped t) :
    cl'.Stamped t := by
  cases h with
  | pass activity io _ _ _ ht => exact hcl.afterPass ht.le
  | writeFailed => exact ⟨hcl.queue, rxLastPacket_scanQueue_le hcl.rxLastPacket hcl.queue⟩
  | cleaned =>
      exact ⟨fun buf hbuf => hcl.queue buf (List.mem_of_mem_drop hbuf),
        rxLastPacket_scanQueue_le hcl.rxLastPacket hcl.queue⟩
  | failed | rxExpired | peerClosed => exact hcl.close_
  | resolved _ hattempt => exact hcl.attempt hattempt
  | established | rxRenewed | received => exact ⟨hcl.queue, le_rfl⟩
  | _ => exact ⟨hcl.queue, hcl.rxLastPacket⟩

/-- The times of every client that a run comes to have passed. -/
theorem ClientRun.stamped (h : ClientRun t cl φ) : cl.Stamped t := by
  induction h with
  | new t => exact ⟨nofun, Nat.zero_le _⟩
  | adopted t₀ t socket ht _ =>
      unfold Client.adopted
      split
      · exact ⟨nofun, le_rfl⟩
      · exact ⟨nofun, Nat.zero_le _⟩
  | wait _ ht ih => exact ih.mono ht
  | step _ ht hstep ih =>
      cases hstep with
      | user _ hstep => exact hstep.stamped (ih.mono ht)
      | handler hstep => exact hstep.stamped (ih.mono ht)

/-- A buffer that is not completed looks as if nothing of it had been written: the write loop sets
`writtenAt` with the last byte. -/
theorem ClientRun.writtenAt_eq_zero {buf : WriteQueueBuffer} (h : ClientRun t cl φ)
    (hbuf : buf ∈ cl.writeQueue) (hincomplete : buf.amountWritten < buf.data.length) :
    buf.writtenAt = 0 :=
  (h.stamped.queue buf hbuf).unset (WriteQueueBuffer.isFullyWritten_eq_false.mpr hincomplete)

end AsyncTcpSock
