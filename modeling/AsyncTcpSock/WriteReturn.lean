import AsyncTcpSock.Environment
import AsyncTcpSock.StreamOrder

/-!
# What write returns

`write` queues bytes with `add` and then, when the `IMMEDIATE` flag is set, tries to send them with
`send`. When `send` makes no progress `write` returns 0, as if nothing had been written; the bytes
stay in the queue all the same, so a caller who tries again has them sent twice.
-/

namespace AsyncTcpSock

open Reentrant

/-! ## The property -/

/-- A call of `write` with `bytes` that has led from `cl` to `cl'` and returned `n` has accepted the
first `n` bytes, once, and nothing else. -/
structure Client.Reports (bytes : List UInt8) (n : ℕ) (cl cl' : Client) : Prop where
  /-- No more than the bytes of the call are reported. -/
  le : n ≤ bytes.length
  /-- They have been accepted once. -/
  accepted : acceptedBytes cl'.history = acceptedBytes cl.history ++ bytes.take n
  /-- If nothing is reported nothing has been queued. -/
  queue : n = 0 → cl'.writeQueue = cl.writeQueue

/-- How many buffers a pass over a queue tries to write: the unfinished ones in front of the first
that has an error. -/
def tries (queue : List WriteQueueBuffer) : ℕ :=
  (queue.takeWhile (!·.hasError)).countP (!·.isFullyWritten)

/-- `lwip_write` takes a byte before it has failed `k` times. -/
def takesWithin : ℕ → List WriteOutcome → Bool
  | 0, _ => false
  | _ + 1, [] => false
  | k + 1, .wrote 0 :: rest => takesWithin (k + 1) rest
  | _ + 1, .wrote (_ + 1) :: _ => true
  | k + 1, .failed _ :: rest => takesWithin k rest

/-- The condition on a call of `write`: the `IMMEDIATE` flag is not set, or `add` has nothing to
queue, or the socket is ready and `lwip_write` takes a byte before it has failed for all the buffers
that a pass over the queue with the new buffer tries. -/
def World.SendsAtOnce (w : World) (cl : Client) (bytes : List UInt8) (flags : ClientApiFlags) :
    Prop :=
  flags.test .immediate = true → cl.toSend bytes.length ≠ 0 →
    w.outcomes.selects.headD false = true ∧
      takesWithin (tries cl.writeQueue + if cl.writeQueue.any (·.hasError) then 0 else 1)
        w.outcomes.writes = true

/-! ## Progress of a pass -/

/-- The write loop of one buffer takes a byte, or it ends with a failure. -/
theorem takesWithin_write (now : Time) (outs : List WriteOutcome) {buf : WriteQueueBuffer}
    (hbuf : buf.amountWritten < buf.data.length) (k : ℕ) :
    takesWithin (k + 1) outs = (decide (0 < (buf.write now outs).writtenTotal) ||
      takesWithin k (buf.write now outs).rest) := by
  have hlength : buf.unwritten.length = buf.data.length - buf.amountWritten :=
    WriteQueueBuffer.length_unwritten
  induction outs generalizing buf with
  | nil => cases k <;> rfl
  | cons out rest ih =>
      cases out with
      | failed errno =>
          simp only [takesWithin, WriteQueueBuffer.write]
          split <;> simp
      | wrote n =>
          cases n with
          | zero =>
              -- nothing is taken, and the loop goes on with the same buffer
              have hsame :
                  ({ buf with amountWritten := buf.amountWritten + 0 } : WriteQueueBuffer) =
                  buf := rfl
              have hfull : buf.isFullyWritten = false :=
                WriteQueueBuffer.isFullyWritten_eq_false.mpr hbuf
              simp only [takesWithin, WriteQueueBuffer.write, WriteCall.taken, List.take_zero,
                List.length_nil, hsame, hfull, Bool.false_eq_true, if_false, Nat.zero_add]
              exact ih hbuf hlength
          | succ n =>
              have hpos :
                  0 < (WriteCall.taken ⟨buf.seq, buf.unwritten, .wrote (n + 1)⟩).length := by
                simp only [WriteCall.taken, List.length_take]
                omega
              simp only [takesWithin, WriteQueueBuffer.write]
              split
              · simp [hpos]
              · simp [Nat.lt_of_lt_of_le hpos (Nat.le_add_right ..)]

/-- A pass makes progress when `lwip_write` takes a byte before it has failed for all buffers. -/
theorem activity_processQueue (io : WriteIo) (queue : List WriteQueueBuffer) :
    (processQueue io queue).activity = takesWithin (tries queue) io.writes := by
  induction queue generalizing io with
  | nil => cases io.writes <;> rfl
  | cons buf rest ih =>
      cases herror : buf.hasError with
      | true => simp [processQueue, tries, takesWithin, herror]
      | false =>
          cases hfull : buf.isFullyWritten with
          | true =>
              have htries : tries (buf :: rest) = tries rest := by
                simp [tries, herror, hfull]
              simp only [processQueue, herror, hfull, Bool.false_eq_true, if_false, if_true, htries]
              exact ih io
          | false =>
              have htries : tries (buf :: rest) = tries rest + 1 := by
                simp [tries, herror, hfull]
              -- the buffer is tried now, and its loop ends at the first call that fails
              have hbuf := WriteQueueBuffer.isFullyWritten_eq_false.mp hfull
              simp only [processQueue, herror, hfull, Bool.false_eq_true, if_false, htries]
              rw [ih, takesWithin_write io.now.clock io.writes hbuf]
              rfl

/-- A new buffer is tried unless a buffer in front of it has an error. -/
theorem tries_append {queue : List WriteQueueBuffer} {buf : WriteQueueBuffer}
    (herror : buf.hasError = false) (hfull : buf.isFullyWritten = false) :
    tries (queue ++ [buf]) = tries queue + if queue.any (·.hasError) then 0 else 1 := by
  induction queue with
  | nil => simp [tries, herror, hfull]
  | cons b rest ih =>
      cases hb : b.hasError with
      | true => simp [tries, hb]
      | false =>
          simp only [tries, List.cons_append, List.takeWhile_cons, hb, Bool.not_false, if_true,
            List.countP_cons, List.any_cons, Bool.false_or] at ih ⊢
          rw [ih]
          omega

/-! ## The call -/

section

variable [Configuration] {C : Contract World Yield Fault} {w : World} {c : ClientId} {cl : Client}

omit [Configuration] in
/-- A call that accepts nothing. -/
theorem Client.Reports.zero (bytes : List UInt8) (cl : Client) : cl.Reports bytes 0 cl :=
  ⟨Nat.zero_le _, by simp, fun _ => rfl⟩

namespace Client

variable {owned : Bool} {t : Time} {bytes : List UInt8} {cl₂ : Client}

omit [Configuration] in
/-- The client has accepted what `add` has queued, and then nothing. -/
theorem Reports.of_commit (hsize : cl.toSend bytes.length ≠ 0)
    (h : acceptedBytes cl₂.history =
      acceptedBytes (cl.commit owned t (bytes.take (cl.toSend bytes.length))).history) :
    cl.Reports bytes (cl.toSend bytes.length) cl₂ := by
  obtain ⟨-, -, -, hle⟩ := ClientBase.toSend_pos hsize
  refine ⟨hle, ?_, fun hzero => absurd hzero hsize⟩
  rw [h]
  rfl

omit [Configuration] in
/-- So a report that nothing was accepted is wrong. -/
theorem not_reports_of_commit (hsize : cl.toSend bytes.length ≠ 0)
    (h : acceptedBytes cl₂.history =
      acceptedBytes (cl.commit owned t (bytes.take (cl.toSend bytes.length))).history) :
    ¬ cl.Reports bytes 0 cl₂ := by
  intro hreports
  obtain ⟨-, hpos, -, hle⟩ := ClientBase.toSend_pos hsize
  have haccepted := hreports.accepted
  rw [h, List.take_zero, List.append_nil] at haccepted
  have hlength := congrArg List.length haccepted
  simp only [commit, acceptedBytes, List.length_append, List.length_take] at hlength
  omega

omit [Configuration] in
/-- A pass over the queue with the new buffer. -/
theorem activity_commit (hsize : cl.toSend bytes.length ≠ 0) (io : WriteIo)
    {writes : List WriteOutcome} (hio : io.writes = writes) :
    (processQueue io (cl.commit owned t
      (bytes.take (cl.toSend bytes.length))).writeQueue).activity =
        takesWithin (tries cl.writeQueue + if cl.writeQueue.any (·.hasError) then 0 else 1)
          writes := by
  obtain ⟨-, hpos, -, hle⟩ := ClientBase.toSend_pos hsize
  have htries : tries (cl.commit owned t (bytes.take (cl.toSend bytes.length))).writeQueue =
      tries cl.writeQueue + if cl.writeQueue.any (·.hasError) then 0 else 1 := by
    refine tries_append rfl (WriteQueueBuffer.isFullyWritten_eq_false.mpr ?_)
    rw [List.length_take]
    simp only
    omega
  rw [activity_processQueue, htries, hio]

end Client

omit [Configuration] in
/-- What `write` returns and what it has accepted, on every client and for every behaviour of
`select` and `lwip_write`: it reports what it has accepted exactly when it does not have to send at
once, or does. -/
theorem write_reports_iff (hcl : w.clients c = some cl) (hheld : Mutex.write c ∉ w.held)
    (bytes : Option (List UInt8)) (flags : ClientApiFlags) :
    ∃ n w' cl', ClientBase.write c bytes flags w = .done n w' ∧ w'.clients c = some cl' ∧
      (cl.Reports (bytes.getD []) n cl' ↔ w.SendsAtOnce cl (bytes.getD []) flags) := by
  suffices hwp : wp faultless (ClientBase.write c bytes flags) (fun n w' =>
      ∃ cl', w'.clients c = some cl' ∧
        (cl.Reports (bytes.getD []) n cl' ↔ w.SendsAtOnce cl (bytes.getD []) flags)) w by
    obtain ⟨n, w', hdone, cl', hcl', hiff⟩ := exists_done_of_wp hwp
    exact ⟨n, w', cl', hdone, hcl', hiff⟩
  have hnothing (hsize : cl.toSend (bytes.getD []).length = 0) : ∃ cl', w.clients c = some cl' ∧
      (cl.Reports (bytes.getD []) 0 cl' ↔ w.SendsAtOnce cl (bytes.getD []) flags) :=
    ⟨cl, hcl, iff_of_true (.zero _ cl) fun _ hne => absurd hsize hne⟩
  rw [ClientBase.write, wp_bind]
  cases bytes with
  | none =>
      refine hnothing ?_
      simp [Client.toSend]
  | some bytes =>
      rw [ClientBase.wp_add_eq hcl hheld]
      split
      · rename_i hsize
        rw [Proc.wp_ite, if_pos rfl]
        exact hnothing hsize
      · rename_i hsize
        obtain ⟨hconnected, -, -, -⟩ := ClientBase.toSend_pos hsize
        have hsame (p : PassResult) (cl₁ : Client) : acceptedBytes (cl₁.afterPass p).history =
            acceptedBytes cl₁.history := acceptedBytes_wrote _
        rw [Proc.wp_ite]
        split
        · rename_i himmediate
          have hcl₁ := World.put_clients_self w.tick c (cl.commit (flags.test .copy) w.tick.clock
            (bytes.take (cl.toSend bytes.length))) w.tick.outcomes w.tick.clock
          rw [wp_bind, ClientBase.wp_send_eq hcl₁ hheld hconnected]
          split
          · rename_i hready
            rw [Client.activity_commit hsize _ (rfl : _ = w.outcomes.writes)]
            cases htakes : takesWithin _ w.outcomes.writes with
            | false =>
                -- all buffers that were tried have failed
                refine ⟨_, World.put_clients_self ..,
                  iff_of_false (Client.not_reports_of_commit hsize (hsame _ _)) fun h => ?_⟩
                rw [(h himmediate hsize).2] at htakes
                cases htakes
            | true =>
                exact ⟨_, World.put_clients_self .., iff_of_true (.of_commit hsize (hsame _ _))
                  fun _ _ => ⟨hready.1, htakes⟩⟩
          · -- the queue is not empty, so it is the socket that is not ready
            rename_i hready
            refine ⟨_, World.put_clients_self ..,
              iff_of_false (Client.not_reports_of_commit hsize rfl) fun h => ?_⟩
            exact hready ⟨(h himmediate hsize).1, by simp [Client.commit]⟩
        · rename_i himmediate
          exact ⟨_, World.put_clients_self .., iff_of_true (.of_commit hsize rfl)
            fun h => absurd h himmediate⟩

end

section

attribute [local instance] Configuration.esp32

/-- A world with a connected client, where `select` and `lwip_write` have the outcomes `selects` and
`writes`. -/
def connectedClient (selects : List Bool) (writes : List WriteOutcome) : World :=
  { World.addClient {} (Client.adopted 0 0 48) with
    descriptors := {48}, outcomes := { selects, writes } }

/-- The socket is full after the first byte: `write` returns 2. -/
theorem write_reports_immediate :
    ∃ n w' cl', ClientBase.write 0 (some [1, 2]) (.of .immediate)
        (connectedClient [true] [.wrote 1]) = .done n w' ∧ w'.clients 0 = some cl' ∧
      (Client.adopted 0 0 48).Reports [1, 2] n cl' := by
  have hcl : (connectedClient [true] [.wrote 1]).clients 0 = some (Client.adopted 0 0 48) := rfl
  obtain ⟨n, w', cl', hdone, hcl', hiff⟩ := write_reports_iff hcl (by decide)
    (some [1, 2]) (.of .immediate)
  exact ⟨n, w', cl', hdone, hcl', hiff.mpr fun _ _ => ⟨rfl, rfl⟩⟩

/-- The socket is not ready: `write` returns 0 and has queued both bytes. -/
theorem not_write_reports :
    ∃ w' cl', ClientBase.write 0 (some [1, 2]) (.of .immediate) (connectedClient [false] []) =
        .done 0 w' ∧ w'.clients 0 = some cl' ∧
      ¬ (Client.adopted 0 0 48).Reports [1, 2] 0 cl' := by
  refine ⟨_, _, rfl, rfl, fun h => ?_⟩
  have hqueue := congrArg List.length (h.queue rfl)
  exact absurd hqueue (by decide)

end

end AsyncTcpSock
