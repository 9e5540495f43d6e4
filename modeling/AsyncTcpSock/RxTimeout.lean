import AsyncTcpSock.ClientInvariants
import AsyncTcpSock.HandlerRules

/-!
# The rx timeout

`_checkRxTimeout` compares the time with `_rx_last_packet`, which is set by five functions and never
reset when a connection ends.

- `ActivityRun`: a run of a client, with the times of what its current connection has been used for.
- `Client.Active`: none of these times is later than `_rx_last_packet`.
- `rx_timeout_inactive`: a connection is closed for its rx timeout only when all of these times are
  that long ago and the socket cannot be read.
-/

namespace AsyncTcpSock

open Reentrant Proc

/-! ## Activities -/

/-- What has been recorded of a client between two states of it. -/
def Client.recorded (cl cl' : Client) : List Event :=
  cl'.history.take (cl'.history.length - cl.history.length)

/-- The buffers at the front of the queue that a scan passes. -/
def Client.finished (cl : Client) : List WriteQueueBuffer :=
  cl.writeQueue.take cl.scan.notifyQueue.length

/-- The times of the activities of a connection when a step that ends at time `t` has recorded these
events: when it was established, the reads that returned data, and when the buffers that have been
removed were completed. -/
def Client.activities (cl : Client) (t : Time) (acts : List Time) : List Event → List Time
  | [.callback .connect] => t :: acts
  | [.callback (.recv _)] => t :: acts
  | [.batch _] => cl.finished.map WriteQueueBuffer.writtenAt ++ acts
  | _ => acts

/-- The times of the activities of the current connection after a step: there are none when the step
has ended a connection or begun a new one. -/
def activitiesAfter (t : Time) (cl : Client) (ch : SocketChange) (cl' : Client) (acts : List Time) :
    List Time :=
  match ch with
  | .kept => cl.activities t acts (cl.recorded cl')
  | _ => []

/-- At time `t` a client may have come to `cl`, in phase `φ`, and `acts` are the times of the
activities of its current connection. -/
inductive ActivityRun [Configuration] : Time → Client → Phase → List Time → Prop where
  | new (t : Time) : ActivityRun t (Client.new t) .idle []
  | adopted (t₀ t : Time) (socket : ℤ) : t₀ ≤ t → 0 ≤ socket →
      ActivityRun t (Client.adopted t₀ t socket) .idle (if 0 < socket then [t] else [])
  | wait {t₀ t : Time} {cl : Client} {φ : Phase} {acts : List Time} : ActivityRun t₀ cl φ acts →
      t₀ ≤ t → ActivityRun t cl φ acts
  | step {t₀ t : Time} {cl cl' : Client} {φ φ' : Phase} {ch : SocketChange} {acts : List Time} :
      ActivityRun t₀ cl φ acts → t₀ ≤ t → ClientStep t₀ t cl φ ch cl' φ' →
      ActivityRun t cl' φ' (activitiesAfter t cl ch cl' acts)

section

variable [Configuration] {t₀ t : Time} {cl cl' : Client} {φ φ' : Phase} {ch : SocketChange}
  {acts : List Time}

/-- The activities of a run may be left out of account. -/
theorem ActivityRun.clientRun (h : ActivityRun t cl φ acts) : ClientRun t cl φ := by
  induction h with
  | new t => exact .new t
  | adopted t₀ t socket ht hsocket => exact .adopted t₀ t socket ht hsocket
  | wait _ ht ih => exact ih.wait ht
  | step _ ht hstep ih => exact ih.step ht hstep

/-- Every run of a client has activities. -/
theorem ClientRun.exists_activityRun (h : ClientRun t cl φ) : ∃ acts, ActivityRun t cl φ acts := by
  induction h with
  | new t => exact ⟨_, .new t⟩
  | adopted t₀ t socket ht hsocket => exact ⟨_, .adopted t₀ t socket ht hsocket⟩
  | wait _ ht ih =>
      obtain ⟨acts, hacts⟩ := ih
      exact ⟨acts, hacts.wait ht⟩
  | step _ ht hstep ih =>
      obtain ⟨acts, hacts⟩ := ih
      exact ⟨_, hacts.step ht hstep⟩

/-! ## The time of the last packet -/

/-- No activity of the current connection is later than `_rx_last_packet`. -/
def Client.Active (cl : Client) (acts : List Time) : Prop := ∀ a ∈ acts, a ≤ cl.rxLastPacket

/-- Events that are no activity. -/
def quiet : List Event → Bool
  | [.callback .connect] | [.callback (.recv _)] | [.batch _] => false
  | _ => true

namespace Client.Active

omit [Configuration] in
/-- A step within a connection that records `new`. -/
theorem of_kept (new : List Event) (hhistory : cl'.history = new ++ cl.history)
    (hnew : cl'.Active (cl.activities t acts new)) :
    cl'.Active (activitiesAfter t cl .kept cl' acts) := by
  have hrecorded : cl.recorded cl' = new := by simp [Client.recorded, hhistory]
  rwa [← hrecorded] at hnew

omit [Configuration] in
/-- A step at the beginning or at the end of a connection. -/
theorem of_ne_kept (hch : ch ≠ .kept) : cl'.Active (activitiesAfter t cl ch cl' acts) := by
  cases ch with
  | kept => exact absurd rfl hch
  | opened socket => nofun
  | closed => nofun

omit [Configuration] in
/-- A step without activity. -/
theorem of_quiet (hcl : cl.Active acts) (new : List Event)
    (hhistory : cl'.history = new ++ cl.history) (hnew : quiet new = true)
    (hrx : cl.rxLastPacket ≤ cl'.rxLastPacket) :
    cl'.Active (activitiesAfter t cl .kept cl' acts) := by
  refine of_kept new hhistory ?_
  have hacts : cl.activities t acts new = acts := by
    unfold Client.activities
    split <;> first | rfl | cases hnew
  rw [hacts]
  exact fun a ha => (hcl a ha).trans hrx

omit [Configuration] in
/-- A pass over the queue. -/
theorem afterPass (hcl : cl.Active acts) (p : PassResult) :
    (cl.afterPass p).Active (activitiesAfter t cl .kept (cl.afterPass p) acts) := by
  refine hcl.of_quiet ((p.calls.map Event.wrote).reverse ++ [.pass]) ?_ ?_ le_rfl
  · simp [Client.afterPass]
  · rcases List.eq_nil_or_concat p.calls with h | ⟨calls, call, h⟩
    · rw [h]
      rfl
    · simp [h, quiet]

omit [Configuration] in
/-- An activity at time `t`. -/
theorem cons (hcl : cl.Active acts) (hstamped : cl.Stamped t) (hrx : cl'.rxLastPacket = t) :
    cl'.Active (t :: acts) := by
  subst hrx
  exact List.forall_mem_cons.mpr ⟨le_rfl, fun a ha => (hcl a ha).trans hstamped.rxLastPacket⟩

end Client.Active

theorem UserStep.active (h : UserStep t₀ t cl ch cl') (hcl : cl.Active acts) :
    cl'.Active (activitiesAfter t cl ch cl' acts) := by
  cases h with
  | stay | configure | touch => exact hcl.of_quiet [] rfl rfl le_rfl
  | pass io _ _ _ _ => exact hcl.afterPass _
  | close _ => exact .of_ne_kept nofun
  | connect u ip port _ hattempt =>
      cases hattempt with
      | refused => exact hcl.of_quiet [_, _, _] rfl rfl le_rfl
      | opened socket _ _ => exact .of_ne_kept nofun
  | rejected u _ => exact hcl.of_quiet [_, _] rfl rfl le_rfl
  | wait host port => exact hcl.of_quiet [_, _, _] rfl rfl le_rfl
  | call | commit | answer => exact hcl.of_quiet [_] rfl rfl le_rfl

theorem HandlerStep.active (h : HandlerStep t₀ t cl φ ch cl' φ') (hstamped : cl.Stamped t)
    (hcl : cl.Active acts) : cl'.Active (activitiesAfter t cl ch cl' acts) := by
  cases h with
  | ready | announced | nothingToWrite | touched | notPolled | poll | nothingToRead | nothingDone =>
      exact hcl.of_quiet [] rfl rfl le_rfl
  | rxRenewed _ => exact hcl.of_quiet [] rfl rfl hstamped.rxLastPacket
  | established _ _ => exact .of_kept [_] rfl (hcl.cons hstamped rfl)
  | received data _ => exact .of_kept [_] rfl (hcl.cons hstamped rfl)
  | pass activity io _ _ _ _ => exact hcl.afterPass _
  | cleaned next _ =>
      -- the scan has moved the time to that of the latest buffer it has passed
      obtain ⟨hle, hfinished⟩ := le_rxLastPacket_scanQueue cl.rxLastPacket cl.writeQueue
      refine .of_kept [_] rfl (List.forall_mem_append.mpr ⟨?_, fun a ha => ?_⟩)
      · exact List.forall_mem_map.mpr hfinished
      · exact (hcl a ha).trans hle
  | writeFailed next e _ =>
      exact hcl.of_quiet [_, _] rfl rfl (le_rxLastPacket_scanQueue _ _).1
  | failed | rxExpired | peerClosed => exact .of_ne_kept nofun
  | resolved _ hattempt =>
      cases hattempt with
      | refused => exact hcl.of_quiet [_] rfl rfl le_rfl
      | opened socket _ _ => exact .of_ne_kept nofun
  | _ => exact hcl.of_quiet [_] rfl rfl le_rfl

theorem ActivityRun.active (h : ActivityRun t cl φ acts) : cl.Active acts := by
  induction h with
  | new t => nofun
  | adopted t₀ t socket _ _ =>
      unfold Client.adopted
      split
      · exact List.forall_mem_singleton.mpr le_rfl
      · nofun
  | wait _ _ ih => exact ih
  | step hrun ht hstep ih =>
      cases hstep with
      | user _ hstep => exact hstep.active ih
      | handler hstep => exact hstep.active (hrun.clientRun.stamped.mono ht) ih

/-! ## The check -/

variable {w w' w₁ : World} {c : ClientId}

omit [Configuration] in
/-- A callback takes control away. -/
theorem invoke_ne_done (cb : Callback) (last : Bool) : invoke c cb last w ≠ .done () w' := by
  intro h
  obtain ⟨_, w₁, -, hyield⟩ := Routine.bind_eq_done.mp h
  cases hyield

omit [Configuration] in
/-- `_checkAckTimeout` returns without a callback only when it has nothing to report. -/
theorem checkAckTimeout_ne_true : ClientBase.checkAckTimeout c w ≠ .done true w' := by
  intro h
  -- every path that completes the call returns false
  obtain ⟨cl, w₁, -, h⟩ := Routine.bind_eq_done.mp h
  cases hack : cl.ackTimeout with
  | none =>
      rw [hack] at h
      cases h
  | some ackTimeout =>
      simp only [hack] at h
      cases hsignaled : cl.ackTimeoutSignaled with
      | true =>
          rw [if_pos hsignaled] at h
          cases h
      | false =>
          rw [hsignaled, if_neg Bool.false_ne_true] at h
          obtain ⟨_, w₂, -, h⟩ := Routine.bind_eq_done.mp h
          obtain ⟨cl', w₃, -, h⟩ := Routine.bind_eq_done.mp h
          cases hqueue : cl'.writeQueue with
          | nil =>
              simp only [hqueue] at h
              obtain ⟨_, w₄, -, h⟩ := Routine.bind_eq_done.mp h
              cases h
          | cons first rest =>
              simp only [hqueue] at h
              obtain ⟨t, w₄, -, h⟩ := Routine.bind_eq_done.mp h
              by_cases hdue : t - first.queuedAt ≥ ackTimeout ∧ first.writtenAt = 0
              · -- a timeout that is due is delivered, and the callback does not return here
                rw [if_pos hdue] at h
                obtain ⟨_, w₅, -, h⟩ := Routine.bind_eq_done.mp h
                obtain ⟨_, w₆, -, h⟩ := Routine.bind_eq_done.mp h
                obtain ⟨_, w₇, hinvoke, -⟩ := Routine.bind_eq_done.mp h
                exact invoke_ne_done _ _ hinvoke
              · rw [if_neg hdue] at h
                obtain ⟨_, w₅, -, h⟩ := Routine.bind_eq_done.mp h
                cases h

omit [Configuration] in
/-- `_checkAckTimeout` lets time pass when it has nothing to report. -/
theorem elapse_of_checkAckTimeout (hcl : w.clients c = some cl)
    (h : ClientBase.checkAckTimeout c w = .done false w') :
    ∃ o t, w.clock ≤ t ∧ o.selects = w.outcomes.selects ∧ w' = w.elapse o t := by
  have hwp : wp Contract.lax (ClientBase.checkAckTimeout c) (fun reported w' => reported = false →
      ∃ o t, w.clock ≤ t ∧ o.selects = w.outcomes.selects ∧ w' = w.elapse o t) w := by
    refine ClientBase.wp_checkAckTimeout hcl (fun _ => trivial) ?_ ?_
    · exact fun o t ht ho _ => ⟨o, t, ht, ho, rfl⟩
    · exact fun _ _ _ _ _ _ _ _ _ _ _ => wp_lax fun _ _ => nofun
  rw [wp, h] at hwp
  exact hwp rfl

omit [Configuration] in
/-- `_checkRxTimeout` finds a timeout only when the socket cannot be read. -/
theorem expired_of_checkRxTimeout (hcl : w.clients c = some cl)
    (h : ClientBase.checkRxTimeout c w = .done true w') :
    ∃ rxTimeout, cl.rxTimeout = some rxTimeout ∧ rxTimeout ≤ w'.clock - cl.rxLastPacket ∧
      w.clock ≤ w'.clock ∧ w.outcomes.selects.headD false = false ∧ w'.clients = w.clients := by
  have hwp : wp Contract.lax (ClientBase.checkRxTimeout c) (fun expired w' => expired = true →
      ∃ rxTimeout, cl.rxTimeout = some rxTimeout ∧ rxTimeout ≤ w'.clock - cl.rxLastPacket ∧
        w.clock ≤ w'.clock ∧ w.outcomes.selects.headD false = false ∧
        w'.clients = w.clients) w := by
    refine ClientBase.wp_checkRxTimeout hcl (fun _ _ _ => nofun) (fun _ _ _ => nofun) ?_
    exact fun o t rxTimeout ht hrx hlate hready _ => ⟨rxTimeout, hrx, hlate, ht, hready, rfl⟩
  rw [wp, h] at hwp
  exact hwp rfl

/-- `_close` ends the connection at once. -/
theorem closed_of_close_ (hcl : w.clients c = some cl) (h : ClientBase.close_ c w = .done () w') :
    w'.clients c = some cl.close_ ∧ w'.clock = w.clock := by
  have hwp : wp Contract.lax (ClientBase.close_ c)
      (fun _ w' => w'.clients c = some cl.close_ ∧ w'.clock = w.clock) w := by
    by_cases hheld : Mutex.write c ∈ w.held
    · simp [ClientBase.close_, ClientBase.clearWriteQueue, hcl, hheld, Contract.lax]
    · exact ClientBase.wp_close_ hcl hheld ⟨World.put_clients_self .., rfl⟩
  rw [wp, h] at hwp
  exact hwp

/-- In every run of a client, the part of `_sockPoll` after the notifications closes a connection
for its rx timeout only when the socket could not be read in the check and every activity of the
connection is at least the rx timeout ago. -/
theorem rx_timeout_inactive (hcl : w.clients c = some cl)
    (hrun : ActivityRun w.clock cl .polling acts) (hconnected : cl.connected = true)
    (hpoll : ClientBase.pollTimeouts c w = .done () w') :
    w'.clients c = some cl.close_ ∧ w.outcomes.selects.headD false = false ∧
      ∃ rxTimeout, cl.rxTimeout = some rxTimeout ∧ ∀ a ∈ acts, a + rxTimeout ≤ w'.clock := by
  have hthis : this c w = .done cl w := by rw [this, hcl]
  obtain ⟨_, _, hcl₀, hpoll⟩ := Routine.bind_eq_done.mp hpoll
  obtain ⟨rfl, rfl⟩ := Outcome.done.inj (hthis.symm.trans hcl₀)
  rw [hconnected, Bool.not_true, if_neg Bool.false_ne_true] at hpoll
  obtain ⟨reported, w₁, hack, hpoll⟩ := Routine.bind_eq_done.mp hpoll
  cases reported with
  -- a reported ack timeout would not have come back
  | true => exact absurd hack checkAckTimeout_ne_true
  | false =>
      obtain ⟨o, t, ht, ho, rfl⟩ := elapse_of_checkAckTimeout hcl hack
      rw [if_neg Bool.false_ne_true] at hpoll
      obtain ⟨expired, w₂, hrx, hpoll⟩ := Routine.bind_eq_done.mp hpoll
      cases expired with
      -- without a receive timeout the poll ends in its callback
      | false => exact absurd hpoll (invoke_ne_done _ _)
      | true =>
          have hcl₁ : (w.elapse o t).clients c = some cl := hcl
          obtain ⟨rxTimeout, hrxTimeout, hlate, ht', hready, hclients⟩ :=
            expired_of_checkRxTimeout hcl₁ hrx
          obtain ⟨hclosed, hclock⟩ := closed_of_close_ (by rw [hclients]; exact hcl) hpoll
          refine ⟨hclosed, ho ▸ hready, rxTimeout, hrxTimeout, fun a ha => ?_⟩
          -- every activity is at or before `rxLastPacket`, and that is `rxTimeout` ago
          have hlast : cl.rxLastPacket ≤ w₂.clock :=
            hrun.clientRun.stamped.rxLastPacket.trans (ht.trans ht')
          calc a + rxTimeout ≤ cl.rxLastPacket + rxTimeout :=
                Nat.add_le_add_right (hrun.active a ha) _
            _ ≤ w₂.clock := Nat.add_comm .. ▸ Nat.add_le_of_le_sub hlast hlate
            _ = w'.clock := hclock.symm

end

section

attribute [local instance] Configuration.esp32

/-- Nothing has been heard of a connection for a hundred ticks since it was established. -/
theorem rx_timeout_inactive_silent :
    ∃ (w w' : World) (cl : Client) (acts : List Time), w.clients 0 = some cl ∧
      ActivityRun w.clock cl .polling acts ∧ ClientBase.pollTimeouts 0 w = .done () w' ∧
      acts = [7] ∧ ∀ a ∈ acts, a + 100 ≤ w'.clock := by
  -- the client is accepted at time 7, gets its timeout and is polled
  let cl₁ : Client := Client.adopted 7 7 48
  let cl₂ : Client := { cl₁ with rxTimeout := some 100 }
  have hrun : ActivityRun 7 cl₁ .idle [7] := .adopted 7 7 48 le_rfl (by decide)
  have hrun₂ := hrun.step le_rfl (.user rfl (.configure cl₁ cl₁.ackTimeout (some 100)))
  have hrun₃ := hrun₂.step le_rfl (.handler (.enter cl₂ .poll nofun))
  have hrun₄ := hrun₃.step le_rfl (.handler (.poll (cl₂.enter .poll) rfl))
  have hrun₅ := hrun₄.step le_rfl (.handler (.cleaned (cl₂.enter .poll) .poll rfl))
  let w : World :=
    { clients := fun _ => some (cl₂.enter .poll).afterScan
      clock := 7
      outcomes := { ticks := [100] } }
  obtain ⟨w', hpoll⟩ : ∃ w', ClientBase.pollTimeouts 0 w = .done () w' := ⟨_, rfl⟩
  obtain ⟨-, -, rxTimeout, hrx, hacts⟩ := rx_timeout_inactive (w := w) rfl hrun₅ rfl hpoll
  obtain rfl : 100 = rxTimeout := Option.some.inj hrx
  exact ⟨w, w', _, _, rfl, hrun₅, hpoll, rfl, hacts⟩

end

end AsyncTcpSock
