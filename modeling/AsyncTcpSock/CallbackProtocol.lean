import AsyncTcpSock.ClientInvariants
import AsyncTcpSock.Refinement
import AsyncTcpSock.Runs

/-!
# The protocol of a client

What user code may rely on when it watches a client. `ConnectionState.after` is an automaton over
the connection states that reads the events of a client and refuses those that are out of place, and
`follows_protocol` says that no client is ever refused. `error_ends_connection` is about the events
that follow an `ERROR` callback.
-/

namespace AsyncTcpSock

open Reentrant

/-! ## The automaton -/

/-- The state a client is in after event `e`; `none` when `e` is out of place in this state. -/
def ConnectionState.after (state : ConnectionState) : Event → Option ConnectionState
  | .query _ => some .waitingForDns
  | .opened _ _ _ =>
      -- a connection that has a socket is not opened again
      match state with
      | .connecting | .connected => none
      | _ => some .connecting
  | .closed _ => some .disconnecting
  | .callback .connect =>
      match state with
      | .connected | .disconnecting => none
      | _ => some .connected
  | .callback .disconnect =>
      match state with
      | .disconnecting => some .disconnected
      | _ => none
  | .callback (.recv _) =>
      match state with
      | .disconnecting => none
      | _ => some state
  | .callback .poll | .callback (.timeout _) | .accepted _ _ | .pass | .wrote _ | .batch _
  | .writeError _ _ =>
      match state with
      | .connected => some .connected
      | _ => none
  | .call _ | .returned _ | .answer _ _ | .entered _ | .refused _ _ | .callback (.sent _ _)
  | .callback (.error _) => some state

/-- The state after a history that has begun in `state`; `none` when it is not a history of the
protocol. -/
def ConnectionState.afterAll (state : ConnectionState) : List Event → Option ConnectionState
  | [] => some state
  | e :: past => (state.afterAll past).bind (·.after e)

/-- When a cleanup of the write queue is through, no other begins. -/
theorem Continuation.phase_ne_cleaning (next next' : Continuation) :
    next.phase ≠ .cleaning next' := by
  cases next <;> simp [Continuation.phase]

/-- The notifications are not part of the clean-up. -/
theorem Phase.notify_ne_cleaning (next next' : Continuation) (stats : List WriteStats) :
    Phase.notify next stats ≠ .cleaning next' := by
  cases stats with
  | nil => exact Continuation.phase_ne_cleaning next next'
  | cons => simp [Phase.notify]

section

variable [Configuration] {t₀ t : Time} {cl cl' : Client} {ch : SocketChange} {φ φ' : Phase}
  {state : ConnectionState} {past : List Event} {e : Event}

omit [Configuration] in
/-- One more event is one more step of the automaton. -/
theorem ConnectionState.afterAll_cons {state₁ : ConnectionState}
    (h : state.afterAll past = some state₁) :
    state.afterAll (e :: past) = state₁.after e := by
  rw [ConnectionState.afterAll, h, Option.bind_some]

omit [Configuration] in
/-- The events of a pass over the write queue are in place as long as the client is connected. -/
theorem ConnectionState.afterAll_pass (calls : List WriteCall)
    (h : state.afterAll past = some .connected) :
    state.afterAll ((calls.map Event.wrote).reverse ++ .pass :: past) = some .connected := by
  rw [← List.map_reverse]
  induction calls.reverse with
  | nil => exact afterAll_cons h
  | cons call rest ih => exact afterAll_cons ih

/-- A client follows the protocol from the state it was constructed in, and the write queue is
cleaned up on a connected client. -/
structure Client.Follows (state : ConnectionState) (cl : Client) (φ : Phase) : Prop where
  /-- The history leads the automaton to the state of the client. -/
  run : state.afterAll cl.history = some cl.state
  /-- Only a connected client has its write queue cleaned up. -/
  cleaning : ∀ next, φ = .cleaning next → cl.state = .connected

namespace Client.Follows

omit [Configuration] in
/-- An event that is in place. -/
theorem step (hcl : cl.Follows state φ) (hhistory : cl'.history = e :: cl.history)
    (hafter : cl.state.after e = some cl'.state) (hφ : ∀ next, φ' ≠ .cleaning next) :
    cl'.Follows state φ' := by
  refine ⟨?_, fun next hnext => absurd hnext (hφ next)⟩
  rw [hhistory, ConnectionState.afterAll_cons hcl.run, hafter]

omit [Configuration] in
/-- An event that leaves the state of the client alone. -/
theorem log (hcl : cl.Follows state φ) (hφ : ∀ next, φ' ≠ .cleaning next)
    (he : cl.state.after e = some cl.state) : (cl.log e).Follows state φ' :=
  hcl.step rfl he hφ

omit [Configuration] in
/-- An attempt that opens a connection does so where there is none. -/
theorem attempt {ip : IPAddress} {port : UInt16} {success : Bool} (hcl : cl.Follows state φ)
    (hcoherent : cl.Coherent) (hφ : ∀ next, φ' ≠ .cleaning next)
    (h : Attempt ip port cl ch cl' success) : cl'.Follows state φ' := by
  cases h with
  | refused => exact hcl.log hφ rfl
  | opened socket hclosed _ =>
      refine hcl.step rfl ?_ hφ
      cases hstate : cl.state with
      | connected => exact absurd (hcoherent.connected hstate) (by simp [hclosed])
      | connecting => exact absurd (hcoherent.connecting hstate) (by simp [hclosed])
      | _ => rfl

/-- A close is a step of the automaton from every state. -/
theorem close_ (hcl : cl.Follows state φ) (hφ : ∀ next, φ' ≠ .cleaning next) :
    cl.close_.Follows state φ' :=
  hcl.step rfl rfl hφ

end Client.Follows

/-- A step of user code follows the automaton. -/
theorem UserStep.follows (h : UserStep t₀ t cl ch cl') (hφ : φ.yields = true)
    (hcoherent : cl.Coherent) (hcl : cl.Follows state φ) : cl'.Follows state φ := by
  -- a call is made while a callback runs or between two operations
  have hne (next : Continuation) : φ ≠ .cleaning next := by
    rintro rfl
    cases hφ
  cases h with
  | stay | configure | touch => exact ⟨hcl.run, hcl.cleaning⟩
  | call u _ => exact hcl.log hne rfl
  | commit owned data hconnected _ _ =>
      have hstate : cl.state = .connected := by simpa [Client.connected] using hconnected
      exact hcl.step rfl (by rw [hstate]; exact congrArg some hstate.symm) hne
  | pass io hconnected _ _ _ =>
      have hstate : cl.state = .connected := by simpa [Client.connected] using hconnected
      have hrun := hcl.run
      refine ⟨?_, fun next hnext => absurd hnext (hne next)⟩
      rw [hstate] at hrun
      exact (ConnectionState.afterAll_pass _ hrun).trans (congrArg some hstate.symm)
  | close _ => exact hcl.close_ hne
  | connect u ip port _ hattempt =>
      have hcall : (cl.log (.call u)).Follows state φ := hcl.log hne rfl
      exact (hcall.attempt hcoherent.log hne hattempt).log hne rfl
  | rejected u _ =>
      have hcall : (cl.log (.call u)).Follows state φ := hcl.log hne rfl
      exact hcall.log hne rfl
  | wait host port =>
      have hcall : (cl.log (.call (.connectHost host port))).Follows state φ := hcl.log hne rfl
      have hwait : ((cl.log (.call (.connectHost host port))).waiting host port).Follows state φ :=
        hcall.step rfl rfl hne
      exact hwait.log hne rfl
  | answer q ip _ => exact hcl.step rfl rfl hne

/-- A step of a handler follows the automaton. -/
theorem HandlerStep.follows (h : HandlerStep t₀ t cl φ ch cl' φ') (hcoherent : cl.Coherent)
    (hcl : cl.Follows state φ) : cl'.Follows state φ' := by
  cases h with
  | enter h _ => exact hcl.step rfl rfl nofun
  | attemptFailed e _ => exact hcl.log nofun rfl
  | established hstate hopen =>
      refine hcl.step rfl ?_ nofun
      cases hstate' : cl.state with
      -- `_sockIsWriteable` looks at the state before it establishes a connection
      | connected => exact absurd hstate' hstate
      | disconnecting =>
          exact absurd (hopen.symm.trans (hcoherent.disconnecting hstate')) (by decide)
      | _ => rfl
  | ready | announced | touched | rxRenewed | nothingToRead | nothingDone => exact ⟨hcl.run, nofun⟩
  | nothingToWrite activity _ =>
      exact ⟨hcl.run, fun next hnext => absurd hnext (Continuation.phase_ne_cleaning _ next)⟩
  | pass activity io hstate _ _ _ =>
      have hrun := hcl.run
      rw [hstate] at hrun
      refine ⟨?_, fun _ _ => hstate⟩
      exact (ConnectionState.afterAll_pass _ hrun).trans (congrArg some hstate.symm)
  | writeFailed next e _ =>
      -- the scan reports the first error and stays in the state it found
      have hstate := hcl.cleaning next rfl
      have hscan : cl.afterFailedScan.Follows state (.failing next) := by
        refine hcl.step (e := cl.firstError) rfl ?_ nofun
        rw [hstate]
        exact congrArg some hstate.symm
      exact hscan.log nofun rfl
  | cleaned next _ =>
      have hstate := hcl.cleaning next rfl
      refine hcl.step rfl ?_ fun next' => Phase.notify_ne_cleaning next next' _
      rw [hstate]
      exact congrArg some hstate.symm
  | notified next stats rest =>
      exact hcl.log (fun next' => Phase.notify_ne_cleaning next next' rest) rfl
  | failed next => exact hcl.close_ (Continuation.phase_ne_cleaning next)
  | notPolled φ _ _ => exact ⟨hcl.run, nofun⟩
  | poll hstate => exact ⟨hcl.run, fun _ _ => hstate⟩
  | ackTimeout ackTimeout first rest hstate _ _ _ _ _ =>
      exact hcl.step rfl (by rw [hstate]; rfl) nofun
  | rxExpired rxTimeout _ _ _ => exact hcl.close_ nofun
  | polled hstate => exact hcl.log nofun (by rw [hstate]; rfl)
  | peerClosed _ => exact hcl.close_ nofun
  | received data hopen =>
      refine hcl.step rfl ?_ nofun
      cases hstate : cl.state with
      | disconnecting =>
          -- a client that is disconnecting has no socket left to read from
          exact absurd (hopen.symm.trans (hcoherent.disconnecting hstate)) (by decide)
      | _ => rfl
  | readFailed e => exact hcl.log nofun rfl
  | resolved _ hattempt => exact hcl.attempt hcoherent nofun hattempt
  | unresolved _ => exact hcl.log nofun rfl
  | disconnected hstate =>
      exact hcl.step rfl (by rw [hstate]; rfl) nofun

/-- A client follows the protocol from `DISCONNECTED`, or from `CONNECTED` when it has been
constructed from a positive descriptor. -/
theorem ClientRun.follows (h : ClientRun t cl φ) :
    ∃ state, (state = .disconnected ∨ state = .connected) ∧ cl.Follows state φ := by
  induction h with
  | new t => exact ⟨_, .inl rfl, rfl, nofun⟩
  | adopted t₀ t socket _ _ =>
      unfold Client.adopted
      split
      · exact ⟨_, .inr rfl, rfl, nofun⟩
      · exact ⟨_, .inl rfl, rfl, nofun⟩
  | wait _ _ ih => exact ih
  | step hrun _ hstep ih =>
      obtain ⟨state, hstate, hcl⟩ := ih
      refine ⟨state, hstate, ?_⟩
      cases hstep with
      | user hφ hstep => exact hstep.follows hφ hrun.coherent hcl
      | handler hstep => exact hstep.follows hrun.coherent hcl

/-- Every client of every reachable state has a history that the automaton accepts, and `_state` is
the state the automaton computes from it: a connection is opened only where `_state` is neither
`CONNECTING` nor `CONNECTED`, `CONNECT` is delivered only where it is neither `CONNECTED` nor
`DISCONNECTING`, data is queued and written and timeouts are reported only where it is `CONNECTED`,
and `DISCONNECT` is delivered only where it is `DISCONNECTING`. -/
theorem follows_protocol {s : System} (hs : Reachable s) {c : ClientId}
    (hcl : s.state.clients c = some cl) :
    ∃ state, (state = .disconnected ∨ state = .connected) ∧
      ConnectionState.afterAll state cl.history = some cl.state := by
  obtain ⟨φ, hrun⟩ := hs.clientRun hcl
  obtain ⟨state, hstate, hfollows⟩ := hrun.follows
  exact ⟨state, hstate, hfollows.run⟩

/-! ## Errors -/

/-- Whether an `ERROR` callback has been delivered for a connection that has not been closed since.
-/
def reporting : List Event → Bool
  | [] => false
  | .callback (.error _) :: _ => true
  | .closed _ :: _ => false
  | _ :: past => reporting past

/-- Nothing but user code follows an `ERROR` callback until the client has been closed. -/
def ErrorEnds : List Event → Prop
  | .callback _ :: past | .entered _ :: past | .batch _ :: past | .writeError _ _ :: past =>
      reporting past = false
  | _ => True

/-- The events that only handlers bring about. -/
def Event.ofHandler : Event → Bool
  | callback _ | entered _ | batch _ | writeError _ _ => true
  | _ => false

omit [Configuration] in
/-- Any event may follow when no error is being reported. -/
theorem errorEnds_cons_of_false (h : reporting past = false) : ErrorEnds (e :: past) := by
  cases e <;> first | exact h | trivial

omit [Configuration] in
/-- Only an `ERROR` callback begins to report one. -/
theorem reporting_cons_of_false (he : ∀ errorCode, e ≠ .callback (.error errorCode))
    (h : reporting past = false) : reporting (e :: past) = false := by
  cases e with
  | callback cb =>
      cases cb with
      | error errorCode => exact absurd rfl (he errorCode)
      | _ => exact h
  | closed => rfl
  | _ => exact h

omit [Configuration] in
/-- What user code does is in place at any time, and reports no error. -/
theorem errorEnds_append {es : List Event} (hes : ∀ e ∈ es, e.ofHandler = false)
    (h : Always ErrorEnds past) :
    Always ErrorEnds (es ++ past) ∧
      (reporting (es ++ past) = true → reporting past = true) := by
  induction es with
  | nil => exact ⟨h, id⟩
  | cons e es ih =>
      obtain ⟨halways, hreporting⟩ := ih fun e' he' => hes e' (List.mem_cons_of_mem e he')
      have he := hes e List.mem_cons_self
      refine ⟨always_cons.mpr ⟨?_, halways⟩, fun htrue => hreporting ?_⟩
      · cases e <;> trivial
      · cases e with
        | closed => cases htrue
        | callback => cases he
        | _ => exact htrue

/-- An error is reported only in the `ERROR` callback, and nothing but user code has followed it. -/
structure Client.Erring (cl : Client) (φ : Phase) : Prop where
  /-- Nothing but user code has followed an error. -/
  always : Always ErrorEnds cl.history
  /-- While an error is being reported the handler is in `_error`. -/
  failing : reporting cl.history = true → ∃ next, φ = .failing next

namespace Client.Erring

omit [Configuration] in
/-- No error is reported by a handler that is not in the `ERROR` callback. -/
theorem not_reporting (hcl : cl.Erring φ) (hφ : ∀ next, φ ≠ .failing next) :
    reporting cl.history = false := by
  cases hreporting : reporting cl.history with
  | false => rfl
  | true =>
      obtain ⟨next, hnext⟩ := hcl.failing hreporting
      exact absurd hnext (hφ next)

omit [Configuration] in
/-- Events of user code. -/
theorem append (hcl : cl.Erring φ) (es : List Event) (hes : ∀ e ∈ es, e.ofHandler = false)
    (hhistory : cl'.history = es ++ cl.history) : cl'.Erring φ := by
  obtain ⟨halways, hreporting⟩ := errorEnds_append hes hcl.always
  rw [← hhistory] at halways hreporting
  exact ⟨halways, fun htrue => hcl.failing (hreporting htrue)⟩

omit [Configuration] in
/-- An event of a handler, when no error is being reported. -/
theorem cons (halways : Always ErrorEnds cl.history) (hnot : reporting cl.history = false)
    (hhistory : cl'.history = e :: cl.history)
    (he : ∀ errorCode, e ≠ .callback (.error errorCode)) : cl'.Erring φ' := by
  refine ⟨?_, fun htrue => ?_⟩
  · rw [hhistory]
    exact always_cons.mpr ⟨errorEnds_cons_of_false hnot, halways⟩
  · rw [hhistory, reporting_cons_of_false he hnot] at htrue
    cases htrue

omit [Configuration] in
/-- An error is reported. -/
theorem error {errorCode : ℤ} {next : Continuation} (halways : Always ErrorEnds cl.history)
    (hnot : reporting cl.history = false) :
    (cl.log (.callback (.error errorCode))).Erring (.failing next) :=
  ⟨always_cons.mpr ⟨hnot, halways⟩, fun _ => ⟨next, rfl⟩⟩

end Client.Erring

omit [Configuration] in
/-- A pass over the write queue is something user code may do as well. -/
theorem Client.afterPass_events (cl : Client) (p : PassResult) :
    ∃ es, (cl.afterPass p).history = es ++ cl.history ∧ ∀ e ∈ es, e.ofHandler = false := by
  refine ⟨(p.calls.map Event.wrote).reverse ++ [.pass], by simp [Client.afterPass], ?_⟩
  intro e he
  rcases List.mem_append.mp he with he | he
  · obtain ⟨call, -, rfl⟩ := List.mem_map.mp (List.mem_reverse.mp he)
    rfl
  · obtain rfl := List.mem_singleton.mp he
    rfl

/-- User code brings about only events of its own. -/
theorem UserStep.ofHandler (h : UserStep t₀ t cl ch cl') :
    ∃ es, cl'.history = es ++ cl.history ∧ ∀ e ∈ es, e.ofHandler = false := by
  cases h with
  | stay | configure | touch => exact ⟨[], rfl, by simp⟩
  | call u _ => exact ⟨[.call u], rfl, by simp [Event.ofHandler]⟩
  | commit owned data _ _ _ => exact ⟨[.accepted cl.nextSeq data], rfl, by simp [Event.ofHandler]⟩
  | pass io => exact cl.afterPass_events _
  | close _ => exact ⟨[.closed cl.isOpen], rfl, by simp [Event.ofHandler]⟩
  | connect u ip port _ hattempt =>
      cases hattempt with
      | refused => exact ⟨[_, .refused _ _, .call u], rfl, by simp [Event.ofHandler]⟩
      | opened socket =>
          exact ⟨[_, .opened socket ip port, .call u], rfl, by simp [Event.ofHandler]⟩
  | rejected u _ => exact ⟨[.returned false, .call u], rfl, by simp [Event.ofHandler]⟩
  | wait host port =>
      exact ⟨[.returned true, .query _, .call _], rfl, by simp [Event.ofHandler]⟩
  | answer q ip _ => exact ⟨[.answer q (ip.getD .any)], rfl, by simp [Event.ofHandler]⟩

/-- A step of a handler that reports an error goes on by closing the client. -/
theorem HandlerStep.erring (h : HandlerStep t₀ t cl φ ch cl' φ') (hcl : cl.Erring φ) :
    cl'.Erring φ' := by
  have halways := hcl.always
  cases h with
  | failed next =>
      -- the client is closed, and the error is over
      exact ⟨always_cons.mpr ⟨trivial, halways⟩, nofun⟩
  | attemptFailed | readFailed | unresolved => exact .error halways (hcl.not_reporting nofun)
  | writeFailed next e _ =>
      have hscan : cl.afterFailedScan.Erring (.cleaning next) :=
        .cons halways (hcl.not_reporting nofun) rfl nofun
      exact .error hscan.always (hscan.not_reporting nofun)
  | pass activity io =>
      obtain ⟨es, hhistory, hes⟩ := cl.afterPass_events (processQueue io cl.writeQueue)
      have hpass := hcl.append es hes hhistory
      exact ⟨hpass.always, fun htrue => absurd (hpass.failing htrue) (by simp)⟩
  | resolved _ hattempt =>
      have hnot := hcl.not_reporting nofun
      cases hattempt with
      | refused => exact .cons halways hnot rfl nofun
      | opened => exact .cons halways hnot rfl nofun
  | notPolled φ _ hφ =>
      have hnot := hcl.not_reporting (by rintro next rfl; simp at hφ)
      exact ⟨halways, fun htrue => absurd (hnot.symm.trans htrue) nofun⟩
  | ready | announced | nothingToWrite | touched | poll | rxRenewed | nothingToRead |
    nothingDone =>
      have hnot := hcl.not_reporting nofun
      exact ⟨halways, fun htrue => absurd (hnot.symm.trans htrue) nofun⟩
  | _ => exact .cons halways (hcl.not_reporting nofun) rfl nofun

/-- Every client that a run comes to has been closed after its errors, or is about to be. -/
theorem ClientRun.erring (h : ClientRun t cl φ) : cl.Erring φ := by
  induction h with
  | new t => exact ⟨by simp [Client.new, ErrorEnds], nofun⟩
  | adopted t₀ t socket _ _ =>
      unfold Client.adopted
      split <;> exact ⟨by simp [Client.new, ErrorEnds], nofun⟩
  | wait _ _ ih => exact ih
  | step _ _ hstep ih =>
      cases hstep with
      | user _ hstep =>
          obtain ⟨es, hhistory, hes⟩ := hstep.ofHandler
          exact ih.append es hes hhistory
      | handler hstep => exact hstep.erring ih

/-- An `ERROR` callback ends the connection: until the client has been closed, no other callback is
invoked, no handler is entered and no finished buffer is removed from the write queue or reported.
When no code of the manager is running, no client is left in between. -/
theorem error_ends_connection {s : System} (hs : Reachable s) {c : ClientId}
    (hcl : s.state.clients c = some cl) :
    Always ErrorEnds cl.history ∧ (s.control = .idle → reporting cl.history = false) := by
  obtain ⟨φ, hrun⟩ := hs.clientRun hcl
  refine ⟨hrun.erring.always, fun hidle => ?_⟩
  exact (hs.clientRun_idle hidle hcl).erring.not_reporting nofun

end

section

attribute [local instance] Configuration.esp32

/-- An attempt to connect fails, and `ERROR` and `DISCONNECT` are delivered. -/
def attemptFails : List Label :=
  [.ext .newClient,
    .ext (.outcomes { sockets := [48], connects := [none], sockopts := [.socketError 104] }),
    .ext (.call 0 (.connectIP (.v4 1) 80)), .start (.handle .writeable 0), .resume,
    .start (.handle .done 0), .resume]

/-- The failed attempt is in the protocol. -/
theorem follows_protocol_failed :
    ∃ s cl, Reachable s ∧ s.state.clients 0 = some cl ∧ .callback .disconnect ∈ cl.history ∧
      ∃ state, (state = .disconnected ∨ state = .connected) ∧
        ConnectionState.afterAll state cl.history = some cl.state := by
  obtain ⟨s, cl, hs, hcl, hdisconnect⟩ := exists_reachable_client
    (P := fun cl => .callback .disconnect ∈ cl.history) attemptFails 0 (by decide +kernel)
  exact ⟨s, cl, hs, hcl, hdisconnect, follows_protocol hs hcl⟩

/-- The connection of the failed attempt is closed before `DISCONNECT` is delivered. -/
theorem error_ends_connection_failed :
    ∃ s cl, Reachable s ∧ s.state.clients 0 = some cl ∧ .callback (.error 104) ∈ cl.history ∧
      Always ErrorEnds cl.history ∧ (s.control = .idle → reporting cl.history = false) := by
  obtain ⟨s, cl, hs, hcl, herror⟩ := exists_reachable_client
    (P := fun cl => .callback (.error 104) ∈ cl.history) attemptFails 0 (by decide +kernel)
  exact ⟨s, cl, hs, hcl, herror, error_ends_connection hs hcl⟩

end

end AsyncTcpSock
