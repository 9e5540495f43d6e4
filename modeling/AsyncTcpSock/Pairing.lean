import AsyncTcpSock.ClientInvariants
import AsyncTcpSock.Refinement
import AsyncTcpSock.Runs
import AsyncTcpSock.WriteQueue

/-!
# Pairs of CONNECT and DISCONNECT

Whether the `CONNECT` and `DISCONNECT` callbacks of a client alternate. `CONNECT` is inferred from a
writable socket whose client is not `CONNECTED`, and `DISCONNECT` is left to a later
`_processingDone`, which looks at the current state only. So a connection that is asked for between
the two loses or repeats a callback, and so does an answer, or a handler, that comes after the
`DISCONNECT`.
-/

namespace AsyncTcpSock

open Reentrant

/-! ## The property -/

/-- `CONNECT` has been delivered, and no `DISCONNECT` since. -/
def inSession : List Event → Bool
  | [] => false
  | .callback .connect :: _ => true
  | .callback .disconnect :: _ => false
  | _ :: past => inSession past

/-- `DISCONNECT` has been delivered, and no connect call has returned true since. -/
def spent : List Event → Bool
  | [] => false
  | .callback .disconnect :: _ => true
  | .returned true :: _ => false
  | _ :: past => spent past

/-- The last event is not a second `CONNECT` without a `DISCONNECT` in between, nor a second
`DISCONNECT` without a connect call that returned true in between. -/
def Paired : List Event → Prop
  | .callback .connect :: past => inSession past = false
  | .callback .disconnect :: past => spent past = false
  | _ => True

/-- The last event does not ask for a connection before the `DISCONNECT` of the one that `CONNECT`
has announced, and it does not handle a socket or an answer after a `DISCONNECT`. -/
def AwaitsDisconnect : List Event → Prop
  | .opened _ _ _ :: past => inSession past = false
  | .query _ :: past => inSession past = false
  | .entered h :: past => h ≠ .poll → h ≠ .done → spent past = false
  | _ => True

instance : DecidablePred Paired := fun past =>
  decidable_of_bool
    (match past with
      | .callback .connect :: past => inSession past = false
      | .callback .disconnect :: past => spent past = false
      | _ => true)
    (by unfold Paired; split <;> simp)

instance : DecidablePred AwaitsDisconnect := fun past =>
  decidable_of_bool
    (match past with
      | .opened _ _ _ :: past => inSession past = false
      | .query _ :: past => inSession past = false
      | .entered h :: past => h ≠ .poll → h ≠ .done → spent past = false
      | _ => true)
    (by unfold AwaitsDisconnect; split <;> simp [imp_iff_not_or])

/-! ## The invariant -/

/-- A connection that `CONNECT` has announced is established or has just ended, and a client that
has been told of the end has no socket and no handler at work. -/
structure Client.InPairs (cl : Client) (φ : Phase) : Prop where
  /-- Every callback has come in its turn. -/
  always : Always Paired cl.history
  /-- In a session the client is connected or disconnecting. -/
  ofSession : inSession cl.history = true → cl.state = .connected ∨ cl.state = .disconnecting
  /-- After `DISCONNECT` the client is closed. -/
  ofSpent : spent cl.history = true →
    cl.state = .disconnected ∧ cl.isOpen = false ∧ φ.atRest = true

section

variable [Configuration] {t₀ t : Time} {cl cl' : Client} {φ φ' : Phase} {ch : SocketChange}

namespace Client.InPairs

omit [Configuration] in
/-- While a client has not been told of the end of its connection, only the connection counts. -/
theorem of_not_spent (halways : Always Paired cl.history)
    (hsession : inSession cl.history = true → cl.state = .connected ∨ cl.state = .disconnecting)
    (hspent : spent cl.history = false) : cl.InPairs φ :=
  ⟨halways, hsession, fun h => absurd (hspent.symm.trans h) Bool.false_ne_true⟩

omit [Configuration] in
/-- A client with a handler at work has not been told of the end of its connection. -/
theorem not_spent (hcl : cl.InPairs φ) (hφ : φ.atRest = false) : spent cl.history = false := by
  by_contra h
  have hrest := (hcl.ofSpent (by simpa using h)).2.2
  rw [hφ] at hrest
  cases hrest

omit [Configuration] in
/-- Neither has one that is not `DISCONNECTED`. -/
theorem not_spent_of_state (hcl : cl.InPairs φ) (hstate : cl.state ≠ .disconnected) :
    spent cl.history = false := by
  by_contra h
  exact hstate (hcl.ofSpent (by simpa using h)).1

omit [Configuration] in
/-- A pass over the queue tells the client nothing. -/
theorem afterPass (hcl : cl.InPairs φ) (p : PassResult) (hstate : cl.state = .connected) :
    (cl.afterPass p).InPairs φ' := by
  have hsession : inSession (cl.afterPass p).history = inSession cl.history :=
    eq_of_wrote p.calls fun _ _ => rfl
  have hspent : spent (cl.afterPass p).history = spent cl.history :=
    eq_of_wrote p.calls fun _ _ => rfl
  have halways : Always Paired (.pass :: cl.history) := always_cons.mpr ⟨trivial, hcl.always⟩
  refine .of_not_spent (always_wrote _ (fun _ _ _ => trivial) halways) ?_ ?_
  · rw [hsession]
    exact hcl.ofSession
  · rw [hspent]
    exact hcl.not_spent_of_state (by simp [hstate])

/-- A connection ends before its `DISCONNECT`. -/
theorem close_ (hcl : cl.InPairs φ) (hspent : spent cl.history = false) : cl.close_.InPairs φ' :=
  .of_not_spent (always_cons.mpr ⟨trivial, hcl.always⟩) (fun _ => .inr rfl) hspent

end Client.InPairs

theorem UserStep.inPairs (h : UserStep t₀ t cl ch cl') (hcl : cl.InPairs φ)
    (hawaits : Always AwaitsDisconnect cl'.history) : cl'.InPairs φ := by
  cases h with
  | stay | configure | touch => exact ⟨hcl.always, hcl.ofSession, hcl.ofSpent⟩
  | pass io hconnected _ _ _ =>
      exact hcl.afterPass _ (by simpa [Client.connected] using hconnected)
  | close hopen =>
      refine hcl.close_ ?_
      by_contra hspent
      rw [(hcl.ofSpent (by simpa using hspent)).2.1] at hopen
      cases hopen
  | connect u ip port _ hattempt =>
      cases hattempt with
      | refused =>
          refine ⟨?_, hcl.ofSession, hcl.ofSpent⟩
          simpa [Client.log, Client.refused, Paired] using hcl.always
      | opened socket _ _ =>
          -- the connect call returns true, and the `DISCONNECT` before it has been delivered
          have hopened : inSession cl.history = false := (always_cons.mp hawaits).2.now
          refine .of_not_spent ?_ (fun h => absurd (hopened.symm.trans h) Bool.false_ne_true) rfl
          simpa [Client.log, Client.opened, Paired] using hcl.always
  | rejected u _ =>
      refine ⟨?_, hcl.ofSession, hcl.ofSpent⟩
      simpa [Client.log, Paired] using hcl.always
  | wait host port =>
      -- nor is there a connection when a query is made
      have hquery : inSession cl.history = false := (always_cons.mp hawaits).2.now
      refine .of_not_spent ?_ (fun h => absurd (hquery.symm.trans h) Bool.false_ne_true) rfl
      simpa [Client.log, Client.waiting, Paired] using hcl.always
  | _ => exact ⟨always_cons.mpr ⟨trivial, hcl.always⟩, hcl.ofSession, hcl.ofSpent⟩

theorem HandlerStep.inPairs (h : HandlerStep t₀ t cl φ ch cl' φ') (hcl : cl.InPairs φ)
    (hcoherent : cl.Coherent) (hawaits : Always AwaitsDisconnect cl'.history) : cl'.InPairs φ' := by
  cases h with
  | enter h _ =>
      have hentered : h ≠ .poll → h ≠ .done → spent cl.history = false := hawaits.now
      refine ⟨always_cons.mpr ⟨trivial, hcl.always⟩, hcl.ofSession, fun hspent => ?_⟩
      obtain ⟨hdisconnected, hclosed, -⟩ := hcl.ofSpent hspent
      refine ⟨hdisconnected, hclosed, ?_⟩
      by_contra hrest
      have hnot := hentered (by rintro rfl; exact hrest rfl) (by rintro rfl; exact hrest rfl)
      exact absurd (hnot.symm.trans hspent) Bool.false_ne_true
  | established hstate hopen =>
      have hspent := hcl.not_spent rfl
      -- `CONNECT` has not been delivered: the client is not `CONNECTED`, and it has a socket
      have hsession : inSession cl.history = false := by
        by_contra h
        rcases hcl.ofSession (by simpa using h) with h | h
        · exact hstate h
        · rw [hcoherent.disconnecting h] at hopen
          cases hopen
      exact .of_not_spent (always_cons.mpr ⟨hsession, hcl.always⟩) (fun _ => .inl rfl) hspent
  | pass activity io hstate _ _ _ => exact hcl.afterPass _ hstate
  | notPolled _ hstate hφ =>
      refine ⟨hcl.always, hcl.ofSession, fun hspent => ?_⟩
      obtain ⟨hd, hclosed, -⟩ := hcl.ofSpent hspent
      exact ⟨hd, hclosed, rfl⟩
  | poll hstate =>
      have hspent := hcl.not_spent_of_state (by simp [hstate])
      exact .of_not_spent hcl.always hcl.ofSession hspent
  | failed next => exact hcl.close_ (hcl.not_spent rfl)
  | rxExpired | peerClosed => exact hcl.close_ (hcl.not_spent rfl)
  | writeFailed next e _ =>
      have hspent := hcl.not_spent rfl
      refine .of_not_spent ?_ hcl.ofSession hspent
      simpa [Client.log, Client.afterFailedScan, Client.firstError, Paired] using hcl.always
  | resolved _ hattempt =>
      have hspent := hcl.not_spent rfl
      cases hattempt with
      | refused =>
          exact .of_not_spent (always_cons.mpr ⟨trivial, hcl.always⟩) hcl.ofSession hspent
      | opened socket _ _ =>
          have hopened : inSession cl.history = false := hawaits.now
          exact .of_not_spent (always_cons.mpr ⟨trivial, hcl.always⟩)
            (fun h => absurd (hopened.symm.trans h) Bool.false_ne_true) hspent
  | disconnected hstate =>
      have hspent := hcl.not_spent_of_state (by simp [hstate])
      refine ⟨always_cons.mpr ⟨hspent, hcl.always⟩, fun hsession => ?_,
        fun _ => ⟨rfl, hcoherent.disconnecting hstate, rfl⟩⟩
      -- `DISCONNECT` ends the connection that was announced
      cases hsession
  | nothingDone _ => exact ⟨hcl.always, hcl.ofSession, hcl.ofSpent⟩
  | ready | announced | nothingToWrite | touched | rxRenewed | nothingToRead =>
      have hspent := hcl.not_spent rfl
      exact .of_not_spent hcl.always hcl.ofSession hspent
  | _ =>
      have hspent := hcl.not_spent rfl
      exact .of_not_spent (always_cons.mpr ⟨trivial, hcl.always⟩) hcl.ofSession hspent

theorem ClientRun.inPairs (h : ClientRun t cl φ) (hawaits : Always AwaitsDisconnect cl.history) :
    cl.InPairs φ := by
  have hnil : Always Paired [] := always_nil.mpr trivial
  refine ClientRun.holds (fun t => ⟨hnil, nofun, nofun⟩) (fun t₀ t socket _ => ?_)
    (fun hrun hcl hawaits hstep => ?_) h hawaits
  · unfold Client.adopted
    split <;> exact ⟨hnil, nofun, nofun⟩
  · cases hstep with
    | user _ hstep => exact hstep.inPairs hcl hawaits
    | handler hstep => exact hstep.inPairs hcl hrun.coherent hawaits

/-- In every run, no two `CONNECT` callbacks of a client come without a `DISCONNECT` in between, and
no two `DISCONNECT` callbacks without a connect call that returned true in between, provided that no
connection is asked for between a `CONNECT` and the next `DISCONNECT` and that no socket or answer
is handled between a `DISCONNECT` and the next connect call that returns true. -/
theorem connect_disconnect_paired {s : System} (hs : Reachable s) {c : ClientId}
    (hcl : s.state.clients c = some cl) (hawaits : Always AwaitsDisconnect cl.history) :
    Always Paired cl.history := by
  obtain ⟨φ, hrun⟩ := hs.clientRun hcl
  exact (hrun.inPairs hawaits).always

end

section

attribute [local instance] Configuration.esp32

/-- A client connects, and `CONNECT` is delivered. -/
def connected : List Label :=
  [.ext .newClient,
    .ext (.outcomes
      { sockets := [48], connects := [some EINPROGRESS], queries := [.inProgress]
        sockopts := [.socketError 0, .socketError 0] }),
    .ext (.call 0 (.connectIP (.v4 0x08080808) 80)), .start (.handle .writeable 0), .resume]

/-- The connection is closed and `DISCONNECT` delivered. -/
theorem connect_disconnect_paired_once :
    ∃ s cl, Reachable s ∧ s.state.clients 0 = some cl ∧ spent cl.history = true ∧
      Always Paired cl.history := by
  obtain ⟨s, cl, hs, hcl, hspent, hawaits⟩ := exists_reachable_client
    (P := fun cl => spent cl.history = true ∧ Always AwaitsDisconnect cl.history)
    (connected ++ [.ext (.call 0 .close), .start (.handle .done 0)]) 0 (by decide +kernel)
  exact ⟨s, cl, hs, hcl, hspent, connect_disconnect_paired hs hcl hawaits⟩

/-- The client is asked to connect by name while it is connected: the live connection is announced a
second time. -/
theorem not_connect_disconnect_paired :
    ∃ s cl, Reachable s ∧ s.state.clients 0 = some cl ∧ ¬ Always Paired cl.history :=
  exists_reachable_client
    (connected ++ [.ext (.call 0 (.connectHost "host" 80)), .start (.handle .writeable 0)]) 0
    (by decide +kernel)

end

end AsyncTcpSock
