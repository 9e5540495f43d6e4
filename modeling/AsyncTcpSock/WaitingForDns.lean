import AsyncTcpSock.CallbackProtocol
import AsyncTcpSock.WriteQueue

/-!
# Clients that wait for an answer

A client that is `WAITING_FOR_DNS` has something to wake it: a query whose answer is still to come,
or an answer that is still to be processed. `_sockDelayedConnect` breaks this when the connect it
makes gives up (the client is open already, or there is no socket, or `::connect` fails), as it does
not look at what the connect returns.
-/

namespace AsyncTcpSock

open Reentrant

/-! ## The property -/

/-- If `_sockDelayedConnect` has processed an answer, it has opened a socket or delivered an
error. -/
def Processed : List Event → Prop
  | .opened _ _ _ :: .entered .delayedConnect :: _ => True
  | .callback (.error _) :: .entered .delayedConnect :: _ => True
  | _ :: .entered .delayedConnect :: _ => False
  | _ => True

/-- The last event is not that the connect `_sockDelayedConnect` makes gives up. -/
def NotGivenUp : List Event → Prop
  | .refused _ _ :: .entered .delayedConnect :: _ => False
  | _ => True

instance : DecidablePred Processed := fun past =>
  decidable_of_bool
    (match past with
      | .opened _ _ _ :: .entered .delayedConnect :: _ => true
      | .callback (.error _) :: .entered .delayedConnect :: _ => true
      | _ :: .entered .delayedConnect :: _ => false
      | _ => true)
    (by unfold Processed; split <;> simp)

instance : DecidablePred NotGivenUp := fun past =>
  decidable_of_bool
    (match past with
      | .refused _ _ :: .entered .delayedConnect :: _ => false
      | _ => true)
    (by unfold NotGivenUp; split <;> simp)

/-! ## The invariant -/

/-- A client that waits has something to wake it, or `_sockDelayedConnect` is at work; and what
`_sockDelayedConnect` is entered for is processed at once. -/
structure Client.Wakeable (cl : Client) (φ : Phase) : Prop where
  /-- Every answer has been processed. -/
  always : Always Processed cl.history
  /-- `_sockDelayedConnect` has just been entered when it is at work. -/
  entered : cl.history.head? = some (.entered .delayedConnect) ↔ φ = .running .delayedConnect
  /-- A client that waits has something to wake it. -/
  waiting : cl.state = .waitingForDns → cl.dnsPending ≠ [] ∨ cl.dnsFinished = true ∨
    φ = .running .delayedConnect ∨ ∃ next, φ = .failing next

variable {past : List Event}

/-- An event that does not come right after `_sockDelayedConnect` is entered. -/
theorem always_processed_cons {e : Event} (h : Always Processed past)
    (hhead : past.head? ≠ some (.entered .delayedConnect)) : Always Processed (e :: past) := by
  refine always_cons.mpr ⟨?_, h⟩
  unfold Processed
  split <;> simp_all

/-- The calls of a pass do not. -/
theorem always_processed_wrote (calls : List WriteCall) (h : Always Processed past)
    (hhead : past.head? ≠ some (.entered .delayedConnect)) :
    Always Processed ((calls.map Event.wrote).reverse ++ past) ∧
      ((calls.map Event.wrote).reverse ++ past).head? ≠ some (.entered .delayedConnect) := by
  induction calls using List.reverseRecOn with
  | nil => exact ⟨h, hhead⟩
  | append_singleton calls call ih =>
      rw [wrote_append_singleton]
      exact ⟨always_processed_cons ih.1 ih.2, nofun⟩

section

variable [Configuration] {t₀ t : Time} {cl cl' : Client} {φ φ' : Phase} {ch : SocketChange}

namespace Client.Wakeable

omit [Configuration] in
/-- Outside of `_sockDelayedConnect` and of an `ERROR` callback, a client that waits has something
to wake it. -/
theorem wakes (hcl : cl.Wakeable φ) (hφ : φ ≠ .running .delayedConnect)
    (hfailing : ∀ next, φ ≠ .failing next) (hstate : cl.state = .waitingForDns) :
    cl.dnsPending ≠ [] ∨ cl.dnsFinished = true ∨ φ' = .running .delayedConnect ∨
      ∃ next, φ' = .failing next := by
  rcases hcl.waiting hstate with h | h | h | ⟨next, h⟩
  · exact .inl h
  · exact .inr (.inl h)
  · exact absurd h hφ
  · exact absurd h (hfailing next)

omit [Configuration] in
/-- A step of `_sockDelayedConnect` with an event that processes the answer. -/
theorem of_processed {e : Event} (hcl : cl.Wakeable φ) (hφ' : φ' ≠ .running .delayedConnect)
    (hhistory : cl'.history = e :: cl.history) (he : e ≠ .entered .delayedConnect)
    (hprocessed : Processed (e :: cl.history))
    (hwaiting : cl'.state = .waitingForDns → cl'.dnsPending ≠ [] ∨ cl'.dnsFinished = true ∨
      φ' = .running .delayedConnect ∨ ∃ next, φ' = .failing next) : cl'.Wakeable φ' := by
  refine ⟨?_, ?_, hwaiting⟩
  · rw [hhistory]
    exact always_cons.mpr ⟨hprocessed, hcl.always⟩
  · rw [hhistory]
    exact ⟨fun h => absurd (Option.some.inj h) he, fun h => absurd h hφ'⟩

omit [Configuration] in
/-- A step with an event, outside of `_sockDelayedConnect`. -/
theorem cons {e : Event} (hcl : cl.Wakeable φ) (hφ : φ ≠ .running .delayedConnect)
    (hφ' : φ' ≠ .running .delayedConnect) (hhistory : cl'.history = e :: cl.history)
    (he : e ≠ .entered .delayedConnect)
    (hwaiting : cl'.state = .waitingForDns → cl'.dnsPending ≠ [] ∨ cl'.dnsFinished = true ∨
      φ' = .running .delayedConnect ∨ ∃ next, φ' = .failing next) : cl'.Wakeable φ' :=
  hcl.of_processed hφ' hhistory he (always_processed_cons hcl.always (mt hcl.entered.mp hφ)).now
    hwaiting

omit [Configuration] in
/-- A step with an event, after which the client does not wait. -/
theorem cons_of_state {e : Event} (hcl : cl.Wakeable φ) (hφ : φ ≠ .running .delayedConnect)
    (hφ' : φ' ≠ .running .delayedConnect) (hhistory : cl'.history = e :: cl.history)
    (he : e ≠ .entered .delayedConnect) (hstate : cl'.state ≠ .waitingForDns) : cl'.Wakeable φ' :=
  hcl.cons hφ hφ' hhistory he fun h => absurd h hstate

omit [Configuration] in
/-- A step without an event. -/
theorem of_history (hcl : cl.Wakeable φ) (hφ : φ ≠ .running .delayedConnect)
    (hφ' : φ' ≠ .running .delayedConnect) (hhistory : cl'.history = cl.history)
    (hwaiting : cl'.state = .waitingForDns → cl'.dnsPending ≠ [] ∨ cl'.dnsFinished = true ∨
      φ' = .running .delayedConnect ∨ ∃ next, φ' = .failing next) : cl'.Wakeable φ' := by
  refine ⟨?_, ?_, hwaiting⟩
  · rw [hhistory]
    exact hcl.always
  · rw [hhistory]
    exact ⟨fun h => absurd (hcl.entered.mp h) hφ, fun h => absurd h hφ'⟩

omit [Configuration] in
/-- A pass over the queue of a client that is connected. -/
theorem afterPass (hcl : cl.Wakeable φ) (p : PassResult) (hφ' : φ' ≠ .running .delayedConnect)
    (hφ : φ ≠ .running .delayedConnect) (hstate : cl.state = .connected) :
    (cl.afterPass p).Wakeable φ' := by
  have hpass : Always Processed (.pass :: cl.history) :=
    always_processed_cons hcl.always (mt hcl.entered.mp hφ)
  obtain ⟨halways, hhead⟩ := always_processed_wrote p.calls hpass nofun
  refine ⟨halways, ⟨fun h => absurd h hhead, fun h => absurd h hφ'⟩, fun h => ?_⟩
  exact absurd (hstate.symm.trans h) nofun

end Client.Wakeable

theorem UserStep.wakeable (h : UserStep t₀ t cl ch cl') (hcl : cl.Wakeable φ)
    (hφ : φ ≠ .running .delayedConnect) : cl'.Wakeable φ := by
  cases h with
  | stay | configure | touch => exact ⟨hcl.always, hcl.entered, hcl.waiting⟩
  | pass io hconnected _ _ _ =>
      exact hcl.afterPass _ hφ hφ (by simpa [Client.connected] using hconnected)
  | close _ => exact hcl.cons_of_state hφ hφ rfl (by simp) (by simp [Client.close_])
  | connect u ip port _ hattempt =>
      have hcall : (cl.log (.call u)).Wakeable φ := hcl.cons hφ hφ rfl (by simp) hcl.waiting
      cases hattempt with
      | refused =>
          have hrefused : (cl.log (.call u)).refused.Wakeable φ :=
            hcall.cons hφ hφ rfl (by simp) hcall.waiting
          exact hrefused.cons hφ hφ rfl (by simp) hrefused.waiting
      | opened socket _ _ =>
          -- a connect by address leaves the state behind
          have hstate : ((cl.log (.call u)).opened socket ip port).state ≠ .waitingForDns := by
            simp [Client.opened]
          have hopened : ((cl.log (.call u)).opened socket ip port).Wakeable φ :=
            hcall.cons_of_state hφ hφ rfl (by simp) hstate
          exact hopened.cons_of_state hφ hφ rfl (by simp) hstate
  | rejected u _ =>
      have hcall : (cl.log (.call u)).Wakeable φ := hcl.cons hφ hφ rfl (by simp) hcl.waiting
      exact hcall.cons hφ hφ rfl (by simp) hcall.waiting
  | wait host port =>
      have hcall : (cl.log (.call (.connectHost host port))).Wakeable φ :=
        hcl.cons hφ hφ rfl (by simp) hcl.waiting
      -- a new query is what the client waits for
      have hwaiting : ((cl.log (.call (.connectHost host port))).waiting host port).Wakeable φ :=
        hcall.cons hφ hφ rfl (by simp) fun _ => .inl (by simp [Client.waiting])
      exact hwaiting.cons hφ hφ rfl (by simp) hwaiting.waiting
  | answer q ip _ => exact hcl.cons hφ hφ rfl (by simp) fun _ => .inr (.inl rfl)
  | _ => exact hcl.cons hφ hφ rfl (by simp) hcl.waiting

theorem HandlerStep.wakeable (h : HandlerStep t₀ t cl φ ch cl' φ') (hcl : cl.Wakeable φ)
    (hsucceeds : Always NotGivenUp cl'.history) : cl'.Wakeable φ' := by
  cases h with
  | enter h _ =>
      refine ⟨always_processed_cons hcl.always (mt hcl.entered.mp (by simp)), ?_, fun hstate => ?_⟩
      · simp [Client.enter]
      · rcases hcl.waiting hstate with hpending | hfinished | hrunning | ⟨next, hfailing⟩
        · exact .inl hpending
        · by_cases hdelayed : h = .delayedConnect
          · exact .inr (.inr (.inl (by rw [hdelayed])))
          · exact .inr (.inl (by simpa [Client.enter, hdelayed] using hfinished))
        · cases hrunning
        · cases hfailing
  | resolved _ hattempt =>
      obtain ⟨past, hhistory⟩ := List.head?_eq_some_iff.mp (hcl.entered.mpr rfl)
      cases hattempt with
      | refused =>
          -- the connect has given up, which nobody looks at
          have hrefused := hsucceeds.now
          simp only [Client.refused, Client.log, hhistory] at hrefused
          exact hrefused.elim
      | opened socket _ _ =>
          refine hcl.of_processed (by simp) rfl (by simp) ?_ fun hstate => ?_
          · rw [hhistory]
            trivial
          · -- the client is `CONNECTING`
            cases hstate
  | unresolved _ =>
      obtain ⟨past, hhistory⟩ := List.head?_eq_some_iff.mp (hcl.entered.mpr rfl)
      refine hcl.of_processed (by simp) rfl (by simp) ?_ fun _ => .inr (.inr (.inr ⟨_, rfl⟩))
      rw [hhistory]
      trivial
  | pass activity io hstate _ _ _ => exact hcl.afterPass _ (by simp) (by simp) hstate
  | writeFailed next e _ =>
      have hscan : cl.afterFailedScan.Wakeable (.cleaning next) :=
        hcl.cons (by simp) (by simp) rfl (by simp [Client.firstError])
          (hcl.wakes (by simp) (by simp))
      exact hscan.cons (by simp) (by simp) rfl (by simp) (hscan.wakes (by simp) (by simp))
  | failed next =>
      exact hcl.cons_of_state (by simp) (Phase.ne_running (Phase.yields_notify next []) _) rfl
        (by simp) (by simp [Client.close_])
  | cleaned next _ =>
      exact hcl.cons (by simp) (Phase.ne_running (Phase.yields_notify ..) _) rfl (by simp)
        (hcl.wakes (by simp) (by simp))
  | notified next stats rest =>
      exact hcl.cons (by simp) (Phase.ne_running (Phase.yields_notify ..) _) rfl (by simp)
        (hcl.wakes (by simp) (by simp))
  | nothingToWrite activity _ =>
      exact hcl.of_history (by simp) (Phase.ne_running (Phase.yields_notify _ []) _) rfl
        (hcl.wakes (by simp) (by simp))
  | notPolled _ _ hφ =>
      have hne : φ ≠ .running .delayedConnect := by rcases hφ with rfl | rfl <;> simp
      have hfailing (next : Continuation) : φ ≠ .failing next := by
        rcases hφ with rfl | rfl <;> simp
      exact hcl.of_history hne (by simp) rfl (hcl.wakes hne hfailing)
  | ready | announced | touched | poll | rxRenewed | nothingToRead | nothingDone =>
      exact hcl.of_history (by simp) (by simp) rfl (hcl.wakes (by simp) (by simp))
  | established _ _ =>
      exact hcl.cons_of_state (by simp) (by simp) rfl (by simp)
        (by simp [Client.log, Client.establish])
  | rxExpired | peerClosed | disconnected =>
      exact hcl.cons_of_state (by simp) (by simp) rfl (by simp)
        (by simp [Client.log, Client.close_])
  | _ => exact hcl.cons (by simp) (by simp) rfl (by simp) (hcl.wakes (by simp) (by simp))

theorem ClientRun.wakeable (h : ClientRun t cl φ) (hsucceeds : Always NotGivenUp cl.history) :
    cl.Wakeable φ := by
  have hnil : Always Processed [] := always_nil.mpr trivial
  refine ClientRun.holds (fun t => ⟨hnil, ⟨nofun, nofun⟩, nofun⟩) (fun t₀ t socket _ => ?_)
    (fun hrun hcl hsucceeds hstep => ?_) h hsucceeds
  · unfold Client.adopted
    split <;> exact ⟨hnil, ⟨nofun, nofun⟩, nofun⟩
  · cases hstep with
    | user hφ hstep => exact hstep.wakeable hcl (Phase.ne_running hφ _)
    | handler hstep => exact hstep.wakeable hcl hsucceeds

/-- In every state of every run in which no code of the manager is running, a client that is
`WAITING_FOR_DNS` has a query outstanding or an answer to be processed; and whenever
`_sockDelayedConnect` has processed an answer it has opened a socket, on which the client is
`CONNECTING` then, or delivered an error, after which the client has been closed, provided that no
connect that `_sockDelayedConnect` makes gives up. -/
theorem waiting_has_query {s : System} (hs : Reachable s) (hidle : s.control = .idle) {c : ClientId}
    (hcl : s.state.clients c = some cl) (hsucceeds : Always NotGivenUp cl.history) :
    (cl.state = .waitingForDns → cl.dnsPending ≠ [] ∨ cl.dnsFinished = true) ∧
      Always Processed cl.history ∧ reporting cl.history = false := by
  have hrun := hs.clientRun_idle hidle hcl
  have hwakeable := hrun.wakeable hsucceeds
  refine ⟨fun hstate => ?_, hwakeable.always, hrun.erring.not_reporting nofun⟩
  rcases hwakeable.waiting hstate with hpending | hfinished | hrunning | ⟨next, hfailing⟩
  · exact .inl hpending
  · exact .inr hfinished
  · cases hrunning
  · cases hfailing

end

section

attribute [local instance] Configuration.esp32

/-- A client asks for a connection by name and the answer is processed, when `socket` has the
outcomes `sockets`. -/
def resolvedWith (sockets : List ℤ) : List Label :=
  [.ext .newClient, .ext (.outcomes { sockets, connects := [none], queries := [.inProgress] }),
    .ext (.call 0 (.connectHost "host" 80)),
    .ext (.dnsFound 0 ⟨0, "host", 80⟩ (some (.v4 0x08080808))), .start .cycle]

/-- The client asks again while it is connecting, and waits for the second answer. -/
theorem waiting_has_query_again :
    ∃ s cl, Reachable s ∧ s.state.clients 0 = some cl ∧ cl.state = .waitingForDns ∧
      (cl.dnsPending ≠ [] ∨ cl.dnsFinished = true) := by
  obtain ⟨s, cl, hs, hidle, hcl, hstate, hsucceeds⟩ := exists_idle_client
    (P := fun cl => cl.state = .waitingForDns ∧ Always NotGivenUp cl.history)
    (resolvedWith [48] ++
      [.ext (.outcomes { queries := [.inProgress] }), .ext (.call 0 (.connectHost "host" 80))]) 0
    (by decide +kernel)
  exact ⟨s, cl, hs, hcl, hstate, (waiting_has_query hs hidle hcl hsucceeds).1 hstate⟩

/-- There is no socket for the connection: the client waits on. -/
theorem not_waiting_has_query :
    ∃ s cl, Reachable s ∧ s.control = .idle ∧ s.state.clients 0 = some cl ∧
      ¬ (cl.state = .waitingForDns → cl.dnsPending ≠ [] ∨ cl.dnsFinished = true) :=
  exists_idle_client (resolvedWith []) 0 (by decide +kernel)

end

end AsyncTcpSock
