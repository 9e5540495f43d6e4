import AsyncTcpSock.ClientInvariants
import AsyncTcpSock.Refinement
import AsyncTcpSock.Runs
import AsyncTcpSock.WriteQueue

/-!
# Connect calls on open clients

`connect(ip, port)` rejects a client that is open and leaves it as it is. `connect(host, port)`
makes no check of its own: it does the same when the resolver has the address or fails, but a query
that has to wait changes the state and the port of the live connection. A socket whose connection
has been announced is then announced again.
-/

namespace AsyncTcpSock

open Reentrant

/-! ## The property -/

/-- A connect call that has led from `cl` to `cl'` has returned false and has no effect. -/
structure Client.Rejects (cl cl' : Client) : Prop where
  returned : cl'.history.head? = some (.returned false)
  state : cl'.state = cl.state
  socket : cl'.socket = cl.socket
  ip : cl'.ip = cl.ip
  port : cl'.port = cl.port
  writeQueue : cl'.writeQueue = cl.writeQueue
  writeSpaceRemaining : cl'.writeSpaceRemaining = cl.writeSpaceRemaining

/-- The connect call `u` of client `c` is rejected in world `w`. -/
def World.RejectsCall [Configuration] (w : World) (c : ClientId) (u : Call) : Prop :=
  ∃ w' cl cl', (Ext.call c u).apply w = some w' ∧ w.clients c = some cl ∧
    w'.clients c = some cl' ∧ cl.Rejects cl'

/-- `CONNECT` has been delivered for the socket that is open. -/
def announced : List Event → Bool
  | [] => false
  | .callback .connect :: _ => true
  | .opened _ _ _ :: _ => false
  | .closed _ :: _ => false
  | _ :: past => announced past

/-- The last event is not a second `CONNECT` for one socket. -/
def AnnouncedOnce : List Event → Prop
  | .callback .connect :: past => announced past = false
  | _ => True

/-- The last event is not a query that has to wait while the socket that is open has been
announced. -/
def NoQueryOnceAnnounced : List Event → Prop
  | .query _ :: past => announced past = false
  | _ => True

instance : DecidablePred AnnouncedOnce := fun past =>
  decidable_of_bool
    (match past with
      | .callback .connect :: past => announced past = false
      | _ => true)
    (by unfold AnnouncedOnce; split <;> simp)

instance : DecidablePred NoQueryOnceAnnounced := fun past =>
  decidable_of_bool
    (match past with
      | .query _ :: past => announced past = false
      | _ => true)
    (by unfold NoQueryOnceAnnounced; split <;> simp)

/-! ## The calls -/

section

variable [Configuration] {w : World} {c : ClientId} {cl : Client}

omit [Configuration] in
/-- `connect(ip, port)` on an open client. -/
theorem wp_connectIP_of_isOpen {C : Contract World Yield Fault} {ip : IPAddress} {port : UInt16}
    {Q : Bool → World → Prop} (hcl : w.clients c = some cl) (hopen : cl.isOpen = true)
    (hQ : Q false (w.put c cl.refused w.outcomes w.clock)) :
    wp C (ClientBase.connectIP c ip port) Q w := by
  rw [ClientBase.connectIP, wp_bind, Proc.wp_this, hcl, Option.elim_some, Proc.wp_ite, if_pos hopen,
    wp_bind, Proc.wp_update, hcl]
  exact hQ

omit [Configuration] in
/-- A call that is refused, or rejected before it comes that far. -/
theorem Client.Rejects.of_calls (u : Call) : cl.Rejects (((cl.log (.call u)).refused).log
    (.returned false)) ∧ cl.Rejects ((cl.log (.call u)).log (.returned false)) :=
  ⟨⟨rfl, rfl, rfl, rfl, rfl, rfl, rfl⟩, ⟨rfl, rfl, rfl, rfl, rfl, rfl, rfl⟩⟩

/-- An open client rejects `connect(ip, port)`. -/
theorem rejectsCall_connectIP (hcl : w.clients c = some cl) (hopen : cl.isOpen = true)
    (ip : IPAddress) (port : UInt16) : w.RejectsCall c (.connectIP ip port) := by
  have hwp : wp faultless (Call.routine c (.connectIP ip port))
      (fun _ w' => ∃ cl', w'.clients c = some cl' ∧ cl.Rejects cl') w := by
    rw [Call.routine, wp_bind, Proc.wp_log, hcl, Option.elim_some, wp_bind]
    refine wp_connectIP_of_isOpen (World.put_clients_self ..) hopen ?_
    rw [Proc.wp_log, World.put_clients_self, Option.elim_some]
    exact ⟨_, World.put_clients_self .., (Client.Rejects.of_calls _).1⟩
  obtain ⟨w', hw', cl', hcl', hrejects⟩ := exists_exec_of_wp hwp
  exact ⟨w', cl, cl', hw', hcl, hcl', hrejects⟩

/-- What a call of `connect(host, port)` on an open client does depends on the resolver. -/
theorem exists_connectHost (hcl : w.clients c = some cl) (hopen : cl.isOpen = true) (host : String)
    (port : UInt16) :
    ∃ w' cl', (Ext.call c (.connectHost host port)).apply w = some w' ∧ w'.clients c = some cl' ∧
      if w.outcomes.queries.headD (.failed (-1)) = .inProgress then
        cl'.history.head? = some (.returned true) else cl.Rejects cl' := by
  have hwp : wp faultless (Call.routine c (.connectHost host port))
      (fun _ w' => ∃ cl', w'.clients c = some cl' ∧
        if w.outcomes.queries.headD (.failed (-1)) = .inProgress then
          cl'.history.head? = some (.returned true) else cl.Rejects cl') w := by
    rw [Call.routine, wp_bind, Proc.wp_log, hcl, Option.elim_some, wp_bind, ClientBase.connectHost,
      wp_bind, Proc.gethostbyname, Proc.wp_take, World.put_outcomes, World.put_clock,
      World.put_elapse]
    cases w.outcomes.queries.headD (.failed (-1)) with
    | cached ip =>
        -- a cached answer leads to the connect by address, which refuses an open client
        refine wp_connectIP_of_isOpen (World.put_clients_self ..) hopen ?_
        rw [Proc.wp_log, World.put_clients_self, Option.elim_some, World.put_put, World.put_put]
        exact ⟨_, World.put_clients_self .., (Client.Rejects.of_calls _).1⟩
    | inProgress =>
        rw [wp_bind, Proc.wp_update, World.put_clients_self, Option.elim_some, wp_pure, Proc.wp_log,
          World.put_clients_self, Option.elim_some]
        exact ⟨_, World.put_clients_self .., rfl⟩
    | failed err =>
        rw [wp_pure, Proc.wp_log, World.put_clients_self, Option.elim_some]
        exact ⟨_, World.put_clients_self .., (Client.Rejects.of_calls _).2⟩
  obtain ⟨w', hw', cl', hcl', h⟩ := exists_exec_of_wp hwp
  exact ⟨w', cl', hw', hcl', h⟩

/-- It rejects `connect(host, port)` unless the answer has to be waited for. -/
theorem rejectsCall_connectHost (hcl : w.clients c = some cl) (hopen : cl.isOpen = true)
    (host : String) (port : UInt16) :
    w.RejectsCall c (.connectHost host port) ↔
      w.outcomes.queries.headD (.failed (-1)) ≠ .inProgress := by
  obtain ⟨w', cl', hw', hcl', h⟩ := exists_connectHost hcl hopen host port
  constructor
  · rintro ⟨w₁, cl₁, cl₁', hw₁, hcl₁, hcl₁', hrejects⟩ hquery
    obtain rfl := Option.some.inj (hw'.symm.trans hw₁)
    obtain rfl := Option.some.inj (hcl'.symm.trans hcl₁')
    -- the call has returned true
    rw [if_pos hquery, hrejects.returned] at h
    cases h
  · intro hquery
    rw [if_neg hquery] at h
    exact ⟨w', cl, cl', hw', hcl, hcl', h⟩

end

/-! ## The invariant -/

/-- A socket has been announced once, and then the client is connected as long as it is open. -/
structure Client.Announced (cl : Client) : Prop where
  /-- No socket has been announced twice. -/
  always : Always AnnouncedOnce cl.history
  /-- A client whose socket has been announced is connected. -/
  connected : announced cl.history = true → cl.state = .connected

section

variable [Configuration] {t₀ t : Time} {cl cl' : Client} {φ φ' : Phase} {ch : SocketChange}

namespace Client.Announced

omit [Configuration] in
/-- The socket of a client that is not connected has not been announced. -/
theorem announced_of_state (hcl : cl.Announced) (hstate : cl.state ≠ .connected) :
    announced cl.history = false := by
  by_contra h
  exact hstate (hcl.connected (by simpa using h))

omit [Configuration] in
/-- A pass announces nothing. -/
theorem afterPass (hcl : cl.Announced) (p : PassResult) : (cl.afterPass p).Announced := by
  have hsame : announced (cl.afterPass p).history = announced cl.history :=
    eq_of_wrote p.calls fun _ _ => rfl
  refine ⟨always_wrote _ (fun _ _ _ => trivial) (always_cons.mpr ⟨trivial, hcl.always⟩), ?_⟩
  rw [hsame]
  exact hcl.connected

/-- A socket that is closed is no longer announced. -/
theorem close_ (hcl : cl.Announced) : cl.close_.Announced :=
  ⟨always_cons.mpr ⟨trivial, hcl.always⟩, nofun⟩

omit [Configuration] in
/-- Neither is a new one. -/
theorem attempt {ip : IPAddress} {port : UInt16} {success : Bool} (hcl : cl.Announced)
    (h : Attempt ip port cl ch cl' success) : cl'.Announced := by
  cases h with
  | refused => exact ⟨always_cons.mpr ⟨trivial, hcl.always⟩, hcl.connected⟩
  | opened socket _ _ => exact ⟨always_cons.mpr ⟨trivial, hcl.always⟩, nofun⟩

end Client.Announced

/-- A step of user code announces nothing, and no query is made that could lead to a second
announcement. -/
theorem UserStep.announcedOnce (h : UserStep t₀ t cl ch cl') (hcl : cl.Announced)
    (hquery : Always NoQueryOnceAnnounced cl'.history) : cl'.Announced := by
  cases h with
  | stay | configure | touch => exact ⟨hcl.always, hcl.connected⟩
  | pass io _ _ _ _ => exact hcl.afterPass _
  | close _ => exact hcl.close_
  | connect u ip port _ hattempt =>
      have hcall : (cl.log (.call u)).Announced :=
        ⟨always_cons.mpr ⟨trivial, hcl.always⟩, hcl.connected⟩
      have hattempted := hcall.attempt hattempt
      exact ⟨always_cons.mpr ⟨trivial, hattempted.always⟩, hattempted.connected⟩
  | rejected u _ =>
      refine ⟨?_, hcl.connected⟩
      simpa [Client.log, AnnouncedOnce] using hcl.always
  | wait host port =>
      -- the state changes, but the socket has not been announced
      have hnot : announced cl.history = false := (always_cons.mp hquery).2.now
      refine ⟨?_, fun h => absurd (hnot.symm.trans h) Bool.false_ne_true⟩
      simpa [Client.log, Client.waiting, AnnouncedOnce] using hcl.always
  | _ => exact ⟨always_cons.mpr ⟨trivial, hcl.always⟩, hcl.connected⟩

/-- A step of a handler announces a socket that has not been announced. -/
theorem HandlerStep.announcedOnce (h : HandlerStep t₀ t cl φ ch cl' φ') (hcl : cl.Announced) :
    cl'.Announced := by
  cases h with
  | established hstate _ =>
      exact ⟨always_cons.mpr ⟨hcl.announced_of_state hstate, hcl.always⟩, fun _ => rfl⟩
  | pass activity io _ _ _ _ => exact hcl.afterPass _
  | failed | rxExpired | peerClosed => exact hcl.close_
  | resolved _ hattempt => exact hcl.attempt hattempt
  | writeFailed next e _ =>
      refine ⟨?_, hcl.connected⟩
      simpa [Client.log, Client.afterFailedScan, Client.firstError, AnnouncedOnce] using hcl.always
  | disconnected hstate =>
      have hnot := hcl.announced_of_state (by simp [hstate])
      exact ⟨always_cons.mpr ⟨trivial, hcl.always⟩,
        fun h => absurd (hnot.symm.trans h) Bool.false_ne_true⟩
  | ready | announced | nothingToWrite | touched | notPolled | poll | rxRenewed | nothingToRead |
    nothingDone => exact ⟨hcl.always, hcl.connected⟩
  | _ => exact ⟨always_cons.mpr ⟨trivial, hcl.always⟩, hcl.connected⟩

/-- Every client that a run comes to has announced its sockets once. -/
theorem ClientRun.announcedOnce (h : ClientRun t cl φ)
    (hquery : Always NoQueryOnceAnnounced cl.history) : cl.Announced := by
  have hnil : Always AnnouncedOnce [] := always_nil.mpr trivial
  refine ClientRun.holds (I := fun cl _ => cl.Announced) (fun t => ⟨hnil, nofun⟩)
    (fun t₀ t socket _ => ?_) (fun _ hcl hquery hstep => ?_) h hquery
  · unfold Client.adopted
    split <;> exact ⟨hnil, nofun⟩
  · cases hstep with
    | user _ hstep => exact hstep.announcedOnce hcl hquery
    | handler hstep => exact hstep.announcedOnce hcl

/-- In every state of every run, a client that is open rejects `connect(host, port)` exactly when
the query does not have to wait, and it always rejects `connect(ip, port)`; and no socket is
announced by a second `CONNECT`, provided that no query has to wait while the socket that is open
has been announced. -/
theorem open_client_rejects_connect {s : System} (hs : Reachable s) {c : ClientId}
    (hcl : s.state.clients c = some cl) :
    (cl.isOpen = true → ∀ host port, s.state.RejectsCall c (.connectHost host port) ↔
        s.state.outcomes.queries.headD (.failed (-1)) ≠ .inProgress) ∧
      (cl.isOpen = true → ∀ ip port, s.state.RejectsCall c (.connectIP ip port)) ∧
      (Always NoQueryOnceAnnounced cl.history → Always AnnouncedOnce cl.history) := by
  refine ⟨fun hopen host port => rejectsCall_connectHost hcl hopen host port,
    fun hopen ip port => rejectsCall_connectIP hcl hopen ip port, fun hquery => ?_⟩
  obtain ⟨φ, hrun⟩ := hs.clientRun hcl
  exact (hrun.announcedOnce hquery).always

end

section

attribute [local instance] Configuration.esp32

/-- A client connects and `CONNECT` is delivered, with `queries` the answers of the resolver to
come. -/
def announcedWith (queries : List DnsOutcome) : List Label :=
  [.ext .newClient,
    .ext (.outcomes {
      sockets := [48], connects := [none], queries
      sockopts := [.socketError 0, .socketError 0] }),
    .ext (.call 0 (.connectIP (.v4 1) 80)), .start (.handle .writeable 0), .resume]

/-- The client is asked to connect by name, and its socket is still writable. -/
def askedAgain : List Label :=
  [.ext (.call 0 (.connectHost "host" 80)), .start (.handle .writeable 0)]

/-- The resolver knows the address: the socket is announced once. -/
theorem open_client_rejects_connect_cached :
    ∃ s cl, Reachable s ∧ s.state.clients 0 = some cl ∧ announced cl.history = true ∧
      Always AnnouncedOnce cl.history := by
  obtain ⟨s, cl, hs, hcl, hannounced, hquery⟩ := exists_reachable_client
    (P := fun cl => announced cl.history = true ∧ Always NoQueryOnceAnnounced cl.history)
    (announcedWith [.cached (.v4 2)] ++ askedAgain) 0 (by decide +kernel)
  exact ⟨s, cl, hs, hcl, hannounced, (open_client_rejects_connect hs hcl).2.2 hquery⟩

/-- The query has to wait: the call is not rejected, and the socket is announced twice. -/
theorem not_open_client_rejects_connect :
    (∃ s cl, Reachable s ∧ s.state.clients 0 = some cl ∧ cl.isOpen = true ∧
      ¬ s.state.RejectsCall 0 (.connectHost "host" 80)) ∧
    ∃ s cl, Reachable s ∧ s.state.clients 0 = some cl ∧ ¬ Always AnnouncedOnce cl.history := by
  constructor
  · obtain ⟨s, hs, hquery, hclient⟩ := exists_reachable
      (P := fun s => s.state.outcomes.queries.headD (.failed (-1)) = .inProgress ∧
        (s.state.clients 0).any (·.isOpen) = true)
      (announcedWith [.inProgress]) (by decide +kernel)
    obtain ⟨cl, hcl, hopen⟩ := (Option.any_eq_true _ _).mp hclient
    refine ⟨s, cl, hs, hcl, hopen, fun h => ?_⟩
    exact (rejectsCall_connectHost hcl hopen "host" 80).mp h hquery
  · exact exists_reachable_client (announcedWith [.inProgress] ++ askedAgain) 0 (by decide +kernel)

end

end AsyncTcpSock
