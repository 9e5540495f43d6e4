import AsyncTcpSock.ClientInvariants
import AsyncTcpSock.Refinement
import AsyncTcpSock.Runs
import AsyncTcpSock.WriteQueue

/-!
# Clients that may be destroyed

`freeable` tells user code that it may destroy a client. It looks at the socket and at the state
only, while a DNS query carries the address of the client until it is answered. A client without a
socket is freeable at once, also when it is `WAITING_FOR_DNS`.
-/

namespace AsyncTcpSock

open Reentrant

/-! ## The property -/

/-- The queries that are still unanswered at the end of a history. -/
def unanswered : List Event → List DnsQuery
  | [] => []
  | .query q :: past => unanswered past ++ [q]
  | .answer q _ :: past => (unanswered past).erase q
  | _ :: past => unanswered past

/-- Whether in a history, at whose end the client has a socket or not, every query was begun with a
socket, and no query was unanswered when the client was closed. -/
def keepsQueries : Bool → List Event → Bool
  | _, [] => true
  | isOpen, .query _ :: past => isOpen && keepsQueries isOpen past
  | _, .closed wasOpen :: past => (unanswered past).isEmpty && keepsQueries wasOpen past
  | _, .opened _ _ _ :: past => keepsQueries false past
  | isOpen, _ :: past => keepsQueries isOpen past

/-! ## The invariant -/

/-- The queries to be answered are the ones that the history tells of, and if the history keeps
them, then they belong to a client that is not freeable. -/
structure Client.Kept (cl : Client) : Prop where
  /-- The queries are those that the history tells of. -/
  pending : cl.dnsPending = unanswered cl.history
  /-- They belong to a client that is not freeable. -/
  kept : keepsQueries cl.isOpen cl.history = true → cl.dnsPending ≠ [] →
    cl.isOpen = true ∧ cl.state ≠ .disconnected

section

variable [Configuration] {t₀ t : Time} {cl cl' : Client} {φ φ' : Phase} {ch : SocketChange}

namespace Client.Kept

omit [Configuration] in
/-- A step that concerns neither the socket nor the queries. -/
theorem of_eq (hcl : cl.Kept) (hpending : cl'.dnsPending = cl.dnsPending)
    (hsocket : cl'.socket = cl.socket)
    (hunanswered : unanswered cl'.history = unanswered cl.history)
    (hkeeps : keepsQueries cl'.isOpen cl'.history = keepsQueries cl'.isOpen cl.history)
    (hstate : cl'.state = .disconnected → cl.state = .disconnected) : cl'.Kept := by
  have hopen : cl'.isOpen = cl.isOpen := by rw [Client.isOpen, hsocket, Client.isOpen]
  refine ⟨by rw [hpending, hunanswered, hcl.pending], fun h hne => ?_⟩
  rw [hkeeps, hopen] at h
  rw [hpending] at hne
  obtain ⟨hcl_open, hcl_state⟩ := hcl.kept h hne
  exact ⟨hopen.trans hcl_open, mt hstate hcl_state⟩

omit [Configuration] in
/-- An event that concerns neither. -/
theorem log (hcl : cl.Kept) {e : Event}
    (hunanswered : ∀ past, unanswered (e :: past) = unanswered past)
    (hkeeps : ∀ isOpen past, keepsQueries isOpen (e :: past) = keepsQueries isOpen past) :
    (cl.log e).Kept :=
  hcl.of_eq rfl rfl (hunanswered _) (hkeeps _ _) id

omit [Configuration] in
/-- A pass makes no query. -/
theorem afterPass (hcl : cl.Kept) (p : PassResult) : (cl.afterPass p).Kept := by
  refine hcl.of_eq rfl rfl ?_ ?_ id
  · exact eq_of_wrote p.calls fun _ _ => rfl
  · exact eq_of_wrote (f := keepsQueries _) p.calls fun _ _ => rfl

/-- A client may be closed when its queries have been answered. -/
theorem close_ (hcl : cl.Kept) : cl.close_.Kept := by
  refine ⟨hcl.pending, fun h hne => absurd ?_ hne⟩
  rw [Client.close_, keepsQueries, Bool.and_eq_true, List.isEmpty_iff] at h
  exact hcl.pending.trans h.1

omit [Configuration] in
/-- A client without a socket has no queries, so it may get one. -/
theorem attempt {ip : IPAddress} {port : UInt16} {success : Bool} (hcl : cl.Kept)
    (h : Attempt ip port cl ch cl' success) : cl'.Kept := by
  cases h with
  | refused => exact hcl.log (fun _ => rfl) fun _ _ => rfl
  | opened socket hclosed _ =>
      refine ⟨hcl.pending, fun h hne => ?_⟩
      have hkeeps : keepsQueries cl.isOpen cl.history = true := by
        rw [hclosed]
        exact h
      exact absurd (hclosed.symm.trans (hcl.kept hkeeps hne).1) nofun

end Client.Kept

/-- A step of user code keeps the queries. -/
theorem UserStep.kept (h : UserStep t₀ t cl ch cl') (hcl : cl.Kept) : cl'.Kept := by
  cases h with
  | stay | configure | touch => exact hcl.of_eq rfl rfl rfl rfl id
  | call u _ => exact hcl.log (fun _ => rfl) fun _ _ => rfl
  | commit owned data _ _ _ => exact hcl.of_eq rfl rfl rfl rfl id
  | pass io _ _ _ _ => exact hcl.afterPass _
  | close _ => exact hcl.close_
  | connect u ip port _ hattempt =>
      have hcall : (cl.log (.call u)).Kept := hcl.log (fun _ => rfl) fun _ _ => rfl
      exact (hcall.attempt hattempt).log (fun _ => rfl) fun _ _ => rfl
  | rejected u _ =>
      have hcall : (cl.log (.call u)).Kept := hcl.log (fun _ => rfl) fun _ _ => rfl
      exact hcall.log (fun _ => rfl) fun _ _ => rfl
  | wait host port =>
      have hcall : (cl.log (.call (.connectHost host port))).Kept :=
        hcl.log (fun _ => rfl) fun _ _ => rfl
      have hwaiting : ((cl.log (.call (.connectHost host port))).waiting host port).Kept := by
        refine ⟨?_, fun h _ => ?_⟩
        · exact congrArg (· ++ _) hcall.pending
        · -- the query was begun with a socket
          rw [Client.waiting, keepsQueries, Bool.and_eq_true] at h
          exact ⟨h.1, nofun⟩
      exact hwaiting.log (fun _ => rfl) fun _ _ => rfl
  | answer q ip _ =>
      -- an answer ends its query in the history as in the list
      refine ⟨congrArg (·.erase q) hcl.pending, fun h hne => hcl.kept h fun hnil => hne ?_⟩
      rw [Client.dnsFound, hnil, List.erase_nil]

/-- A step of a handler keeps the queries. -/
theorem HandlerStep.kept (h : HandlerStep t₀ t cl φ ch cl' φ') (hcoherent : cl.Coherent)
    (hcl : cl.Kept) : cl'.Kept := by
  cases h with
  | pass activity io _ _ _ _ => exact hcl.afterPass _
  | failed | rxExpired | peerClosed => exact hcl.close_
  | resolved _ hattempt => exact hcl.attempt hattempt
  | established _ _ => exact hcl.of_eq rfl rfl rfl rfl nofun
  | disconnected hstate =>
      -- the client has been closed, so that it has no queries
      refine ⟨hcl.pending, fun h hne => ?_⟩
      have hopen := (hcl.kept h hne).1
      exact absurd ((hcoherent.disconnecting hstate).symm.trans hopen) nofun
  | _ => exact hcl.of_eq rfl rfl rfl rfl id

/-- Every client that a run comes to keeps its queries. -/
theorem ClientRun.kept (h : ClientRun t cl φ) : cl.Kept := by
  induction h with
  | new t => exact ⟨rfl, fun _ h => absurd rfl h⟩
  | adopted t₀ t socket _ _ =>
      unfold Client.adopted
      split <;> exact ⟨rfl, fun _ h => absurd rfl h⟩
  | wait _ _ ih => exact ih
  | step hrun _ hstep ih =>
      cases hstep with
      | user _ hstep => exact hstep.kept ih
      | handler hstep => exact hstep.kept hrun.coherent ih

/-- In every state of every run, a client that is freeable has no query that is still to be
answered, provided that every query of the client was begun while it had a socket, and that none was
unanswered when it was closed. -/
theorem freeable_has_no_query {s : System} (hs : Reachable s) {c : ClientId}
    (hcl : s.state.clients c = some cl) (hkeeps : keepsQueries cl.isOpen cl.history = true)
    (hfreeable : cl.freeable = true) : cl.dnsPending = [] := by
  obtain ⟨φ, hrun⟩ := hs.clientRun hcl
  by_contra hne
  obtain ⟨hopen, hstate⟩ := hrun.kept.kept hkeeps hne
  simp [Client.freeable, hopen, hstate] at hfreeable

end

section

attribute [local instance] Configuration.esp32

/-- A client that is connected asks for another host and is closed after the answer. -/
theorem freeable_has_no_query_answered :
    ∃ s cl, Reachable s ∧ s.state.clients 0 = some cl ∧ cl.freeable = true ∧
      cl.dnsPending = [] := by
  obtain ⟨s, cl, hs, hcl, hfreeable, hkeeps⟩ := exists_reachable_client
    (P := fun cl => cl.freeable = true ∧ keepsQueries cl.isOpen cl.history = true)
    [.ext .newClient,
      .ext (.outcomes { sockets := [48], connects := [none], queries := [.inProgress] }),
      .ext (.call 0 (.connectIP (.v4 0x08080808) 80)), .ext (.call 0 (.connectHost "host" 80)),
      .ext (.dnsFound 0 ⟨0, "host", 80⟩ none), .ext (.call 0 .close)] 0 (by decide +kernel)
  exact ⟨s, cl, hs, hcl, hfreeable, freeable_has_no_query hs hcl hkeeps hfreeable⟩

/-- A client that has never been connected asks for a host, and is freeable while it waits. -/
theorem not_freeable_has_no_query :
    ∃ s cl, Reachable s ∧ s.state.clients 0 = some cl ∧
      ¬ (cl.freeable = true → cl.dnsPending = []) :=
  exists_reachable_client [.ext .newClient, .ext (.outcomes { queries := [.inProgress] }),
    .ext (.call 0 (.connectHost "host" 80))] 0 (by decide +kernel)

end

end AsyncTcpSock
