import AsyncTcpSock.Registry

/-!
# Accepted connections

`Server::_sockIsReadable` makes a client of a connection and hands it to the accept handler. Between
`accept` and the handler lie the constructor of the client, which registers it, and
`_configureSocket`; the code of the server looks at none of their results. Here is what the handler
can rely on whenever it is invoked, in a cycle or on its own.
-/

namespace AsyncTcpSock

open Reentrant Proc Manager

section

variable [Configuration]

/-- A client that has just been constructed for a descriptor: nothing has happened to it, and it is
connected unless the descriptor is 0. -/
structure Client.Accepted (cl : Client) : Prop where
  /-- It has the descriptor it was constructed for. -/
  isOpen : cl.isOpen = true
  /-- Nothing has been called or reported. -/
  history : cl.history = []
  /-- Nothing is queued. -/
  writeQueue : cl.writeQueue = []
  /-- A connected client has all of its write space. -/
  connected : 0 < cl.socket → cl.connected = true ∧ cl.space = initialWriteSpace

/-- What the accept handler of server `srv` finds when it is invoked for client `c`. -/
structure HandedOver (srv : ServerId) (c : ClientId) (w : World) : Prop where
  /-- The server is alive, listens and has a handler. -/
  server : ∃ s, w.servers srv = some s ∧ s.isOpen = true ∧ s.acceptHandler = true
  /-- The client has a descriptor, which is open unless `fcntl` has failed. -/
  client : ∃ cl, w.clients c = some cl ∧ cl.Accepted ∧
    (w.fcntlFailed = false → cl.socket ∈ w.descriptors)
  /-- There is no newer client. -/
  newest : w.nextClient = c + 1
  /-- The manager serves the client after all others. -/
  registered : ∃ earlier, w.clientList = earlier ++ [c]

variable {w w' : World} {good : StepCondition} {srv : ServerId} {s : Server}

/-- What `ClientBase(int socket)` makes. -/
theorem Client.accepted_adopted {socket : ℤ} (t₀ t : Time) (hsocket : 0 ≤ socket) :
    (Client.adopted t₀ t socket).Accepted := by
  have hopen : socket ≠ -1 := by omega
  unfold Client.adopted
  split
  · exact ⟨decide_eq_true hopen, rfl, rfl, fun _ => ⟨rfl, rfl⟩⟩
  · exact ⟨decide_eq_true hopen, rfl, rfl, fun hpos => absurd hpos ‹_›⟩

/-- A client that is constructed on a socket has it. -/
theorem Client.adopted_socket (t₀ t : Time) (socket : ℤ) :
    (Client.adopted t₀ t socket).socket = socket := by
  unfold Client.adopted
  split <;> rfl

/-- The construction of the client leaves the server as it is. -/
theorem HandedOver.of_change {fd : ℤ} (hs : w.servers srv = some s) (hopen : s.isOpen = true)
    (hhandler : s.acceptHandler = true) (h : Change (.newClientFrom fd) w w') :
    HandedOver srv w.nextClient w' := by
  cases h with
  | @newClientFrom _ _ w₁ o t₀ t ht₀ ht hfd hd =>
      have hdescriptor : w₁.fcntlFailed = false → fd ∈ w₁.descriptors := by
        intro hfcntl
        cases hd with
        | opened hacquire =>
            rw [(World.acquire_eq_some.mp hacquire).2.2]
            exact Finset.mem_insert_self ..
        | misconfigured _ => cases hfcntl
      obtain ⟨d, e, f, rfl⟩ := hd.frame
      refine ⟨⟨s, hs, hopen, hhandler⟩, ?_, rfl, ⟨w.clientList, rfl⟩⟩
      refine ⟨Client.adopted t₀ t fd, Function.update_self .., Client.accepted_adopted t₀ t hfd, ?_⟩
      rw [Client.adopted_socket]
      exact hdescriptor

/-! ## Runs -/

/-- What is known when a callback is invoked. -/
def AcceptedAt : Yield → World → Prop
  | .accept srv c, w => HandedOver srv c w
  | .client .., _ => True

/-- The handlers of clients keep the lists. -/
theorem acceptedClientRule :
    ClientRule good AcceptedAt (fun _ _ => True) World.Registry (fun _ _ => World.Registry) :=
  { (registryClientRule : ClientRule good _ _ World.Registry _) with
    yield := fun _ _ _ _ _ => trivial }

/-- So do the phases for clients. -/
theorem acceptedPhaseRule :
    PhaseRule good AcceptedAt (fun _ _ => True) World.Registry (fun _ _ => World.Registry) :=
  { (registryCycleRule : CycleRule good _ _ World.Registry _) with client := acceptedClientRule }

/-- A server hands over what it has accepted. -/
theorem wp_handleServer_handedOver {rest : List ServerId} (hs : w.servers srv = some s)
    (hsound : w.Sound) (hw : w.Registry) (hrest : w.serversProcessing = rest) :
    wp (systemContract good AcceptedAt fun _ _ => True) (handleServer srv)
      (fun _ w' => w'.Sound ∧ w'.Registry ∧ w'.serversProcessing = rest) w := by
  have hactive (o : Outcomes) (t : Time) :
      ((w.elapse o t).setServer srv { s with lastActive := t }).Sound ∧
        ((w.elapse o t).setServer srv { s with lastActive := t }).Registry := by
    have hw₁ : (w.elapse o t).Registry := { hw with }
    exact ⟨(hsound.elapse o t).setServer _ hs, hw₁.setServer _ hs⟩
  refine wp_handleServer_of hs hsound (fun o t _ => ?_) fun o t fd w₂ _ hhandler hopen hchange => ?_
  · exact ⟨(hactive o t).1, (hactive o t).2, hrest⟩
  · obtain ⟨hsound₁, hw₁⟩ := hactive o t
    -- user code may do anything in the handler, but the registry stays right
    refine wp_yield_of_stable (fun w => w.Sound ∧ w.Registry ∧ w.serversProcessing = rest) ?_ ?_ ?_
      fun _ hw => hw
    · exact ⟨hchange.sound hsound₁, hw₁.change hsound₁ hchange,
        hchange.frame.serversProcessing.trans hrest⟩
    · rintro w w' ⟨hsound, hw, hrest⟩ henv
      obtain ⟨e, -, hchange⟩ := exists_change hsound henv
      exact ⟨hchange.sound hsound, hw.change hsound hchange,
        hchange.frame.serversProcessing.trans hrest⟩
    · exact HandedOver.of_change (w := (w.elapse o t).setServer srv { s with lastActive := t })
        (Function.update_self ..) hopen hhandler hchange

/-- The phase for the servers hands over new clients only. -/
theorem wp_serving_handedOver (r : List ℤ) (hsound : w.Sound) (hw : w.Registry) :
    wp (systemContract good AcceptedAt fun _ _ => True) (serving r)
      (fun _ w' => w'.Sound ∧ w'.Registry) w :=
  wp_serverPhase (fun _ _ _ _ => wp_handleServer_handedOver) (fun _ _ _ hw _ => { hw with })
    (fun _ _ _ _ hw _ => { hw with }) (fun _ _ _ _ _ _ _ _ _ => trivial) hsound hw

/-- Whenever the manager invokes the accept handler of a server, the server is alive, listens and
has a handler, and the client is new: it has just been constructed for a descriptor that is open
(unless `fcntl` has failed), nothing has happened to it, it is connected (unless the descriptor is
0), and it has been registered as the last client. -/
theorem accept_hands_over {s s' : System} {l : machine.Label} {c : ClientId} (hs : Reachable s)
    (hstep : machine.step s l = some s') (hl : l.IsInternal)
    (haccept : s'.control.place = some (.accept srv c)) : HandedOver srv c s'.state := by
  have hop (op : Op) (w : World) (hsound : w.Sound) (hw : w.Registry) :
      wp (systemContract (fun _ _ _ => True) AcceptedAt fun _ _ => True) op.routine
        (fun _ w' => w'.Sound ∧ w'.Registry) w := by
    refine wp_op_of acceptedClientRule (fun srv s w hs hsound hw => ?_) (fun w hsound hw => ?_)
      hsound hw
    · exact wp_mono (wp_handleServer_handedOver hs hsound hw rfl)
        fun _ _ ⟨hsound', hw', _⟩ => ⟨hsound', hw'⟩
    · exact acceptedPhaseRule.wp_cycle_of_serving (fun _ hw => { hw with })
        (fun r _ => wp_serving_handedOver r) hsound hw
  have h := settles_of_ops hop .empty
    (fun _ _ _ hsound hw _ hchange => hw.change hsound hchange) hs hl hstep
  obtain ⟨w, control⟩ := s'
  obtain ⟨k, rfl⟩ := Control.place_eq_some.mp haccept
  exact h.1

end

section

attribute [local instance] Configuration.esp32

/-- In a cycle, a server that listens on descriptor 48 accepts a connection on descriptor 49. -/
theorem accept_hands_over_listening :
    ∃ s s' cl, Reachable s ∧ machine.step s (.start .cycle) = some s' ∧
      s'.state.clients 0 = some cl ∧ cl.socket = 49 ∧ HandedOver 0 0 s'.state := by
  obtain ⟨s, s', cl, hs, hstep, hplace, hcl, hsocket⟩ := exists_step_client
    (P := fun cl => cl.socket = 49)
    [.ext (.newServer .any 80), .ext (.onClient 0 true), .ext (.outcomes { sockets := [48] }),
      .ext (.beginServer 0), .ext (.outcomes { cycles := [([48], [])], accepts := [49] })]
    (.start .cycle) (.accept 0 0) 0 (by decide +kernel)
  exact ⟨s, s', cl, hs, hstep, hcl, hsocket, accept_hands_over hs hstep trivial hplace⟩

end

end AsyncTcpSock
