import AsyncTcpSock.ClientInvariants
import AsyncTcpSock.CycleRules

/-!
# State, socket and queue agree

A client that is connecting or connected has a socket; one that is disconnected or disconnecting has
none, and neither buffers nor used write space. This holds between any two steps and in every
callback.

Descriptors are assumed to be positive: a client that adopts descriptor `0` stays disconnected. The
assumption is that descriptor `0` is in use before the library starts.
-/

namespace AsyncTcpSock

open Reentrant

/-! ## Clients -/

section

variable [Configuration] {t₀ t : Time} {cl cl' : Client} {φ φ' : Phase} {ch : SocketChange}

/-- A coherent client that has no socket when it is disconnected, and whose write space is full when
it has no socket. -/
structure Client.Settled (cl : Client) : Prop extends cl.Coherent where
  /-- A disconnected client has no socket. -/
  disconnected : cl.state = .disconnected → cl.isOpen = false
  /-- Without a socket the write space is full. -/
  full : cl.isOpen = false → cl.writeSpaceRemaining = initialWriteSpace

namespace Client.Settled

/-- A client that is closed is settled. -/
theorem close_ (cl : Client) : cl.close_.Settled := ⟨.close_ cl, nofun, fun _ => rfl⟩

/-- A step that changes neither the state nor the socket nor the write space. -/
theorem of_eq (hcl : cl.Settled) (hcoherent : cl'.Coherent) (hstate : cl'.state = cl.state)
    (hsocket : cl'.socket = cl.socket) (hspace : cl'.writeSpaceRemaining = cl.writeSpaceRemaining) :
    cl'.Settled := by
  have hopen : cl'.isOpen = cl.isOpen := by rw [Client.isOpen, Client.isOpen, hsocket]
  refine ⟨hcoherent, ?_, ?_⟩
  · rw [hstate, hopen]
    exact hcl.disconnected
  · rw [hopen, hspace]
    exact hcl.full

/-- A step of an open client that is not disconnected. -/
theorem of_open (hcoherent : cl'.Coherent) (hopen : cl'.isOpen = true)
    (hstate : cl'.state ≠ .disconnected) : cl'.Settled :=
  ⟨hcoherent, fun h => absurd h hstate, fun h => absurd (hopen.symm.trans h) nofun⟩

/-- An event keeps a client settled. -/
theorem log {e : Event} (hcl : cl.Settled) : (cl.log e).Settled :=
  hcl.of_eq hcl.toCoherent.log rfl rfl rfl

/-- An attempt keeps a client settled. -/
theorem attempt {ip : IPAddress} {port : UInt16} {success : Bool} (hcl : cl.Settled)
    (h : Attempt ip port cl ch cl' success) : cl'.Settled := by
  have hcoherent := hcl.toCoherent.attempt h
  cases h with
  | refused => exact hcl.of_eq hcoherent rfl rfl rfl
  | opened socket _ hsocket => exact .of_open hcoherent (Client.isOpen_of_nonneg hsocket) nofun

/-- Only a client that is open has buffers to write. -/
theorem isOpen_of_queue (hcl : cl.Settled) (hqueue : cl.writeQueue ≠ []) : cl.isOpen = true := by
  by_contra hclosed
  exact hqueue (hcl.closed (by simpa using hclosed))

/-- A pass over the queue. -/
theorem afterPass {io : WriteIo} (hcl : cl.Settled) (hqueue : cl.writeQueue ≠ [])
    (hstate : cl.state = .connected) :
    (cl.afterPass (processQueue io cl.writeQueue)).Settled := by
  refine .of_open (hcl.toCoherent.afterPass hqueue) (hcl.isOpen_of_queue hqueue) ?_
  intro h
  exact absurd (hstate.symm.trans h) nofun

end Client.Settled

/-- A step of user code keeps a client settled. -/
theorem UserStep.settled (h : UserStep t₀ t cl ch cl') (hcl : cl.Settled) : cl'.Settled := by
  have hcoherent := h.coherent hcl.toCoherent
  cases h with
  | commit owned data hconnected _ _ =>
      have hstate : cl.state = .connected := by simpa [Client.connected] using hconnected
      refine .of_open hcoherent (hcl.connected hstate) fun h => ?_
      exact absurd (hstate.symm.trans h) (by simp)
  | pass io hconnected hqueue _ _ =>
      exact hcl.afterPass hqueue (by simpa [Client.connected] using hconnected)
  | close _ => exact .close_ cl
  | connect u ip port _ hattempt => exact (hcl.log.attempt hattempt).log
  | wait host port =>
      refine ⟨hcoherent, fun hdisconnected => ?_, hcl.full⟩
      -- the client is `WAITING_FOR_DNS`
      cases hdisconnected
  | _ => exact hcl.of_eq hcoherent rfl rfl rfl

/-- A step of a handler keeps a client settled. -/
theorem HandlerStep.settled (h : HandlerStep t₀ t cl φ ch cl' φ') (hcl : cl.Settled) :
    cl'.Settled := by
  have hcoherent := h.coherent hcl.toCoherent
  cases h with
  | established _ hopen => exact .of_open hcoherent hopen nofun
  | pass activity io hstate hqueue _ _ => exact hcl.afterPass hqueue hstate
  | failed | rxExpired | peerClosed => exact .close_ cl
  | resolved _ hattempt => exact hcl.attempt hattempt
  | disconnected hstate => exact ⟨hcoherent, fun _ => hcl.disconnecting hstate, hcl.full⟩
  | _ => exact hcl.of_eq hcoherent rfl rfl rfl

/-- A new client is settled. -/
theorem Client.settled_new : (Client.new t).Settled :=
  ⟨⟨nofun, nofun, nofun, fun _ => rfl⟩, fun _ => rfl, fun _ => rfl⟩

/-- A client that adopts a positive descriptor is connected. -/
theorem Client.settled_adopted {socket : ℤ} (hsocket : 0 < socket) :
    (Client.adopted t₀ t socket).Settled := by
  rw [Client.adopted, if_pos hsocket]
  have hopen : Client.isOpen { Client.new t₀ with
      socket, state := .connected, rxLastPacket := t } = true :=
    Client.isOpen_of_nonneg hsocket.le
  exact .of_open ⟨fun _ => hopen, by simp, by simp, fun _ => rfl⟩ hopen (by simp)

end

/-! ## The world -/

/-- Descriptor `0` is taken by something else, and the clients are settled. -/
structure World.Settled [Configuration] (w : World) : Prop where
  /-- Descriptor `0` is taken. -/
  reserved : 0 ∈ w.descriptors
  /-- No client has it, and all are settled. -/
  clients : ∀ c cl, w.clients c = some cl → cl.socket ≠ 0 ∧ cl.Settled
  /-- No server has it. -/
  servers : ∀ srv s, w.servers srv = some s → s.socket ≠ 0

/-- The world in which descriptor `0` is in use before the library starts. -/
def World.zeroTaken : World := { descriptors := {0} }

/-- A world without objects is sound. -/
theorem World.sound_zeroTaken : World.zeroTaken.Sound := { World.sound_empty with }

section

variable {w w₁ : World} {s s' : ℤ} {ch : SocketChange}

/-- No step closes descriptor `0` or hands it out. -/
theorem Descriptors.reserved (h : Descriptors w s ch w₁) (hch : ch.Relates s s') (hs : s ≠ 0)
    (hreserved : 0 ∈ w.descriptors) : 0 ∈ w₁.descriptors ∧ s' ≠ 0 := by
  -- a descriptor that is open is not handed out again
  have hacquire {fd : ℤ} {w' : World} (hw' : w.acquire fd = some w') : fd ≠ 0 := by
    rintro rfl
    exact (World.acquire_eq_some.mp hw').2.1 hreserved
  cases h with
  | kept =>
      obtain rfl : s' = s := hch
      exact ⟨hreserved, hs⟩
  | closed =>
      obtain rfl : s' = -1 := hch
      rw [World.closeFd_eq]
      refine ⟨?_, nofun⟩
      simp only
      split
      · exact hreserved
      · exact Finset.mem_erase.mpr ⟨hs.symm, hreserved⟩
  | opened hw₁ =>
      obtain ⟨-, rfl⟩ := hch
      refine ⟨?_, hacquire hw₁⟩
      obtain ⟨-, -, rfl⟩ := World.acquire_eq_some.mp hw₁
      exact Finset.mem_insert_of_mem hreserved
  | misconfigured hw₁ =>
      obtain ⟨-, rfl⟩ := hch
      exact ⟨hreserved, hacquire hw₁⟩

end

section

variable [Configuration] {w w' : World} {e : Ext}

namespace World.Settled

/-- Only the clients, the servers and the descriptors matter. -/
theorem of_eq (hw : w.Settled) (hclients : w'.clients = w.clients)
    (hservers : w'.servers = w.servers) (hdescriptors : w'.descriptors = w.descriptors) :
    w'.Settled := by
  refine ⟨hdescriptors ▸ hw.reserved, fun c cl hcl => ?_, fun srv s hs => ?_⟩
  · exact hw.clients c cl (hclients ▸ hcl)
  · exact hw.servers srv s (hservers ▸ hs)

/-- Worlds that agree are settled alike. -/
theorem agrees (hw : w.Settled) (h : w.Agrees w') : w'.Settled :=
  hw.of_eq h.clients h.servers h.descriptors

/-- A client is replaced, or removed. -/
theorem replaceClient {c : ClientId} {x : Option Client} (hw : w.Settled)
    (hreserved : 0 ∈ w'.descriptors) (hclients : w'.clients = Function.update w.clients c x)
    (hservers : w'.servers = w.servers) (hx : ∀ cl, x = some cl → cl.socket ≠ 0 ∧ cl.Settled) :
    w'.Settled := by
  refine ⟨hreserved, fun c' cl' hcl' => ?_, fun srv s hs => hw.servers srv s (hservers ▸ hs)⟩
  rw [hclients] at hcl'
  by_cases hne : c' = c
  · subst hne
    rw [Function.update_self] at hcl'
    exact hx cl' hcl'
  · rw [Function.update_of_ne hne] at hcl'
    exact hw.clients c' cl' hcl'

/-- A server is replaced, or removed. -/
theorem replaceServer {srv : ServerId} {x : Option Server} (hw : w.Settled)
    (hreserved : 0 ∈ w'.descriptors) (hservers : w'.servers = Function.update w.servers srv x)
    (hclients : w'.clients = w.clients) (hx : ∀ s, x = some s → s.socket ≠ 0) : w'.Settled := by
  refine ⟨hreserved, fun c cl hcl => hw.clients c cl (hclients ▸ hcl), fun srv' s' hs' => ?_⟩
  rw [hservers] at hs'
  by_cases hne : srv' = srv
  · subst hne
    rw [Function.update_self] at hs'
    exact hx s' hs'
  · rw [Function.update_of_ne hne] at hs'
    exact hw.servers srv' s' hs'

end World.Settled

/-- A move that settles its client settles the world. -/
theorem Move.settled {R : Time → Time → Client → SocketChange → Client → Prop} {c : ClientId}
    (h : Move R c w w')
    (hR : ∀ t₀ t cl ch cl', R t₀ t cl ch cl' →
      ch.Relates cl.socket cl'.socket ∧ (cl.Settled → cl'.Settled))
    (hw : w.Settled) : w'.Settled := by
  obtain ⟨o, hcl, ht, hstep, hd⟩ := h
  obtain ⟨hsocket, hcl₀⟩ := hw.clients c _ hcl
  obtain ⟨hch, hsettled⟩ := hR _ _ _ _ _ hstep
  obtain ⟨hreserved, hsocket'⟩ := hd.reserved hch hsocket hw.reserved
  obtain ⟨d, e, f, rfl⟩ := hd.frame
  refine hw.replaceClient hreserved rfl rfl fun cl' hcl' => ?_
  obtain rfl := Option.some.inj hcl'
  exact ⟨hsocket', hsettled hcl₀⟩

/-- A move of user code keeps the world settled. -/
theorem UserMove.settled {c : ClientId} (h : UserMove c w w') (hw : w.Settled) : w'.Settled :=
  Move.settled h (fun _ _ _ _ _ hstep => ⟨hstep.relates, hstep.settled⟩) hw

/-- So do the moves of a call. -/
theorem settled_of_userMoves {c : ClientId} (h : Relation.ReflTransGen (UserMove c) w w')
    (hw : w.Settled) : w'.Settled := by
  induction h with
  | refl => exact hw
  | tail _ hmove ih => exact UserMove.settled hmove ih

/-- A change that the environment makes keeps the world settled. -/
theorem Change.settled (h : Change e w w') (hw : w.Settled) : w'.Settled := by
  cases h with
  | call hmoves => exact settled_of_userMoves hmoves hw
  | newClient _ =>
      refine hw.replaceClient hw.reserved rfl rfl fun cl hcl => ?_
      obtain rfl := Option.some.inj hcl
      refine ⟨?_, Client.settled_new⟩
      show (-1 : ℤ) ≠ 0
      decide
  | newClientFrom _ _ hsocket hd =>
      obtain ⟨hreserved, hne⟩ := hd.reserved ⟨rfl, rfl⟩ (by simp) hw.reserved
      obtain ⟨d, e, f, rfl⟩ := hd.frame
      refine hw.replaceClient hreserved rfl rfl fun cl hcl => ?_
      obtain rfl := Option.some.inj hcl
      -- number 0 is taken, so that the descriptor is positive and the client connected
      refine ⟨?_, Client.settled_adopted (lt_of_le_of_ne hsocket hne.symm)⟩
      unfold Client.adopted
      split <;> exact hne
  | deleteClient hcl =>
      have hreserved :=
        (Descriptors.closed.reserved (.closed _) (hw.clients _ _ hcl).1 hw.reserved).1
      exact hw.replaceClient hreserved (by rw [World.removeClient, World.closeFd_clients])
        (World.closeFd_servers ..) (fun _ h => by cases h)
  | newServer _ =>
      refine hw.replaceServer hw.reserved rfl rfl fun s hs => ?_
      obtain rfl := Option.some.inj hs
      show (-1 : ℤ) ≠ 0
      decide
  | deleteServer hs =>
      have hreserved := (Descriptors.closed.reserved (.closed _) (hw.servers _ _ hs) hw.reserved).1
      exact hw.replaceServer hreserved (by rw [World.removeServer, World.closeFd_servers])
        (World.closeFd_clients ..) (fun _ h => by cases h)
  | notBegun => exact hw.of_eq rfl rfl rfl
  | begun hs _ hd =>
      obtain ⟨hreserved, hne⟩ := hd.reserved ⟨rfl, rfl⟩ (by simp) hw.reserved
      obtain ⟨d, e, f, rfl⟩ := hd.frame
      refine hw.replaceServer hreserved rfl rfl fun s' hs' => ?_
      obtain rfl := Option.some.inj hs'
      exact hne
  | ended hs =>
      have hreserved := (Descriptors.closed.reserved (.closed _) (hw.servers _ _ hs) hw.reserved).1
      refine hw.replaceServer hreserved (by rw [World.setServer, World.closeFd_servers])
        (World.closeFd_clients ..) fun s' hs' => ?_
      obtain rfl := Option.some.inj hs'
      show (-1 : ℤ) ≠ 0
      decide
  | onClient hs =>
      refine hw.replaceServer hw.reserved rfl rfl fun s' hs' => ?_
      obtain rfl := Option.some.inj hs'
      have hsocket := hw.servers _ _ hs
      exact hsocket
  | dnsFound hmove => exact UserMove.settled hmove hw
  | outcomes => exact hw.of_eq rfl rfl rfl

/-! ## The system -/

variable {good : StepCondition}

/-- Whatever happens keeps the world settled. -/
theorem settledRule :
    KeptRule (fun _ w => w.Sound ∧ w.Settled) (fun _ => World.Settled) World.Settled where
  handler := fun _ hw hmove =>
    hmove.settled (fun _ _ _ _ _ hstep => ⟨hstep.relates, hstep.settled⟩) hw
  user := fun _ hw hmove => UserMove.settled hmove hw
  change := fun _ hw hchange => hchange.settled hw
  update := fun _ _ hw hs hsocket => by
    refine hw.replaceServer hw.reserved rfl rfl fun s' hs' => ?_
    obtain rfl := Option.some.inj hs'
    exact hsocket ▸ hw.servers _ _ hs
  agrees := fun hw hagrees => hw.agrees hagrees
  yield := fun hsound hw => ⟨hsound, hw⟩
  staleClient := id
  staleServer := id

/-- In every state of every run, in callbacks as well, a client that is connecting or connected has
a socket, and one that is disconnected or disconnecting has no socket, an empty queue and full write
space. -/
theorem state_socket_queue_agree {s : System}
    (hs : machine.Reachable (fun _ _ _ => True) World.zeroTaken s) {c : ClientId} {cl : Client}
    (hcl : s.state.clients c = some cl) :
    (cl.state = .connecting ∨ cl.state = .connected → cl.socket ≠ -1) ∧
      (cl.state = .disconnected ∨ cl.state = .disconnecting →
        cl.socket = -1 ∧ cl.writeQueue = [] ∧ cl.writeSpaceRemaining = initialWriteSpace) := by
  have hinit : World.zeroTaken.Settled := ⟨Finset.mem_singleton_self 0, nofun, nofun⟩
  have hw : s.state.Settled := settledRule.holds_reachable (fun _ hw => hw.of_eq rfl rfl rfl)
    World.sound_zeroTaken hinit hs
  obtain ⟨-, hsettled⟩ := hw.clients c cl hcl
  refine ⟨fun hstate => ?_, fun hstate => ?_⟩
  · have hopen : cl.isOpen = true := hstate.elim hsettled.connecting hsettled.connected
    simpa [Client.isOpen] using hopen
  · have hclosed : cl.isOpen = false := hstate.elim hsettled.disconnected hsettled.disconnecting
    exact ⟨by simpa [Client.isOpen] using hclosed, hsettled.closed hclosed, hsettled.full hclosed⟩

end

section

attribute [local instance] Configuration.esp32

/-- In the `DISCONNECT` callback of a client that has adopted a descriptor and was closed. -/
theorem state_socket_queue_agree_disconnect :
    ∃ s cl, machine.Reachable (fun _ _ _ => True) World.zeroTaken s ∧
      s.state.clients 0 = some cl ∧ cl.state = .disconnected ∧ cl.socket = -1 := by
  let ls : List machine.Label :=
    [.ext (.newClientFrom 48), .ext (.call 0 .close), .start (.handle .done 0)]
  have hrun : ((machine.run ⟨World.zeroTaken, .idle⟩ ls).any
      fun s => (s.state.clients 0).any (·.state = .disconnected)) = true := by decide +kernel
  obtain ⟨s, hs, hcl⟩ := (Option.any_eq_true _ _).mp hrun
  obtain ⟨cl, hcl, hstate⟩ := (Option.any_eq_true _ _).mp hcl
  have hstate : cl.state = .disconnected := of_decide_eq_true hstate
  have hreachable : machine.Reachable (fun _ _ _ => True) World.zeroTaken s :=
    .of_run .init hs
  exact ⟨s, cl, hreachable, hcl, hstate,
    ((state_socket_queue_agree hreachable hcl).2 (.inl hstate)).1⟩

end

end AsyncTcpSock
