import AsyncTcpSock.CycleRules
import AsyncTcpSock.Runs

/-!
# The registry

The manager's lists against the objects there are. Constructors register at their end and
destructors take the object off the list at their start, so that the lists name the live objects,
each once and in the order of construction.
-/

namespace AsyncTcpSock

open Reentrant

/-- Every live object is on its list, and the lists are in the order of construction. -/
structure World.Registry (w : World) : Prop where
  /-- Every client that is alive is on the list. -/
  clients : ∀ c, (w.clients c).isSome → c ∈ w.clientList
  /-- The list of clients is in the order of construction. -/
  clientsInOrder : w.clientList.Pairwise (· < ·)
  /-- Every server that is alive is on the list. -/
  servers : ∀ srv, (w.servers srv).isSome → srv ∈ w.serverList
  /-- The list of servers is in the order of construction. -/
  serversInOrder : w.serverList.Pairwise (· < ·)

namespace World.Registry

variable {w w' : World}

/-- At the beginning there is no object. -/
theorem empty : World.Registry {} :=
  ⟨by simp, .nil, by simp, .nil⟩

/-- What keeps the lists and constructs nothing keeps the registry. -/
theorem of_live (hw : w.Registry) (hclients : ∀ c, (w'.clients c).isSome → (w.clients c).isSome)
    (hservers : ∀ srv, (w'.servers srv).isSome → (w.servers srv).isSome)
    (hclientList : w'.clientList = w.clientList) (hserverList : w'.serverList = w.serverList) :
    w'.Registry where
  clients c hc := hclientList ▸ hw.clients c (hclients c hc)
  clientsInOrder := hclientList ▸ hw.clientsInOrder
  servers srv hsrv := hserverList ▸ hw.servers srv (hservers srv hsrv)
  serversInOrder := hserverList ▸ hw.serversInOrder

/-- A list in order stays in order when a number is appended that nothing on it reaches. -/
theorem pairwise_concat {l : List ℕ} {n : ℕ} (hl : l.Pairwise (· < ·)) (hn : ∀ a ∈ l, a < n) :
    (l ++ [n]).Pairwise (· < ·) := by
  rw [List.pairwise_append]
  refine ⟨hl, List.pairwise_singleton .., fun a ha b hb => ?_⟩
  rw [List.mem_singleton] at hb
  exact hb ▸ hn a ha

/-- A client that is constructed comes last on the list. -/
theorem addClient (hw : w.Registry) (hsound : w.Sound) (cl : Client) :
    (w.addClient cl).Registry where
  clients c hc := by
    simp only [World.addClient, World.allocate, List.mem_append, List.mem_singleton] at hc ⊢
    by_cases hne : c = w.nextClient
    · exact .inr hne
    · rw [Function.update_of_ne hne] at hc
      exact .inl (hw.clients c hc)
  clientsInOrder := by
    refine pairwise_concat hw.clientsInOrder fun c hc => ?_
    -- what is on the list is live, and has got its number before
    by_contra hle
    have hlive := hsound.clientsLive c hc
    rw [hsound.clientsFresh c (not_lt.mp hle)] at hlive
    cases hlive
  servers := hw.servers
  serversInOrder := hw.serversInOrder

/-- A client that is destroyed leaves the list. -/
theorem removeClient (hw : w.Registry) (c : ClientId) : (w.removeClient c).Registry where
  clients c' hc' := by
    simp only [World.removeClient, List.mem_filter, decide_eq_true_eq] at hc' ⊢
    by_cases hne : c' = c
    · rw [hne, Function.update_self] at hc'
      cases hc'
    · rw [Function.update_of_ne hne] at hc'
      exact ⟨hw.clients c' hc', hne⟩
  clientsInOrder := hw.clientsInOrder.filter _
  servers := hw.servers
  serversInOrder := hw.serversInOrder

/-- A server that is constructed comes last on the list. -/
theorem addServer (hw : w.Registry) (hsound : w.Sound) (s : Server) :
    (w.addServer s).Registry where
  clients := hw.clients
  clientsInOrder := hw.clientsInOrder
  servers srv hsrv := by
    simp only [World.addServer, List.mem_append, List.mem_singleton] at hsrv ⊢
    by_cases hne : srv = w.nextServer
    · exact .inr hne
    · rw [Function.update_of_ne hne] at hsrv
      exact .inl (hw.servers srv hsrv)
  serversInOrder := by
    refine pairwise_concat hw.serversInOrder fun srv hsrv => ?_
    by_contra hle
    have hlive := hsound.serversLive srv hsrv
    rw [hsound.serversFresh srv (not_lt.mp hle)] at hlive
    cases hlive

/-- A server that is destroyed leaves the list. -/
theorem removeServer (hw : w.Registry) (srv : ServerId) : (w.removeServer srv).Registry where
  clients := hw.clients
  clientsInOrder := hw.clientsInOrder
  servers srv' hsrv' := by
    simp only [World.removeServer, List.mem_filter, decide_eq_true_eq] at hsrv' ⊢
    by_cases hne : srv' = srv
    · rw [hne, Function.update_self] at hsrv'
      cases hsrv'
    · rw [Function.update_of_ne hne] at hsrv'
      exact ⟨hw.servers srv' hsrv', hne⟩
  serversInOrder := hw.serversInOrder.filter _

/-- A server that changes stays where it is. -/
theorem setServer (hw : w.Registry) {srv : ServerId} {s : Server} (s' : Server)
    (hs : w.servers srv = some s) : (w.setServer srv s').Registry := by
  refine hw.of_live (fun _ h => h) (fun srv' hsrv' => ?_) rfl rfl
  by_cases hne : srv' = srv
  · rw [hne, hs]
    rfl
  · simpa [World.setServer, Function.update_of_ne hne] using hsrv'

/-- `::close` has nothing to do with the lists. -/
theorem closeFd (hw : w.Registry) (fd : ℤ) : (w.closeFd fd).Registry := by
  rw [World.closeFd_eq]
  exact ⟨hw.clients, hw.clientsInOrder, hw.servers, hw.serversInOrder⟩

/-- What happens to the descriptor of a client has nothing to do with the lists. -/
theorem descriptors {socket : ℤ} {ch : SocketChange} (hw : w.Registry)
    (h : Descriptors w socket ch w') : w'.Registry := by
  obtain ⟨d, e, f, rfl⟩ := h.frame
  exact ⟨hw.clients, hw.clientsInOrder, hw.servers, hw.serversInOrder⟩

/-- A client that changes stays where it is. -/
theorem move {R : Time → Time → Client → SocketChange → Client → Prop} {c : ClientId}
    (hw : w.Registry) (h : Move R c w w') : w'.Registry := by
  have hnone := h.clients_eq_none
  obtain ⟨cl', o, t, d, e, f, ht, rfl⟩ := h.eq_put
  refine hw.of_live (fun c' hc' => ?_) (fun _ h => h) rfl rfl
  rw [Option.isSome_iff_ne_none] at hc' ⊢
  exact fun h => hc' ((hnone c').mpr h)

variable [Configuration] {e : Ext}

/-- The environment keeps the registry. -/
theorem change (hw : w.Registry) (hsound : w.Sound) (h : Change e w w') : w'.Registry := by
  cases h with
  | call hmoves =>
      induction hmoves with
      | refl => exact hw
      | tail _ hmove ih => exact ih.move hmove
  | newClient _ => exact { hw.addClient hsound _ with }
  | newClientFrom _ _ _ hd => exact { (hw.descriptors hd).addClient (hd.sound hsound) _ with }
  | deleteClient _ => exact (hw.closeFd _).removeClient _
  | newServer _ => exact { hw.addServer hsound _ with }
  | deleteServer _ => exact (hw.closeFd _).removeServer _
  | notBegun => exact { hw with }
  | begun hs _ hd =>
      obtain ⟨d, e, f, rfl⟩ := hd.frame
      exact { (hw.descriptors hd).setServer _ hs with }
  | ended hs => exact (hw.closeFd _).setServer _ (by simpa using hs)
  | onClient hs => exact hw.setServer _ hs
  | dnsFound hmove => exact hw.move hmove
  | outcomes => exact { hw with }

end World.Registry

section

variable [Configuration] {good : StepCondition}

/-- In callbacks the world is sound, and the registry is right. -/
def RegistryAt (_ : Yield) (w : World) : Prop := w.Sound ∧ w.Registry

/-- The handlers of clients keep the lists. -/
theorem registryClientRule :
    ClientRule good RegistryAt (fun _ _ => True) World.Registry (fun _ _ => World.Registry) where
  idle := Iff.rfl
  step := fun _ hw hmove => hw.move hmove
  touch := fun _ hw hcl ht => hw.move (Move.of_kept (R := UserStep) _ hcl ht (.touch _))
  elapse := fun _ hw _ => { hw with }
  stale := fun _ _ _ _ _ => trivial
  yield := fun _ _ hsound hw _ => ⟨hsound, hw⟩
  env := fun _ hsound hw _ hchange => hw.change hsound hchange

/-- `_sockIsReadable` of a server keeps the lists. -/
theorem registryServerRule : ServerRule good RegistryAt World.Registry where
  update := fun s' _ hw hs _ => hw.setServer s' hs
  accept := fun hsound hw hchange => hw.change hsound hchange
  yield := fun hsound hw => ⟨hsound, hw⟩
  env := fun hsound hw _ hchange => hw.change hsound hchange

/-- A cycle keeps the lists. -/
theorem registryCycleRule :
    CycleRule good RegistryAt (fun _ _ => True) World.Registry (fun _ _ => World.Registry) where
  client := registryClientRule
  snapshot := fun _ hw _ => { hw with }
  next := fun _ hw _ => { hw with }
  gone := fun _ _ _ _ _ => trivial
  server := registryServerRule
  record := fun _ hw => { hw with }
  serverSnapshot := fun _ hw _ => { hw with }
  serverNext := fun _ hw _ => { hw with }
  serverGone := fun _ _ _ _ _ => trivial

/-- The lists name the objects in every state, unless a fault has ended the run. -/
theorem ReachableIf.registry {s : System} (hs : ReachableIf good s)
    (hrunning : ∀ f, s.control ≠ .faulted f) : s.state.Sound ∧ s.state.Registry := by
  have h := holds_of_rules registryClientRule registryServerRule
    (fun w hsound hw => registryCycleRule.wp_updateConnectionStates hsound hw) .empty
    (fun _ _ _ hsound hw _ hchange => hw.change hsound hchange)
    (fun _ _ _ _ ⟨hsound, hw⟩ _ happly =>
      have hchange := Ext.change hsound.unheld happly
      ⟨hchange.sound hsound, hw.change hsound hchange⟩) hs
  obtain ⟨w, control⟩ := s
  cases control with
  | idle => exact h
  | suspended i k => exact h.1
  | faulted f => exact absurd rfl (hrunning f)

/-- In every state of every run, in callbacks as well, the manager's lists name exactly the clients
and the servers that are alive, in the order in which they were constructed and each once. -/
theorem registered_iff_live {s : System} (hs : Reachable s)
    (hrunning : ∀ f, s.control ≠ .faulted f) :
    (∀ c, c ∈ s.state.clientList ↔ (s.state.clients c).isSome) ∧
      s.state.clientList.Pairwise (· < ·) ∧
      (∀ srv, srv ∈ s.state.serverList ↔ (s.state.servers srv).isSome) ∧
      s.state.serverList.Pairwise (· < ·) := by
  obtain ⟨hsound, hw⟩ := hs.registry hrunning
  exact ⟨fun c => ⟨hsound.clientsLive c, hw.clients c⟩, hw.clientsInOrder,
    fun srv => ⟨hsound.serversLive srv, hw.servers srv⟩, hw.serversInOrder⟩

end

section

attribute [local instance] Configuration.esp32

/-- The second of three clients is destroyed. -/
theorem registered_iff_live_destroyed :
    ∃ s, Reachable s ∧ s.state.clientList = [0, 2] ∧
      (∀ c, c ∈ s.state.clientList ↔ (s.state.clients c).isSome) ∧
      s.state.clientList.Pairwise (· < ·) ∧
      (∀ srv, srv ∈ s.state.serverList ↔ (s.state.servers srv).isSome) ∧
      s.state.serverList.Pairwise (· < ·) := by
  obtain ⟨s, hs, hidle, hlist⟩ := exists_reachable
    (P := fun s => s.control.isIdle = true ∧ s.state.clientList = [0, 2])
    [.ext .newClient, .ext .newClient, .ext .newClient, .ext (.deleteClient 1)] (by decide +kernel)
  have hrunning (f : Fault) : s.control ≠ .faulted f := by
    rw [Control.isIdle_iff.mp hidle]
    nofun
  exact ⟨s, hs, hlist, registered_iff_live hs hrunning⟩

end

end AsyncTcpSock
