import AsyncTcpSock.Moves

/-!
# Moves of the environment

What one external step does to the world: `Change e w w'` lists it for every kind of step, and
`Ext.change` says that the list is complete as long as no mutex is held.
-/

namespace AsyncTcpSock

open Reentrant Proc

namespace World

/-- The world with a new client. -/
def allocate (w : World) (cl : Client) : World :=
  { w with
    clients := Function.update w.clients w.nextClient (some cl)
    nextClient := w.nextClient + 1 }

/-- The world with a new client, which the manager knows. -/
def addClient (w : World) (cl : Client) : World :=
  { w.allocate cl with clientList := w.clientList ++ [w.nextClient] }

/-- The world without client `c`. -/
def removeClient (w : World) (c : ClientId) : World :=
  { w with
    clients := Function.update w.clients c none
    clientList := w.clientList.filter (· ≠ c) }

/-- The world with a new server, which the manager knows. -/
def addServer (w : World) (s : Server) : World :=
  { w with
    servers := Function.update w.servers w.nextServer (some s)
    nextServer := w.nextServer + 1
    serverList := w.serverList ++ [w.nextServer] }

/-- The world without server `srv`. -/
def removeServer (w : World) (srv : ServerId) : World :=
  { w with
    servers := Function.update w.servers srv none
    serverList := w.serverList.filter (· ≠ srv) }

/-- The new client gets the next name. -/
@[simp]
theorem allocate_clients_self (w : World) (cl : Client) :
    (w.allocate cl).clients w.nextClient = some cl :=
  Function.update_self ..

/-- The constructor changes the new client. -/
@[simp]
theorem allocate_put (w : World) (cl cl' : Client) (o : Outcomes) (t : Time) :
    (w.allocate cl).put w.nextClient cl' o t = (w.allocate cl').elapse o t := by
  simp [allocate, put, elapse]

/-- `::close` has nothing to do with a new client. -/
@[simp]
theorem allocate_closeFd (w : World) (cl : Client) (fd : ℤ) :
    (w.allocate cl).closeFd fd = (w.closeFd fd).allocate cl := by
  rw [closeFd_eq, closeFd_eq]
  rfl

/-- A failed `fcntl` has nothing to do with a new client. -/
@[simp]
theorem allocate_misconfigure (w : World) (cl : Client) :
    (w.allocate cl).misconfigure = w.misconfigure.allocate cl := rfl

end World

variable [Configuration]

/-- What an external step may do to the world. -/
inductive Change : Ext → World → World → Prop where
  /-- A call is a number of moves of the client. -/
  | call {c : ClientId} {u : Call} {w w' : World} : Relation.ReflTransGen (UserMove c) w w' →
      Change (.call c u) w w'
  | newClient {w : World} {o : Outcomes} {t : Time} : w.clock ≤ t →
      Change .newClient w ((w.addClient (Client.new t)).elapse o t)
  | newClientFrom {socket : ℤ} {w w₁ : World} {o : Outcomes} {t₀ t : Time} : w.clock ≤ t₀ →
      t₀ ≤ t → 0 ≤ socket → Descriptors w (-1) (.opened socket) w₁ →
      Change (.newClientFrom socket) w ((w₁.addClient (Client.adopted t₀ t socket)).elapse o t)
  | deleteClient {c : ClientId} {w : World} {cl : Client} : w.clients c = some cl →
      Change (.deleteClient c) w ((w.closeFd cl.socket).removeClient c)
  | newServer {addr : IPAddress} {port : UInt16} {w : World} {o : Outcomes} {t : Time} :
      w.clock ≤ t → Change (.newServer addr port) w
        ((w.addServer { lastActive := t, addr, port }).elapse o t)
  | deleteServer {srv : ServerId} {w : World} {s : Server} : w.servers srv = some s →
      Change (.deleteServer srv) w ((w.closeFd s.socket).removeServer srv)
  /-- `Server::begin` has failed, or there was nothing to do. -/
  | notBegun {srv : ServerId} {w : World} {o : Outcomes} :
      Change (.beginServer srv) w (w.elapse o w.clock)
  | begun {srv : ServerId} {socket : ℤ} {w w₁ : World} {o : Outcomes} {s : Server} :
      w.servers srv = some s → s.isOpen = false → Descriptors w (-1) (.opened socket) w₁ →
      Change (.beginServer srv) w ((w₁.setServer srv { s with socket }).elapse o w.clock)
  | ended {srv : ServerId} {w : World} {s : Server} : w.servers srv = some s →
      Change (.endServer srv) w ((w.closeFd s.socket).setServer srv { s with socket := -1 })
  | onClient {srv : ServerId} {handler : Bool} {w : World} {s : Server} : w.servers srv = some s →
      Change (.onClient srv handler) w (w.setServer srv { s with acceptHandler := handler })
  | dnsFound {c : ClientId} {q : DnsQuery} {answer : Option IPAddress} {w w' : World} :
      UserMove c w w' → Change (.dnsFound c q answer) w w'
  | outcomes {o : Outcomes} {w : World} : Change (.outcomes o) w (w.elapse o w.clock)

/-! ## Construction and destruction -/

/-- The contract of code that neither yields nor is expected to be free of faults. -/
def silent : Contract World Yield Fault where
  env _ _ _ := False
  atYield _ _ := False
  atFault _ _ := True

omit [Configuration] in
/-- What a routine establishes holds after it has been executed. -/
theorem exec_of_wp {α : Type} {p : Proc α} {Q : World → Prop} {w w' : World}
    (h : wp silent p (fun _ => Q) w) (hexec : exec p w = some w') : Q w' := by
  rw [exec] at hexec
  rw [wp] at h
  cases hp : p w with
  | done a w'' =>
      rw [hp] at hexec h
      exact Option.some.inj hexec ▸ h
  | yield i w'' k =>
      rw [hp] at hexec
      cases hexec
  | fault f w'' =>
      rw [hp] at hexec
      cases hexec

/-- The contract of code that neither yields nor faults. -/
def faultless : Contract World Yield Fault where
  env _ _ _ := False
  atYield _ _ := False
  atFault _ _ := False

omit [Configuration] in
/-- A routine under this contract returns. -/
theorem exists_done_of_wp {α : Type} {p : Proc α} {Q : α → World → Prop} {w : World}
    (h : wp faultless p Q w) : ∃ a w', p w = .done a w' ∧ Q a w' := by
  rw [wp] at h
  cases hp : p w with
  | done a w' =>
      rw [hp] at h
      exact ⟨a, w', rfl, h⟩
  | yield i w' k =>
      rw [hp] at h
      exact h.1.elim
  | fault f w' =>
      rw [hp] at h
      exact h.elim

omit [Configuration] in
/-- A call that neither yields nor faults comes to an end. -/
theorem exists_exec_of_wp {α : Type} {p : Proc α} {Q : World → Prop} {w : World}
    (h : wp faultless p (fun _ => Q) w) : ∃ w', exec p w = some w' ∧ Q w' := by
  obtain ⟨a, w', hp, hQ⟩ := exists_done_of_wp h
  exact ⟨w', by rw [exec, hp], hQ⟩

variable {C : Contract World Yield Fault} {w : World}

omit [Configuration] in
/-- `addConnection` appends a client to the list. -/
theorem wp_manage {c : ClientId} {Q : Unit → World → Prop} (hheld : Mutex.manager ∉ w.held)
    (hQ : Q () { w with clientList := w.clientList ++ [c] }) : wp C (manage c) Q w := by
  rw [manage, wp_bind, wp_lock, if_neg hheld, wp_bind, wp_modify, wp_unlock]
  change Q () ((({ w with clientList := w.clientList ++ [c] } : World).hold .manager).release _)
  rw [World.release_hold]
  · exact hQ
  · exact hheld

omit [Configuration] in
/-- `removeConnection` takes a client off the list. -/
theorem wp_unmanage {c : ClientId} {Q : Unit → World → Prop} (hheld : Mutex.manager ∉ w.held)
    (hQ : Q () { w with clientList := w.clientList.filter (· ≠ c) }) : wp C (unmanage c) Q w := by
  rw [unmanage, wp_bind, wp_lock, if_neg hheld, wp_bind, wp_modify, wp_unlock]
  change Q () ((({ w with clientList := w.clientList.filter (· ≠ c) } : World).hold
    .manager).release _)
  rw [World.release_hold]
  · exact hQ
  · exact hheld

omit [Configuration] in
/-- `addConnection` appends a server to the list. -/
theorem wp_manageServer {srv : ServerId} {Q : Unit → World → Prop}
    (hheld : Mutex.manager ∉ w.held)
    (hQ : Q () { w with serverList := w.serverList ++ [srv] }) : wp C (manageServer srv) Q w := by
  rw [manageServer, wp_bind, wp_lock, if_neg hheld, wp_bind, wp_modify, wp_unlock]
  change Q () ((({ w with serverList := w.serverList ++ [srv] } : World).hold .manager).release _)
  rw [World.release_hold]
  · exact hQ
  · exact hheld

omit [Configuration] in
/-- `removeConnection` takes a server off the list. -/
theorem wp_unmanageServer {srv : ServerId} {Q : Unit → World → Prop}
    (hheld : Mutex.manager ∉ w.held)
    (hQ : Q () { w with serverList := w.serverList.filter (· ≠ srv) }) :
    wp C (unmanageServer srv) Q w := by
  rw [unmanageServer, wp_bind, wp_lock, if_neg hheld, wp_bind, wp_modify, wp_unlock]
  change Q () ((({ w with serverList := w.serverList.filter (· ≠ srv) } : World).hold
    .manager).release _)
  rw [World.release_hold]
  · exact hQ
  · exact hheld

/-- The constructor of a client without a socket. -/
theorem wp_newClient {Q : ClientId → World → Prop} (hheld : Mutex.manager ∉ w.held)
    (hQ : ∀ o t, w.clock ≤ t → Q w.nextClient ((w.addClient (Client.new t)).elapse o t)) :
    wp C newClient Q w := by
  rw [newClient, allocateClient, wp_bind, wp_bind]
  refine wp_now fun o t ht => ?_
  simp only [wp_bind, wp_get, wp_modify, wp_pure]
  exact wp_manage hheld (hQ o t ht)

/-- The client of a descriptor that has just been handed out. -/
theorem wp_newClientFrom {socket : ℤ} {Q : ClientId → World → Prop} {w' : World} (o₁ : Outcomes)
    (t₁ : Time) (hheld : Mutex.manager ∉ w.held) (hacquire : w.acquire socket = some w')
    (ht₁ : w.clock ≤ t₁)
    (hQ : ∀ w₁ o t₀ t, w.clock ≤ t₀ → t₀ ≤ t → Descriptors w (-1) (.opened socket) w₁ →
      Q w.nextClient ((w₁.addClient (Client.adopted t₀ t socket)).elapse o t)) :
    wp C (newClientFrom socket) Q (w'.elapse o₁ t₁) := by
  obtain ⟨hpos, -, hw'⟩ := World.acquire_eq_some.mp hacquire
  have hnext : w'.nextClient = w.nextClient := by rw [hw']
  have hheld' : Mutex.manager ∉ w'.held := by rwa [hw']
  rw [newClientFrom, allocateClient, wp_bind, wp_bind]
  refine wp_now fun o t ht => ?_
  simp only [wp_bind, wp_get, wp_modify, wp_pure]
  -- the client exists from here on, under the next number
  change wp C _ _ ((w'.allocate (Client.new t)).elapse o t)
  rw [show ((w'.elapse o₁ t₁).elapse o t).nextClient = w.nextClient from hnext]
  -- `_configureSocket` may have closed the descriptor again when it stores it
  have hrest (w₁ : World) (o : Outcomes) (hw₁ : w₁.nextClient = w.nextClient)
      (hheld₁ : Mutex.manager ∉ w₁.held) (hd : Descriptors w (-1) (.opened socket) w₁) :
      wp C (do
        update w.nextClient fun cl => { cl with socket }
        if (← this w.nextClient).socket > 0 then
          let now ← now
          update w.nextClient fun cl => { cl with state := .connected, rxLastPacket := now }
        manage w.nextClient
        return w.nextClient) Q ((w₁.allocate (Client.new t)).elapse o t) := by
    rw [← hw₁] at hQ ⊢
    have hmanage (cl : Client) (o : Outcomes) (t' : Time)
        (hQ' : Q w₁.nextClient ((w₁.addClient cl).elapse o t')) :
        wp C (do manage w₁.nextClient; return w₁.nextClient) Q ((w₁.allocate cl).elapse o t') := by
      rw [wp_bind]
      exact wp_manage hheld₁ hQ'
    rw [wp_bind, wp_update, World.elapse_clients, World.allocate_clients_self, Option.elim_some,
      World.elapse_put, World.allocate_put, wp_bind, wp_this, World.elapse_clients,
      World.allocate_clients_self, Option.elim_some, wp_ite]
    split
    · rename_i hsocket
      rw [wp_bind]
      refine wp_now fun o' t' ht' => ?_
      rw [wp_bind, wp_update, World.elapse_clients, World.elapse_clients,
        World.allocate_clients_self, Option.elim_some, World.elapse_put, World.elapse_put,
        World.allocate_put]
      refine hmanage _ _ _ ?_
      simpa [Client.adopted, show 0 < socket from hsocket] using hQ w₁ o' t t' (ht₁.trans ht) ht' hd
    · rename_i hsocket
      refine hmanage _ _ _ ?_
      simpa [Client.adopted, show ¬ 0 < socket from hsocket] using
        hQ w₁ o t t (ht₁.trans ht) le_rfl hd
  refine wp_configureSocket (fun o' => ?_) fun o' => ?_
  · have h := hrest w' o' hnext hheld' (.opened hacquire)
    simp only [wp_bind] at h
    exact h
  · have hworld :
        ((((w'.allocate (Client.new t)).elapse o t).misconfigure).closeFd socket).elapse o'
        ((w'.allocate (Client.new t)).elapse o t).clock =
          (w.misconfigure.allocate (Client.new t)).elapse o' t := by
      simp [World.closeFd_acquire hacquire]
    have h := hrest w.misconfigure o' rfl hheld (.misconfigured hacquire)
    simp only [wp_bind] at h
    rw [hworld]
    exact h

/-! ## The list is complete -/

omit [Configuration] in
/-- `Server::end` gives the descriptor back, if there is one. -/
theorem wp_end {srv : ServerId} {s : Server} {Q : Unit → World → Prop}
    (hs : w.servers srv = some s)
    (hQ : Q () ((w.closeFd s.socket).setServer srv { s with socket := -1 })) :
    wp C (Server.end_ srv) Q w := by
  rw [Server.end_, wp_bind, wp_server, hs, Option.elim_some, wp_ite]
  split
  · rename_i hclosed
    have hsocket : s.socket = -1 := by simpa [Server.isOpen] using hclosed
    have hsame : ({ s with socket := -1 } : Server) = s := by rw [← hsocket]
    rw [World.closeFd, if_pos hsocket, World.setServer, hsame, ← hs, Function.update_eq_self] at hQ
    exact hQ
  · rw [wp_bind, wp_updateServer, hs, Option.elim_some, wp_closeFd]
    rw [World.closeFd_eq] at hQ ⊢
    exact hQ

section

variable {c : ClientId} {srv : ServerId} (hclient : ∀ c w, C.atFault (.staleClient c) w)
  (hserver : ∀ srv w, C.atFault (.staleServer srv) w) (hheld : w.held = ∅)

include hclient hheld in

/-- A call on a client is a change that the environment may make. -/
theorem wp_call_change {u : Call} :
    wp C (u.routine c) (fun _ w' => Change (.call c u) w w') w := by
  cases hcl : w.clients c with
  | none =>
      rw [Call.routine.eq_def, wp_bind, wp_log, hcl]
      exact hclient c w
  | some cl => exact wp_mono (wp_call u hcl (by simp [hheld])) fun _ _ h => .call h

include hheld in

/-- So is the constructor of a client. -/
theorem wp_newClient_change :
    wp C AsyncTcpSock.newClient (fun _ w' => Change .newClient w w') w :=
  wp_newClient (by simp [hheld]) fun _ _ ht => .newClient ht

include hheld in

/-- So is the constructor of a client on a socket. -/
theorem wp_newClientFrom_change {socket : ℤ} {w₁ : World} (hw₁ : w.acquire socket = some w₁) :
    wp C (AsyncTcpSock.newClientFrom socket) (fun _ w' => Change (.newClientFrom socket) w w') w₁ :=
  wp_newClientFrom w₁.outcomes w₁.clock (by simp [hheld]) hw₁
    (by rw [(World.acquire_eq_some.mp hw₁).2.2])
    fun _ _ _ _ ht₀ ht hd => .newClientFrom ht₀ ht (World.acquire_eq_some.mp hw₁).1 hd

include hheld in
/-- The destruction of a live client. -/
theorem wp_deleteClient_of {cl : Client} (hcl : w.clients c = some cl) :
    wp C (deleteClient c) (fun _ w' => Change (.deleteClient c) w w') w := by
  rw [deleteClient, wp_bind]
  refine wp_unmanage (by simp [hheld]) ?_
  rw [wp_bind]
  refine ClientBase.wp_close hcl (by simp [hheld]) (fun hclosed => ?_) fun hopen => ?_
  · have h := Change.deleteClient hcl
    have hsocket : cl.socket = -1 := by simpa [Client.isOpen] using hclosed
    rw [World.closeFd, if_pos hsocket] at h
    exact h
  · have h := Change.deleteClient hcl
    rw [World.closeFd_eq] at h
    rw [wp_modify, World.closeFd_eq]
    simpa only [World.removeClient, World.put, Function.update_idem] using h

include hclient hheld in

/-- So is the destructor of a client. -/
theorem wp_deleteClient : wp C (deleteClient c) (fun _ w' => Change (.deleteClient c) w w') w := by
  cases hcl : w.clients c with
  | none =>
      rw [deleteClient, wp_bind]
      refine wp_unmanage (by simp [hheld]) ?_
      rw [wp_bind, ClientBase.close, wp_bind, wp_this]
      simp only [hcl, Option.elim_none]
      exact hclient c _
  | some cl => exact wp_deleteClient_of hheld hcl

include hheld in

/-- So is the constructor of a server. -/
theorem wp_newServer {addr : IPAddress} {port : UInt16} :
    wp C (Server.new addr port) (fun _ w' => Change (.newServer addr port) w w') w := by
  rw [Server.new, wp_bind]
  refine wp_now fun o t ht => ?_
  simp only [wp_bind, wp_get, wp_modify, wp_pure]
  exact wp_manageServer (show Mutex.manager ∉ w.held by simp [hheld]) (.newServer (o := o) ht)

include hheld in
/-- The destruction of a live server. -/
theorem wp_deleteServer_of {s : Server} (hs : w.servers srv = some s) :
    wp C (Server.delete srv) (fun _ w' => Change (.deleteServer srv) w w') w := by
  rw [Server.delete, wp_bind]
  refine wp_unmanageServer (by simp [hheld]) ?_
  rw [wp_bind]
  refine wp_end hs ?_
  have h := Change.deleteServer hs
  rw [World.closeFd_eq] at h
  rw [wp_modify, World.closeFd_eq]
  simpa only [World.removeServer, World.setServer, Function.update_idem] using h

include hserver hheld in

/-- So is the destructor of a server. -/
theorem wp_deleteServer :
    wp C (Server.delete srv) (fun _ w' => Change (.deleteServer srv) w w') w := by
  cases hs : w.servers srv with
  | none =>
      rw [Server.delete, wp_bind]
      refine wp_unmanageServer (by simp [hheld]) ?_
      rw [wp_bind, Server.end_, wp_bind, wp_server]
      simp only [hs, Option.elim_none]
      exact hserver srv _
  | some s => exact wp_deleteServer_of hheld hs

/-- The start of a live server. -/
theorem wp_begin_of {s : Server} (hs : w.servers srv = some s) :
    wp C (Server.begin srv) (fun _ w' => Change (.beginServer srv) w w') w := by
  rw [Server.begin, wp_bind, wp_server, hs, Option.elim_some, wp_ite]
  split
  · exact .notBegun (o := w.outcomes)
  · rename_i hopen
    rw [wp_bind]
    refine wp_socket (fun o => .notBegun) fun fd w' o hfd => ?_
    obtain ⟨hpos, -, hw'⟩ := World.acquire_eq_some.mp hfd
    have hs' : w'.servers srv = some s := by rw [hw', ← hs]
    have hclock : w'.clock = w.clock := by rw [hw']
    -- when `::bind` or `::listen` fails the descriptor is given back
    have hback (o : Outcomes) :
        Change (.beginServer srv) w ((w'.elapse o w.clock).closeFd fd) := by
      rw [World.closeFd_elapse, World.closeFd_acquire hfd]
      exact .notBegun
    simp only [Proc.bind, Proc.listen, wp_bind]
    refine wp_take_of_forall fun bound o => ?_
    rw [wp_ite]
    split
    · exact hback o
    · rw [wp_bind]
      refine wp_take_of_forall fun listening o => ?_
      rw [wp_ite]
      split
      · exact hback o
      · refine wp_configureSocket (fun o => ?_) fun o => ?_
        · have h := Change.begun (o := o) hs (by simpa using hopen) (.opened hfd)
          simpa [hs', hclock] using h
        · have h := Change.begun (o := o) hs (by simpa using hopen) (.misconfigured hfd)
          simpa [hs, hclock, World.closeFd_acquire hfd] using h

include hserver in

/-- So is `Server::begin`. -/
theorem wp_begin : wp C (Server.begin srv) (fun _ w' => Change (.beginServer srv) w w') w := by
  cases hs : w.servers srv with
  | none =>
      rw [Server.begin, wp_bind, wp_server, hs]
      exact hserver srv w
  | some s => exact wp_begin_of hs

include hserver in

/-- So is `Server::end`. -/
theorem wp_endServer : wp C (Server.end_ srv) (fun _ w' => Change (.endServer srv) w w') w := by
  cases hs : w.servers srv with
  | none =>
      rw [Server.end_, wp_bind, wp_server, hs]
      exact hserver srv w
  | some s => exact wp_end hs (.ended hs)

include hserver in

/-- So is `Server::onClient`. -/
theorem wp_onClient {handler : Bool} :
    wp C (Server.onClient srv handler) (fun _ w' => Change (.onClient srv handler) w w') w := by
  rw [Server.onClient, wp_updateServer]
  cases hs : w.servers srv with
  | none => exact hserver srv w
  | some s => exact .onClient hs

end

/-- What an external step does to the world when no mutex is held. -/
theorem Ext.change {e : Ext} {w' : World} (hheld : w.held = ∅) (happly : e.apply w = some w') :
    Change e w w' := by
  have hclient (c : ClientId) (w : World) : silent.atFault (.staleClient c) w := trivial
  have hserver (srv : ServerId) (w : World) : silent.atFault (.staleServer srv) w := trivial
  cases e with
  | call c u => exact exec_of_wp (wp_call_change hclient hheld) happly
  | newClient => exact exec_of_wp (p := AsyncTcpSock.newClient) (wp_newClient_change hheld) happly
  | newClientFrom socket =>
      obtain ⟨w₁, hw₁, hexec⟩ := Option.bind_eq_some_iff.mp happly
      exact exec_of_wp (p := AsyncTcpSock.newClientFrom socket) (wp_newClientFrom_change hheld hw₁)
        hexec
  | deleteClient c => exact exec_of_wp (wp_deleteClient hclient hheld) happly
  | newServer addr port => exact exec_of_wp (p := Server.new addr port) (wp_newServer hheld) happly
  | deleteServer srv => exact exec_of_wp (wp_deleteServer hserver hheld) happly
  | beginServer srv => exact exec_of_wp (wp_begin hserver) happly
  | endServer srv => exact exec_of_wp (wp_endServer hserver) happly
  | onClient srv handler => exact exec_of_wp (wp_onClient hserver) happly
  | dnsFound c q answer =>
      obtain ⟨cl, hcl, h⟩ := Option.bind_eq_some_iff.mp happly
      split at h
      · obtain rfl := Option.some.inj h
        exact .dnsFound (.of_kept _ hcl le_rfl (.answer cl q answer ‹_›))
      · cases h
  | outcomes o =>
      obtain rfl := Option.some.inj happly
      exact .outcomes

end AsyncTcpSock
