import Mathlib.Data.Fintype.EquivFin
import AsyncTcpSock.Refinement
import AsyncTcpSock.Runs

/-!
# Accepting clients

`hasFreeSocket` is there to keep the number of connections within `CONFIG_LWIP_MAX_SOCKETS`. It is
asked once for each server, before any of them accepts a client.

- `untilServing`, `serving`: a cycle up to its server phase, and this phase.
- `World.mayAccept`: the servers of a snapshot that may come to accept a client.
- `accepting_within_limit_iff`: when the server phase keeps the limit, whatever is accepted.
-/

namespace AsyncTcpSock

open Reentrant Proc Manager

/-! ## The property -/

namespace World

/-- The number of registered clients and servers. -/
def registered (w : World) : ℕ := w.clientList.length + w.serverList.length

/-- There are no more registered connections than sockets. -/
def WithinLimit [Configuration] (w : World) : Prop :=
  ∀ n ∈ Configuration.maxSockets, w.registered ≤ n

instance [Configuration] : DecidablePred WithinLimit := fun w =>
  inferInstanceAs (Decidable (∀ n ∈ Configuration.maxSockets, w.registered ≤ n))

/-- Whether a server has a handler for the clients it accepts. -/
def accepts (w : World) (srv : ServerId) : Bool := (w.servers srv).any (·.acceptHandler)

/-- The servers whose descriptors are among `r`. -/
def readable (w : World) (r : List ℤ) : List ServerId :=
  w.serverList.filter fun srv => (w.servers srv).any fun s => s.socket ∈ r

/-- The servers of a snapshot that may come to accept a client: the first one with a handler, and
all after it, as the handler may give one to them. -/
def mayAccept (w : World) (snapshot : List ServerId) : List ServerId :=
  snapshot.dropWhile fun srv => !w.accepts srv

end World

section

variable [Configuration]

/-- User code constructs neither clients nor servers. -/
def RegistersNothing : StepCondition := fun _ _ e =>
  match e with
  | .newClient | .newClientFrom _ | .newServer _ _ => False
  | _ => True

/-- The contract of a cycle in which only `Server::_sockIsReadable` registers connections. -/
abbrev servingContract : Contract World Yield Fault :=
  systemContract RegistersNothing (fun _ _ => True) fun _ _ => True

/-- A cycle up to its server phase: the descriptors to be read from, or `none` when `select` has
found nothing. -/
def untilServing : Proc (Option (List ℤ)) := do
  let (r, s) ← selectReady
  if !(r.isEmpty && s.isEmpty) then
    clientSocketPhases r s
    return some r
  else return none

/-- The server phase comes next, and then the other phases. -/
theorem updateConnectionStates_eq_serving :
    updateConnectionStates = (do
      match ← untilServing with
      | some r => serving r
      | none => pure ()
      laterPhases) := by
  rw [updateConnectionStates_eq, untilServing, Routine.bind_assoc]
  refine congrArg (selectReady >>= ·) (funext fun (r, s) => ?_)
  by_cases hready : (!(r.isEmpty && s.isEmpty)) = true
  · simp only [if_pos hready, socketPhases_eq, Routine.bind_assoc]
    rfl
  · simp only [if_neg hready]
    rfl

/-! ## Registered connections -/

variable {w w' : World} {e : Ext} {n : ℕ} {i : Yield}

omit [Configuration] in
/-- What happens to a descriptor registers nothing. -/
theorem Descriptors.registered {socket : ℤ} {ch : SocketChange} (h : Descriptors w socket ch w') :
    w'.registered = w.registered := by
  obtain ⟨d, e, f, rfl⟩ := h.frame
  rfl

omit [Configuration] in
/-- A move of a client registers nothing. -/
theorem Move.registered {R : Time → Time → Client → SocketChange → Client → Prop} {c : ClientId}
    (h : Move R c w w') : w'.registered = w.registered := by
  obtain ⟨cl', o, t, d, e, f, -, rfl⟩ := h.eq_put
  rfl

omit [Configuration] in
/-- A client that is destroyed makes room. -/
theorem World.registered_removeClient_le (w : World) (c : ClientId) :
    (w.removeClient c).registered ≤ w.registered :=
  Nat.add_le_add_right (List.length_filter_le ..) _

omit [Configuration] in
/-- A server that is destroyed makes room. -/
theorem World.registered_removeServer_le (w : World) (srv : ServerId) :
    (w.removeServer srv).registered ≤ w.registered :=
  Nat.add_le_add_left (List.length_filter_le ..) _

/-- User code that constructs no connections can only remove some. -/
theorem Change.registered_le (h : Change e w w') (hgood : RegistersNothing (some i) w e) :
    w'.registered ≤ w.registered := by
  have hclose (fd : ℤ) : (w.closeFd fd).registered = w.registered := by
    have hclosed : Descriptors w fd .closed (w.closeFd fd) := .closed
    exact hclosed.registered
  cases h with
  | call hmoves =>
      induction hmoves with
      | refl => exact le_rfl
      | tail _ hmove ih => exact (hmove.registered).le.trans ih
  | newClient => exact hgood.elim
  | newClientFrom => exact hgood.elim
  | newServer => exact hgood.elim
  | deleteClient _ => exact (World.registered_removeClient_le _ _).trans (hclose _).le
  | deleteServer _ => exact (World.registered_removeServer_le _ _).trans (hclose _).le
  | begun _ _ hd => exact hd.registered.le
  | ended _ => exact (hclose _).le
  | dnsFound hmove => exact hmove.registered.le
  | notBegun | onClient | outcomes => exact le_rfl

/-- Before the server phase, connections can only be removed. -/
theorem withinPhaseRule : PhaseRule RegistersNothing (fun _ _ => True) (fun _ _ => True)
    (fun w => w.registered ≤ n) fun _ _ w => w.registered ≤ n where
  client :=
    { idle := Iff.rfl
      step := fun _ h hmove => hmove.registered.le.trans h
      touch := fun _ h _ _ => h
      elapse := fun _ h _ => h
      stale := fun _ _ _ _ _ => trivial
      yield := fun _ _ _ _ _ => trivial
      env := fun _ _ h hgood hchange => (hchange.registered_le hgood).trans h }
  snapshot := fun _ h _ => h
  next := fun _ h _ => h
  gone := fun _ _ _ _ _ => trivial

/-- The server phase begins with no more connections than the cycle. -/
theorem wp_untilServing (hw : w.Sound) (hn : w.registered ≤ n) :
    wp servingContract untilServing
      (fun sets w' => w'.Sound ∧ w'.registered ≤ n ∧ ∀ r ∈ sets, -1 ∉ r) w := by
  rw [untilServing, wp_bind]
  refine wp_selectReady hw fun events r s o _ hr _ => ?_
  let w₁ : World := { w with log := events ++ .cycle :: w.log }
  have hw₁ : (w₁.elapse o w.clock).Sound := { hw with }
  rw [wp_ite]
  split
  · rw [wp_bind]
    refine wp_mono (withinPhaseRule.wp_clientSocketPhases (fun _ h => h) hw₁ hn)
      fun _ w₂ ⟨hw₂, hn₂⟩ => ⟨hw₂, hn₂, ?_⟩
    rintro _ ⟨⟩ hmem
    -- only sockets other than `-1` have been collected
    rcases hr (-1) hmem with ⟨c, cl, -, -, hne, -⟩ | ⟨srv, s, -, -, hne⟩
    · exact hne rfl
    · exact hne rfl
  · exact ⟨hw₁, hn, nofun⟩

/-! ## The server phase keeps the limit -/

omit [Configuration] in
/-- Every server of a snapshot may come after one that accepts a client. -/
theorem World.length_mayAccept_le (w : World) (l : List ServerId) :
    (w.mayAccept l).length ≤ l.length :=
  (List.dropWhile_sublist _).length_le

omit [Configuration] in
/-- The first server that may accept comes first. -/
theorem World.mayAccept_cons_of_accepts {srv : ServerId} (h : w.accepts srv = true)
    (rest : List ServerId) : w.mayAccept (srv :: rest) = srv :: rest := by
  simp [World.mayAccept, h]

omit [Configuration] in
/-- A server that may not accept is passed over. -/
theorem World.mayAccept_cons_of_not_accepts {srv : ServerId} (h : w.accepts srv = false)
    (rest : List ServerId) : w.mayAccept (srv :: rest) = w.mayAccept rest := by
  simp [World.mayAccept, h]

omit [Configuration] in
/-- All servers may accept. -/
theorem World.mayAccept_of_forall {l : List ServerId} (h : ∀ srv ∈ l, w.accepts srv = true) :
    w.mayAccept l = l := by
  cases l with
  | nil => rfl
  | cons srv rest => exact World.mayAccept_cons_of_accepts (h srv List.mem_cons_self) rest

omit [Configuration] in
/-- One more server may accept one more client. -/
theorem World.length_mayAccept_le_cons (w : World) (srv : ServerId) (rest : List ServerId) :
    (w.mayAccept rest).length ≤ (w.mayAccept (srv :: rest)).length := by
  cases h : w.accepts srv with
  | true =>
      rw [World.mayAccept_cons_of_accepts h]
      exact (w.length_mayAccept_le rest).trans (Nat.le_succ _)
  | false => rw [World.mayAccept_cons_of_not_accepts h]

omit [Configuration] in
/-- It does not matter when a server has been active. -/
theorem World.mayAccept_touched {srv : ServerId} {s : Server} (hs : w.servers srv = some s)
    (t : Time) (l : List ServerId) :
    (w.setServer srv { s with lastActive := t }).mayAccept l = w.mayAccept l := by
  have haccepts : (w.setServer srv { s with lastActive := t }).accepts = w.accepts := by
    funext srv'
    by_cases hne : srv' = srv
    · subst hne
      simp [World.accepts, World.setServer, hs]
    · simp [World.accepts, World.setServer, Function.update_of_ne hne]
  simp only [World.mayAccept, haccepts]

/-- A client that is accepted is registered. -/
theorem Change.registered_newClientFrom {fd : ℤ} (h : Change (.newClientFrom fd) w w') :
    w'.registered = w.registered + 1 := by
  cases h with
  | newClientFrom _ _ _ hd =>
      rw [← hd.registered]
      simp only [World.registered, World.elapse, World.addClient, World.allocate,
        List.length_append, List.length_singleton]
      omega

/-- To accept a client changes no server. -/
theorem Change.servers_newClientFrom {fd : ℤ} (h : Change (.newClientFrom fd) w w') :
    w'.servers = w.servers := by
  cases h with
  | newClientFrom _ _ _ hd =>
      obtain ⟨d, e, f, rfl⟩ := hd.frame
      rfl

/-- One server accepts at most one client, and only if it may. -/
theorem wp_handleServer_registered {srv : ServerId} {rest : List ServerId} {s : Server}
    (hs : w.servers srv = some s) (hw : w.Sound)
    (hn : w.registered + (w.mayAccept (srv :: rest)).length ≤ n) :
    wp servingContract (handleServer srv)
      (fun _ w' => w'.Sound ∧ w'.registered + (w'.mayAccept rest).length ≤ n) w := by
  refine wp_handleServer hs hw (fun o t _ => ?_) fun o t fd w₂ _ hhandler hchange => ?_
  · -- nothing is accepted
    refine ⟨(hw.elapse o t).setServer _ hs, ?_⟩
    rw [World.mayAccept_touched (w := w.elapse o t) hs]
    exact (Nat.add_le_add_left (w.length_mayAccept_le_cons srv rest) _).trans hn
  · -- a client is accepted, and registered in place of this server
    have haccepts : w.accepts srv = true := by simp [World.accepts, hs, hhandler]
    rw [World.mayAccept_cons_of_accepts haccepts, List.length_cons] at hn
    have hw₁ := (hw.elapse o t).setServer { s with lastActive := t } hs
    have hregistered : w₂.registered = w.registered + 1 := hchange.registered_newClientFrom
    -- from here on all the others may accept
    refine wp_yield_of_stable (fun w => w.Sound ∧ w.registered + rest.length ≤ n)
      ⟨hchange.sound hw₁, ?_⟩ ?_ trivial fun w' ⟨hw', hn'⟩ => ⟨hw', ?_⟩
    · omega
    · rintro w₃ w₄ ⟨hw₃, hn₃⟩ henv
      obtain ⟨e, hgood, hchange'⟩ := exists_change hw₃ henv
      exact ⟨hchange'.sound hw₃,
        (Nat.add_le_add_right (hchange'.registered_le hgood) _).trans hn₃⟩
    · exact (Nat.add_le_add_left (w'.length_mayAccept_le rest) _).trans hn'

/-- The server phase accepts at most as many clients as there are servers that may accept one. -/
theorem wp_serving {r : List ℤ} (hw : w.Sound)
    (hn : w.registered + (w.mayAccept (w.readable r)).length ≤ n) :
    wp servingContract (serving r) (fun _ w' => w'.registered ≤ n) w := by
  have hmutex : Mutex.manager ∉ w.held := by simp [hw.unheld]
  rw [serving, serverPhase, wp_bind, wp_lock, if_neg hmutex, wp_bind, wp_get, wp_bind]
  refine wp_chooseServers hw.serversLive ?_
  rw [wp_bind, wp_unlock, World.release_hold hmutex, wp_bind, wp_modify]
  refine wp_mono (wp_forEach
    (fun rest w => w.Sound ∧ w.registered + (w.mayAccept rest).length ≤ n) ?_ ⟨{ hw with }, hn⟩)
    fun _ w' hw' => (Nat.le_add_right ..).trans hw'.2
  rintro srv rest w ⟨hw, hn⟩
  rw [wp_bind, wp_modify]
  cases hs : w.servers srv with
  | none =>
      -- the server has been destroyed in a callback
      rw [handleServer, wp_bind, setServerLastActive, wp_bind]
      refine wp_now fun o t ht => ?_
      rw [wp_updateServer, World.elapse_servers, hs]
      trivial
  | some s => exact wp_handleServer_registered hs { hw with } hn

/-! ## The server phase may exceed it -/

/-- `Server::_sockIsReadable` up to the callback, for which it returns the client. -/
def Server.acceptClient (srv : ServerId) : Proc (Option ClientId) := do
  let s ← server srv
  if !s.acceptHandler then return none
  else
    match ← Proc.accept s.socket with
    | none => return none
    | some socket =>
        if ← allocate then
          let c ← newClientFrom socket
          return some c
        else
          closeFd socket
          return none

/-- `_sockIsReadable` of a server accepts a client and then invokes the handler. -/
theorem Server.sockIsReadable_eq (srv : ServerId) :
    Server.sockIsReadable srv = (do
      match ← Server.acceptClient srv with
      | some c => Routine.yield (.accept srv c)
      | none => pure ()) := by
  rw [Server.acceptClient, Server.sockIsReadable, Routine.bind_assoc]
  refine congrArg (server srv >>= ·) (funext fun s => ?_)
  by_cases hhandler : (!s.acceptHandler) = true
  · simp only [if_pos hhandler]
    rfl
  · simp only [if_neg hhandler, Routine.bind_assoc]
    refine congrArg (Proc.accept s.socket >>= ·) (funext fun fd => ?_)
    cases fd with
    | none => rfl
    | some socket =>
        simp only [Routine.bind_assoc]
        refine congrArg (allocate >>= ·) (funext fun ok => ?_)
        cases ok with
        | true =>
            simp only [if_true, Routine.bind_assoc]
            rfl
        | false =>
            simp only [Bool.false_eq_true, if_false, Routine.bind_assoc]
            rfl

/-- The next `::accept` succeeds, and there is memory for the client. -/
structure World.AcceptsNext (w : World) : Prop where
  /-- A descriptor that is not open yet is handed out. -/
  descriptor : ∃ fd fds, w.outcomes.accepts = fd :: fds ∧ 0 ≤ fd ∧ fd ∉ w.descriptors
  /-- No allocation is going to fail. -/
  memory : w.outcomes.allocations = []

omit [Configuration] in
/-- A descriptor that is not open can be handed out. -/
theorem World.acquire_elapse {fd : ℤ} (hfd : 0 ≤ fd) (hmem : fd ∉ w.descriptors) (o : Outcomes)
    (t : Time) : (w.elapse o t).acquire fd =
      some (({ w with descriptors := insert fd w.descriptors } : World).elapse o t) :=
  World.acquire_eq_some.mpr ⟨hfd, hmem, rfl⟩

/-- A server with a handler accepts a client when it can. -/
theorem exists_acceptClient {srv : ServerId} {s : Server} (hs : w.servers srv = some s)
    (hhandler : s.acceptHandler = true) (hsocket : s.socket ≠ -1) (hw : w.Sound)
    (hnext : w.AcceptsNext) :
    ∃ fd w', Server.acceptClient srv w = .done (some w.nextClient) w' ∧
      Change (.newClientFrom fd) w w' := by
  obtain ⟨fd, fds, haccepts, hfd, hmem⟩ := hnext.descriptor
  have hwp : wp faultless (Server.acceptClient srv)
      (fun c w' => c = some w.nextClient ∧ Change (.newClientFrom fd) w w') w := by
    rw [Server.acceptClient, wp_bind, wp_server, hs, Option.elim_some, wp_ite,
      if_neg (by simp [hhandler]), wp_bind, Proc.accept, wp_bind, wp_take, wp_ite, if_neg hsocket,
      wp_acquire, haccepts, List.headD_cons, World.acquire_elapse hfd hmem, Option.elim_some]
    rw [wp_bind, allocate, wp_take, World.elapse_outcomes, hnext.memory, List.headD_nil, wp_ite,
      if_pos rfl, wp_bind, World.elapse_elapse]
    exact wp_newClientFrom _ w.clock (by simp [hw.unheld])
      (World.acquire_eq_some.mpr ⟨hfd, hmem, rfl⟩) le_rfl
      fun _ _ _ _ ht₀ ht hd => ⟨rfl, .newClientFrom ht₀ ht hfd hd⟩
  obtain ⟨c, w', hdone, rfl, hchange⟩ := exists_done_of_wp hwp
  exact ⟨fd, w', hdone, hchange⟩

/-- A server without a handler accepts nothing. -/
theorem acceptClient_none {srv : ServerId} {s : Server} (hs : w.servers srv = some s)
    (hhandler : s.acceptHandler = false) : Server.acceptClient srv w = .done none w := by
  have hwp : wp faultless (Server.acceptClient srv) (fun c w' => c = none ∧ w' = w) w := by
    rw [Server.acceptClient, wp_bind, wp_server, hs, Option.elim_some, wp_ite,
      if_pos (by simp [hhandler])]
    exact ⟨rfl, rfl⟩
  obtain ⟨c, w', hdone, rfl, rfl⟩ := exists_done_of_wp hwp
  exact hdone

omit [Configuration] in
/-- There is always a descriptor that is not open. -/
theorem World.exists_unused (w : World) : ∃ fd : ℤ, 0 ≤ fd ∧ fd ∉ w.descriptors := by
  obtain ⟨n, hn⟩ := Infinite.exists_notMem_finset (w.descriptors.image Int.toNat)
  refine ⟨n, Int.natCast_nonneg n, fun hmem => hn ?_⟩
  exact Finset.mem_image.mpr ⟨n, hmem, Int.toNat_natCast n⟩

/-- The servers of a list are live and have sockets. -/
def World.Listening (w : World) (l : List ServerId) : Prop :=
  ∀ srv ∈ l, ∃ s, w.servers srv = some s ∧ s.socket ≠ -1

omit [Configuration] in
/-- A server that keeps its socket goes on listening. -/
theorem World.Listening.setServer {l : List ServerId} {srv : ServerId} {s s' : Server}
    (h : w.Listening l) (hs : w.servers srv = some s) (hsocket : s'.socket = s.socket) :
    (w.setServer srv s').Listening l := by
  intro srv' hsrv'
  obtain ⟨s₁, hs₁, hne⟩ := h srv' hsrv'
  by_cases heq : srv' = srv
  · subst heq
    obtain rfl := Option.some.inj (hs.symm.trans hs₁)
    exact ⟨s', Function.update_self .., hsocket ▸ hne⟩
  · exact ⟨s₁, (Function.update_of_ne heq ..).trans hs₁, hne⟩

/-- A new client leaves the servers listening. -/
theorem Change.listening {fd : ℤ} {l : List ServerId} (h : Change (.newClientFrom fd) w w')
    (hlive : w.Listening l) : w'.Listening l := by
  rwa [World.Listening, h.servers_newClientFrom]

/-- In the callback of a server, user code may give a handler to every server of a list. -/
theorem exists_handlers (i : Yield) {l : List ServerId} {w : World} (hw : w.Sound)
    (hlive : w.Listening l) :
    ∃ w', Relation.ReflTransGen (machine.envOf RegistersNothing i) w w' ∧ w'.Sound ∧
      w'.registered = w.registered ∧ (∀ l', w.Listening l' → w'.Listening l') ∧
      (∀ srv, w.accepts srv = true → w'.accepts srv = true) ∧ ∀ srv ∈ l, w'.accepts srv = true := by
  induction l generalizing w with
  | nil => exact ⟨w, .refl, hw, rfl, fun _ h => h, fun _ h => h, nofun⟩
  | cons srv rest ih =>
      obtain ⟨s, hs, -⟩ := hlive srv List.mem_cons_self
      let w₁ := w.setServer srv { s with acceptHandler := true }
      have hstep : machine.envOf RegistersNothing i w w₁ := by
        refine ⟨.onClient srv true, trivial, ?_⟩
        simp [Ext.apply, exec, Server.onClient, updateServer, hs, w₁]
      have hrest : w₁.Listening rest :=
        World.Listening.setServer (fun srv' h => hlive srv' (List.mem_cons_of_mem srv h)) hs rfl
      have hsrv : w₁.accepts srv = true := by simp [w₁, World.accepts, World.setServer]
      -- a handler that has been set stays set
      have hkept (srv' : ServerId) (h : w.accepts srv' = true) : w₁.accepts srv' = true := by
        by_cases heq : srv' = srv
        · exact heq ▸ hsrv
        · simpa [w₁, World.accepts, World.setServer, Function.update_of_ne heq] using h
      obtain ⟨w', hsteps, hw', hregistered, hlive', hkept', haccepts⟩ :=
        ih (hw.setServer _ hs) hrest
      refine ⟨w', .head hstep hsteps, hw', hregistered, fun l' h => hlive' l' (h.setServer hs rfl),
        fun srv' h => hkept' srv' (hkept srv' h), fun srv' h => ?_⟩
      rcases List.mem_cons.mp h with rfl | h
      · exact hkept' _ hsrv
      · exact haccepts srv' h

/-- The operating system may have the next `::accept` succeed. -/
theorem exists_acceptsNext (i : Yield) (w : World) :
    ∃ o, machine.envOf RegistersNothing i w (w.elapse o w.clock) ∧
      (w.elapse o w.clock).AcceptsNext := by
  obtain ⟨fd, hfd, hmem⟩ := w.exists_unused
  exact ⟨{ accepts := [fd] }, ⟨.outcomes _, trivial, rfl⟩, ⟨fd, [], rfl, hfd, hmem⟩, rfl⟩

omit [Configuration] in
/-- The manager marks a live server as active. -/
theorem setServerLastActive_eq {w : World} {srv : ServerId} {s : Server}
    (hs : w.servers srv = some s) : setServerLastActive srv w =
      .done () (w.tick.setServer srv { s with lastActive := w.tick.clock }) := by
  have hwp : wp faultless (setServerLastActive srv)
      (fun _ w' => w' = w.tick.setServer srv { s with lastActive := w.tick.clock }) w := by
    have hs₀ : w.tick.servers srv = some s := hs
    rw [setServerLastActive, wp_bind, wp_now_eq, wp_updateServer, hs₀]
    rfl
  obtain ⟨_, w', hdone, rfl⟩ := exists_done_of_wp hwp
  exact hdone

/-- User code and the operating system may see to it that all servers accept a client that may. -/
theorem canReach_forEach {l : List ServerId} {w : World} (hw : w.Sound) (hlive : w.Listening l)
    (hnext : w.AcceptsNext) :
    (Routine.forEach (fun srv => do
        Routine.modify fun w => { w with serversProcessing := w.serversProcessing.tail }
        handleServer srv) l w).CanReach (machine.envOf RegistersNothing)
      fun _ w' => w'.registered = w.registered + (w.mayAccept l).length := by
  induction l generalizing w with
  | nil => rfl
  | cons srv rest ih =>
      obtain ⟨s, hs, hsocket⟩ := hlive srv List.mem_cons_self
      let w₀ : World := { w with serversProcessing := w.serversProcessing.tail }
      let s₁ : Server := { s with lastActive := w₀.tick.clock }
      let w₁ := w₀.tick.setServer srv s₁
      have hs₁ : w₁.servers srv = some s₁ := Function.update_self ..
      have hw₁ : w₁.Sound := World.Sound.setServer (w := w₀.tick) { hw with } s₁ hs
      have hmay : w₁.mayAccept rest = w.mayAccept rest :=
        World.mayAccept_touched (w := w₀.tick) hs _ _
      have hrest : w₁.Listening rest :=
        World.Listening.setServer (w := w₀.tick)
          (fun srv' h => hlive srv' (List.mem_cons_of_mem srv h)) hs rfl
      have hnext₁ : w₁.AcceptsNext := ⟨hnext.descriptor, hnext.memory⟩
      have hactive : setServerLastActive srv w₀ = .done () w₁ := setServerLastActive_eq hs
      rw [Routine.forEach]
      -- the loop body runs up to the callback of the server, for which `Server.acceptClient` stops
      refine canReach_bind (canReach_bind ?_)
      change (handleServer srv w₀).CanReach _ _
      rw [handleServer]
      refine canReach_bind ?_
      rw [hactive]
      change (Server.sockIsReadable srv w₁).CanReach _ _
      rw [Server.sockIsReadable_eq]
      refine canReach_bind ?_
      cases hhandler : s.acceptHandler with
      | false =>
          -- the outcome that is there is left for the next server
          have haccepts : w.accepts srv = false := by simp [World.accepts, hs, hhandler]
          rw [acceptClient_none hs₁ hhandler, World.mayAccept_cons_of_not_accepts haccepts, ← hmay]
          exact ih hw₁ hrest hnext₁
      | true =>
          obtain ⟨fd, w₂, hdone, hchange⟩ := exists_acceptClient hs₁ hhandler hsocket hw₁ hnext₁
          have haccepts : w.accepts srv = true := by simp [World.accepts, hs, hhandler]
          rw [hdone, World.mayAccept_cons_of_accepts haccepts]
          -- in the callback all other servers get a handler, and the next `::accept` will succeed
          obtain ⟨w₃, hsteps, hw₃, hregistered, hlive₃, -, hall⟩ :=
            exists_handlers (.accept srv w₁.nextClient) (hchange.sound hw₁)
              (hchange.listening hrest)
          obtain ⟨o, hstep, hnext₃⟩ := exists_acceptsNext (.accept srv w₁.nextClient) w₃
          have hall' : (w₃.elapse o w₃.clock).mayAccept rest = rest :=
            World.mayAccept_of_forall hall
          have hloop := ih (hw₃.elapse o _) (hlive₃ rest (hchange.listening hrest)) hnext₃
          refine ⟨w₃.elapse o w₃.clock, hsteps.tail hstep, hloop.mono fun _ w' hw' => ?_⟩
          calc w'.registered
            _ = w₃.registered + rest.length := by
              rw [hw', hall']
              rfl
            _ = w₁.registered + 1 + rest.length := by
              rw [hregistered, hchange.registered_newClientFrom]
            _ = w.registered + (srv :: rest).length := by
              rw [List.length_cons, Nat.add_assoc, Nat.add_comm 1]
              rfl

/-- There is an outcome of the system calls with which the server phase may come to register a
client for each server that may accept one. -/
theorem exists_canReach_serving {r : List ℤ} (hw : w.Sound) (hr : -1 ∉ r) :
    ∃ o, (serving r { w with outcomes := o }).CanReach (machine.envOf RegistersNothing)
      fun _ w' => w'.registered = w.registered + (w.mayAccept (w.readable r)).length := by
  obtain ⟨fd, hfd, hmem⟩ := w.exists_unused
  let w₁ : World := { w with outcomes := { accepts := [fd] } }
  have hw₁ : w₁.Sound := { hw with }
  have hmutex : Mutex.manager ∉ w₁.held := by simp [hw₁.unheld]
  have hlive : w₁.Listening (w₁.readable r) := by
    intro srv hsrv
    obtain ⟨s, hs, hmem⟩ := (Option.any_eq_true _ _).mp (List.mem_filter.mp hsrv).2
    -- the snapshot matches descriptors that `select` has reported, and `-1` is not one of them
    exact ⟨s, hs, fun heq => hr (heq ▸ of_decide_eq_true hmem)⟩
  have hlock : lock .manager w₁ = .done () (w₁.hold .manager) := by
    rw [lock, if_neg hmutex]
    rfl
  have hchoose : chooseFrom (fun srv => do return (← server srv).socket ∈ r) w₁.serverList
      (w₁.hold .manager) = .done (w₁.readable r) (w₁.hold .manager) := by
    have hwp : wp faultless
        (chooseFrom (fun srv => do return (← server srv).socket ∈ r) w₁.serverList)
        (fun chosen w' => chosen = w₁.readable r ∧ w' = w₁.hold .manager) (w₁.hold .manager) :=
      wp_chooseServers hw₁.serversLive ⟨rfl, rfl⟩
    obtain ⟨chosen, w', hdone, rfl, rfl⟩ := exists_done_of_wp hwp
    exact hdone
  refine ⟨{ accepts := [fd] }, ?_⟩
  change (serving r w₁).CanReach _ _
  rw [serving, serverPhase]
  refine canReach_bind ?_
  rw [hlock]
  refine canReach_bind (canReach_bind ?_)
  change (chooseFrom _ w₁.serverList (w₁.hold .manager)).CanReach _ _
  rw [hchoose]
  refine canReach_bind ?_
  change ((Routine.modify _ >>= _) ((w₁.hold .manager).release .manager)).CanReach _ _
  rw [World.release_hold hmutex]
  refine canReach_bind ?_
  exact canReach_forEach (w := { w₁ with serversProcessing := w₁.readable r }) { hw₁ with } hlive
    ⟨⟨fd, [], rfl, hfd, hmem⟩, rfl⟩

/-- In a cycle that begins within the limit, and in which only `Server::_sockIsReadable` registers
connections, the server phase begins within the limit. It ends within it, whatever is accepted, if
and only if there is room for a client of every readable server from the first one with a handler
on. -/
theorem accepting_within_limit_iff (hw : w.Sound) (hlimit : w.WithinLimit) :
    wp servingContract untilServing (fun sets w₁ => w₁.WithinLimit ∧ ∀ r ∈ sets,
      ((∀ o, wp servingContract (serving r) (fun _ w₂ => w₂.WithinLimit)
          { w₁ with outcomes := o }) ↔
        ∀ n ∈ Configuration.maxSockets,
          w₁.registered + (w₁.mayAccept (w₁.readable r)).length ≤ n)) w := by
  refine wp_mono (wp_untilServing hw le_rfl) fun sets w₁ ⟨hw₁, hle, hsets⟩ => ?_
  refine ⟨fun n hn => hle.trans (hlimit n hn), fun r hr => ⟨?_, ?_⟩⟩
  · -- the phase is within the limit in the worst case, which is one that can happen
    intro hkeeps n hn
    obtain ⟨o, hreach⟩ := exists_canReach_serving hw₁ (hsets r hr)
    obtain ⟨_, w₂, hwithin, hregistered⟩ := exists_of_canReach (hkeeps o) hreach
    exact hregistered ▸ hwithin n hn
  · intro hroom o
    exact wp_mono (wp_serving (w := { w₁ with outcomes := o }) { hw₁ with } le_rfl)
      fun _ w₂ hle₂ n hn => hle₂.trans (hroom n hn)

end

section

attribute [local instance] Configuration.esp32

/-- Two servers with handlers and seven clients, so that one of ten sockets is free. -/
private def nineConnections : List Label :=
  [.ext (.newServer .any 80), .ext (.newServer .any 81), .ext (.onClient 0 true),
    .ext (.onClient 1 true), .ext (.outcomes { sockets := [50, 51] }), .ext (.beginServer 0),
    .ext (.beginServer 1)] ++ List.replicate 7 (.ext .newClient)

theorem accepting_within_limit_iff_two_servers :
    ∃ w : World, w.registered = 9 ∧ w.mayAccept (w.readable [50, 51]) = [0, 1] ∧
      wp servingContract untilServing (fun sets w₁ => w₁.WithinLimit ∧ ∀ r ∈ sets,
        ((∀ o, wp servingContract (serving r) (fun _ w₂ => w₂.WithinLimit)
            { w₁ with outcomes := o }) ↔
          ∀ n ∈ Configuration.maxSockets,
            w₁.registered + (w₁.mayAccept (w₁.readable r)).length ≤ n)) w := by
  obtain ⟨s, hs, hidle, hlimit, hregistered, hmay⟩ := exists_reachable
    (P := fun s => s.control.isIdle = true ∧ s.state.WithinLimit ∧ s.state.registered = 9 ∧
      s.state.mayAccept (s.state.readable [50, 51]) = [0, 1]) nineConnections (by decide +kernel)
  have htracked := hs.tracked
  rw [Machine.Holds, Control.isIdle_iff.mp hidle] at htracked
  exact ⟨s.state, hregistered, hmay, accepting_within_limit_iff htracked.1 hlimit⟩

/-- Both servers can be read, and each accepts a client for the one socket that is free. -/
theorem not_accepting_within_limit :
    ∃ s s', Reachable s ∧ s.control.isIdle = true ∧ s.state.WithinLimit ∧
      machine.run s [.start .cycle, .resume, .resume] = some s' ∧ s'.control.isIdle = true ∧
      ¬ s'.state.WithinLimit := by
  obtain ⟨s, hs, hidle, hlimit, hrun⟩ := exists_reachable
    (P := fun s => s.control.isIdle = true ∧ s.state.WithinLimit ∧
      (machine.run s [.start .cycle, .resume, .resume]).any (fun s' =>
        s'.control.isIdle && !decide s'.state.WithinLimit) = true)
    (nineConnections ++ [.ext (.outcomes { cycles := [([50, 51], [])], accepts := [52, 53] })])
    (by decide +kernel)
  obtain ⟨s', hs', hP⟩ := (Option.any_eq_true _ _).mp hrun
  obtain ⟨hidle', hexceeded⟩ := Bool.and_eq_true_iff.mp hP
  exact ⟨s, s', hs, hidle, hlimit, hs', hidle', by simpa using hexceeded⟩

end

end AsyncTcpSock
