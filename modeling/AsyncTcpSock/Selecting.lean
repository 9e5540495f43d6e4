import AsyncTcpSock.Registry

/-!
# The descriptor sets

What a cycle asks `select` about, exactly. The sets are filled from the clients and servers that are
registered when the cycle begins, and no callback runs before the phases that make use of them.
-/

namespace AsyncTcpSock

open Reentrant Proc Manager

/-- What `_pendingWrite` reports as long as nobody holds the write mutex of the client. -/
def Client.pendingWrite (cl : Client) : Bool :=
  decide (cl.state ≠ .disconnected ∧ cl.state ≠ .connected) || !cl.writeQueue.isEmpty

/-- What `hasFreeSocket` reports. -/
def World.hasFreeSocket [Configuration] (w : World) : Bool :=
  match Configuration.maxSockets with
  | some n => w.clientList.length + w.serverList.length < n
  | none => true

/-- A cycle that begins in `w` asks `select` whether `fd` can be read. -/
def World.WatchesRead [Configuration] (w : World) (fd : ℤ) : Prop :=
  fd ≠ -1 ∧ ((∃ c cl, w.clients c = some cl ∧ cl.socket = fd) ∨
    w.hasFreeSocket = true ∧ ∃ srv s, w.servers srv = some s ∧ s.socket = fd)

/-- A cycle that begins in `w` asks `select` whether `fd` can be written. -/
def World.WatchesWrite (w : World) (fd : ℤ) : Prop :=
  fd ≠ -1 ∧ ∃ c cl, w.clients c = some cl ∧ cl.socket = fd ∧ cl.pendingWrite = true

/-- What `select` is going to report about the descriptors it is asked about. -/
def World.readiness (w : World) : List ℤ × List ℤ := w.outcomes.cycles.headD ([], [])

/-- In a cycle that begins in `w`, `r` are the descriptors found ready for reading and `s` those
found ready for writing. -/
structure World.Selects [Configuration] (w : World) (r s : List ℤ) : Prop where
  /-- The first set, as `select` leaves it. -/
  read (fd : ℤ) : fd ∈ r ↔ w.WatchesRead fd ∧ fd ∈ w.readiness.1
  /-- The second set, as `select` leaves it. -/
  write (fd : ℤ) : fd ∈ s ↔ w.WatchesWrite fd ∧ fd ∈ w.readiness.2

section

variable {C : Contract World Yield Fault} {w : World}

/-! ## The visits -/

/-- What `_pendingWrite` does, exactly. -/
theorem wp_pendingWrite_eq {c : ClientId} {cl : Client} {Q : Bool → World → Prop}
    (hcl : w.clients c = some cl) (hheld : Mutex.write c ∉ w.held) :
    wp C (ClientBase.pendingWrite c) Q w ↔ Q cl.pendingWrite w := by
  rw [ClientBase.pendingWrite, wp_bind, wp_this, hcl, Option.elim_some, wp_ite]
  split
  · rename_i hstate
    rw [wp_pure, Client.pendingWrite, decide_eq_true hstate, Bool.true_or]
  · rename_i hstate
    rw [wp_bind, wp_tryLock, if_neg hheld, wp_ite, if_pos rfl, wp_bind, wp_this,
      World.hold_clients, hcl, Option.elim_some, wp_bind, wp_unlock, World.release_hold hheld,
      wp_pure, Client.pendingWrite, decide_eq_false hstate, Bool.false_or]

variable [Configuration]

omit [Configuration] in
/-- The condition under which a visit adds the socket of client `c` to a set. -/
theorem exists_mem_cons {c : ClientId} {cl : Client} {rest : List ClientId} {fd : ℤ}
    {p : Client → Prop} (hcl : w.clients c = some cl) :
    (∃ c' ∈ c :: rest, ∃ cl', w.clients c' = some cl' ∧ cl'.socket = fd ∧ fd ≠ -1 ∧ p cl') ↔
      cl.socket = fd ∧ fd ≠ -1 ∧ p cl ∨
        ∃ c' ∈ rest, ∃ cl', w.clients c' = some cl' ∧ cl'.socket = fd ∧ fd ≠ -1 ∧ p cl' := by
  constructor
  · rintro ⟨c', hc', cl', hcl', h⟩
    rcases List.mem_cons.mp hc' with rfl | hc'
    · obtain rfl := Option.some.inj (hcl.symm.trans hcl')
      exact .inl h
    · exact .inr ⟨c', hc', cl', hcl', h⟩
  · rintro (h | ⟨c', hc', h⟩)
    · exact ⟨c, List.mem_cons_self, cl, hcl, h⟩
    · exact ⟨c', List.mem_cons_of_mem c hc', h⟩

/-- The visit of the clients `l` puts the sockets of the open ones into the sets. -/
theorem wp_collectClients_eq {l : List ClientId} {r s : List ℤ} {log : List ManagerEvent}
    (hlive : ∀ c ∈ l, (w.clients c).isSome) (hheld : w.held = ∅) :
    wp C (collectClients l r s)
      (fun sets w' => (∃ log, w' = ({ w with log } : World).hold .manager) ∧
        (∀ fd, fd ∈ sets.1 ↔ fd ∈ r ∨ ∃ c ∈ l, ∃ cl, w.clients c = some cl ∧ cl.socket = fd ∧
          fd ≠ -1 ∧ True) ∧
        ∀ fd, fd ∈ sets.2 ↔ fd ∈ s ∨ ∃ c ∈ l, ∃ cl, w.clients c = some cl ∧ cl.socket = fd ∧
          fd ≠ -1 ∧ cl.pendingWrite = true)
      (({ w with log } : World).hold .manager) := by
  -- the sets grow along the list, and the log with them
  induction l generalizing r s log with
  | nil =>
      rw [collectClients, wp_pure]
      exact ⟨⟨log, rfl⟩, by simp, by simp⟩
  | cons c rest ih =>
      have hrest := fun c' hc' => hlive c' (List.mem_cons_of_mem c hc')
      obtain ⟨cl, hcl⟩ := Option.isSome_iff_exists.mp (hlive c List.mem_cons_self)
      have hcl' (log : List ManagerEvent) :
          (({ w with log } : World).hold .manager).clients c = some cl := hcl
      have hfree (log : List ManagerEvent) :
          Mutex.write c ∉ (({ w with log } : World).hold .manager).held := by
        simp [World.hold, hheld]
      simp only [exists_mem_cons hcl]
      rw [collectClients, wp_bind, wp_this, hcl', Option.elim_some, wp_ite]
      split
      · rename_i hsocket
        rw [wp_bind, wp_managerLog, wp_bind]
        refine (wp_pendingWrite_eq (hcl' (.fdSet .read c cl.socket cl.connection :: log))
          (hfree _)).mpr ?_
        rw [wp_ite]
        split
        · -- it has something to write, and goes into both sets
          rename_i hpending
          rw [wp_bind, wp_managerLog]
          refine wp_mono (@ih (cl.socket :: r) (cl.socket :: s)
            (.fdSet .write c cl.socket cl.connection ::
              .fdSet .read c cl.socket cl.connection :: log) hrest) ?_
          rintro sets w' ⟨hw', hread, hwrite⟩
          refine ⟨hw', fun fd => ?_, fun fd => ?_⟩
          · rw [hread, List.mem_cons]
            grind
          · rw [hwrite, List.mem_cons]
            grind
        · -- it goes into the read set alone
          rename_i hpending
          refine wp_mono (@ih (cl.socket :: r) s
            (.fdSet .read c cl.socket cl.connection :: log) hrest) ?_
          rintro sets w' ⟨hw', hread, hwrite⟩
          refine ⟨hw', fun fd => ?_, fun fd => ?_⟩
          · rw [hread, List.mem_cons]
            grind
          · rw [hwrite]
            grind
      · -- a client without a socket is passed over
        rename_i hsocket
        refine wp_mono (ih hrest) ?_
        rintro sets w' ⟨hw', hread, hwrite⟩
        refine ⟨hw', fun fd => ?_, fun fd => ?_⟩
        · rw [hread]
          grind
        · rw [hwrite]
          grind

/-- `hasFreeSocket` only looks at the lists. -/
theorem wp_hasFreeSocket_eq {Q : Bool → World → Prop} :
    wp C Manager.hasFreeSocket Q w ↔ Q w.hasFreeSocket w := Iff.rfl

/-- The visit of the servers `l` adds the sockets of those that listen, if a socket is free. -/
theorem wp_collectServers_eq {l : List ServerId} {r : List ℤ}
    (hlive : ∀ srv ∈ l, (w.servers srv).isSome) :
    wp C (collectServers l r)
      (fun r' w' => w' = w ∧ ∀ fd, fd ∈ r' ↔ fd ∈ r ∨
        w.hasFreeSocket = true ∧ ∃ srv ∈ l, ∃ s, w.servers srv = some s ∧ s.socket = fd ∧ fd ≠ -1)
      w := by
  induction l generalizing r with
  | nil => exact ⟨rfl, by simp⟩
  | cons srv rest ih =>
      have hrest := fun srv' h => hlive srv' (List.mem_cons_of_mem srv h)
      obtain ⟨s, hs⟩ := Option.isSome_iff_exists.mp (hlive srv List.mem_cons_self)
      rw [collectServers, wp_bind, wp_server, hs, Option.elim_some, wp_ite]
      split
      · rename_i hsocket
        rw [wp_bind, wp_hasFreeSocket_eq, wp_ite]
        split
        · -- there is room for one client more, so the server is waited for
          refine wp_mono (ih hrest) ?_
          rintro r' w' ⟨rfl, hr'⟩
          refine ⟨rfl, fun fd => ?_⟩
          rw [hr', List.mem_cons]
          grind
        · refine wp_mono (ih hrest) ?_
          rintro r' w' ⟨rfl, hr'⟩
          refine ⟨rfl, fun fd => ?_⟩
          rw [hr']
          grind
      · refine wp_mono (ih hrest) ?_
        rintro r' w' ⟨rfl, hr'⟩
        refine ⟨rfl, fun fd => ?_⟩
        rw [hr']
        grind

/-! ## The call of `select` -/

/-- A cycle asks `select` about the sockets of the clients and servers there are, and goes on with
those that are ready. -/
theorem wp_selectReady_eq {Q : List ℤ × List ℤ → World → Prop} (hw : w.Sound) (hreg : w.Registry)
    (hQ : ∀ log r s o, w.Selects r s → Q (r, s) (({ w with log } : World).elapse o w.clock)) :
    wp C selectReady Q w := by
  have hmutex {w : World} (hw : w.Sound) : Mutex.manager ∉ w.held := by simp [hw.unheld]
  rw [selectReady, wp_bind, wp_managerLog, wp_bind, wp_lock, if_neg (hmutex hw), wp_bind, wp_get,
    wp_bind]
  -- the clients fill both sets, and the servers add to the first
  refine wp_mono (wp_collectClients_eq hw.clientsLive hw.unheld) ?_
  rintro ⟨r, s⟩ _ ⟨⟨log, rfl⟩, hread, hwrite⟩
  have hw₁ : ({ w with log } : World).Sound := { hw with }
  rw [wp_bind, wp_unlock, World.release_hold (hmutex hw₁), wp_bind, wp_lock, if_neg (hmutex hw₁),
    wp_bind, wp_get, wp_bind]
  refine wp_mono (wp_collectServers_eq hw₁.serversLive) ?_
  rintro r' _ ⟨rfl, hr'⟩
  rw [wp_bind, wp_unlock, World.release_hold (hmutex hw₁), selectAll, wp_bind, wp_take, wp_pure]
  refine hQ log _ _ _ ⟨fun fd => ?_, fun fd => ?_⟩
  · rw [List.mem_filter, decide_eq_true_eq, hr', hread]
    refine and_congr ⟨?_, ?_⟩ Iff.rfl
    · rintro ((hnone | ⟨c, -, cl, hcl, hsocket, hne, -⟩) | ⟨hfree, srv, -, s, hs, hsocket, hne⟩)
      · cases hnone
      · exact ⟨hne, .inl ⟨c, cl, hcl, hsocket⟩⟩
      · exact ⟨hne, .inr ⟨hfree, srv, s, hs, hsocket⟩⟩
    · -- whoever has a socket is registered
      rintro ⟨hne, ⟨c, cl, hcl, hsocket⟩ | ⟨hfree, srv, s, hs, hsocket⟩⟩
      · exact .inl (.inr ⟨c, hreg.clients c (by simp [hcl]), cl, hcl, hsocket, hne, trivial⟩)
      · exact .inr ⟨hfree, srv, hreg.servers srv (by simp [hs]), s, hs, hsocket, hne⟩
  · rw [List.mem_filter, decide_eq_true_eq, hwrite]
    refine and_congr ⟨?_, ?_⟩ Iff.rfl
    · rintro (hnone | ⟨c, -, cl, hcl, hsocket, hne, hpending⟩)
      · cases hnone
      · exact ⟨hne, c, cl, hcl, hsocket, hpending⟩
    · rintro ⟨hne, c, cl, hcl, hsocket, hpending⟩
      exact .inr ⟨c, hreg.clients c (by simp [hcl]), cl, hcl, hsocket, hne, hpending⟩

/-- Every cycle begins by asking `select` about every open client and, as long as a socket is free,
about every listening server, and whether it can write to those clients that have something to write
or an attempt or a close under way. It goes on with exactly those of them that are ready, and
nothing has been done to a client or a server until then. -/
theorem select_exact {good : StepCondition} {w : World} (hs : ReachableIf good ⟨w, .idle⟩) :
    ∃ r t w', selectReady w = .done (r, t) w' ∧ w'.clients = w.clients ∧ w'.servers = w.servers ∧
      w'.held = ∅ ∧ (∀ fd, fd ∈ r ↔ w.WatchesRead fd ∧ fd ∈ w.readiness.1) ∧
      ∀ fd, fd ∈ t ↔ w.WatchesWrite fd ∧ fd ∈ w.readiness.2 := by
  obtain ⟨hsound, hregistry⟩ := hs.registry nofun
  have hselect : wp faultless selectReady (fun sets w' => w'.clients = w.clients ∧
      w'.servers = w.servers ∧ w'.held = ∅ ∧ w.Selects sets.1 sets.2) w :=
    wp_selectReady_eq hsound hregistry fun _ _ _ _ hselects =>
      ⟨rfl, rfl, hsound.unheld, hselects⟩
  obtain ⟨⟨r, t⟩, w', hdone, hclients, hservers, hheld, hselects⟩ := exists_done_of_wp hselect
  exact ⟨r, t, w', hdone, hclients, hservers, hheld, hselects.read, hselects.write⟩

end

section

attribute [local instance] Configuration.esp32

/-- A connected client with an empty write queue is found ready for reading only, although its
socket can be written as well. -/
theorem select_exact_connected :
    ∃ w, Reachable ⟨w, .idle⟩ ∧ w.readiness = ([48], [48]) ∧
      (w.clients 0).any (·.state = .connected) = true ∧
      ∃ r t w', selectReady w = .done (r, t) w' ∧ w'.clients = w.clients ∧
        w'.servers = w.servers ∧ w'.held = ∅ ∧
        (∀ fd, fd ∈ r ↔ w.WatchesRead fd ∧ fd ∈ w.readiness.1) ∧
        ∀ fd, fd ∈ t ↔ w.WatchesWrite fd ∧ fd ∈ w.readiness.2 := by
  obtain ⟨⟨w, control⟩, hs, hidle, hready, hconnected⟩ := exists_reachable
    (P := fun s => s.control.isIdle = true ∧ s.state.readiness = ([48], [48]) ∧
      (s.state.clients 0).any (·.state = .connected) = true)
    [.ext (.newClientFrom 48), .ext (.outcomes { cycles := [([48], [48])] })] (by decide +kernel)
  obtain rfl : control = .idle := Control.isIdle_iff.mp hidle
  exact ⟨w, hs, hready, hconnected, select_exact hs⟩

end

end AsyncTcpSock
