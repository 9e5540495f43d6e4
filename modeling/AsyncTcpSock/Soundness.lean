import AsyncTcpSock.Environment

/-!
# Sound worlds

`World.Sound` is what the manager relies on between two pieces of code: no mutex is held, and the
lists of the manager name live objects, each once. Moves and changes keep it, and they leave the
snapshots alone that the manager is working through.
-/

namespace AsyncTcpSock

open Reentrant

/-- Nobody holds a mutex, and the manager's lists name live objects, each once. -/
structure World.Sound (w : World) : Prop where
  /-- No mutex is held. -/
  unheld : w.held = ∅
  /-- No client is on the list twice. -/
  clientsNodup : w.clientList.Nodup
  /-- The clients on the list are alive. -/
  clientsLive : ∀ c ∈ w.clientList, (w.clients c).isSome
  /-- The names of clients to come are unused. -/
  clientsFresh : ∀ c, w.nextClient ≤ c → w.clients c = none
  /-- No server is on the list twice. -/
  serversNodup : w.serverList.Nodup
  /-- The servers on the list are alive. -/
  serversLive : ∀ srv ∈ w.serverList, (w.servers srv).isSome
  /-- The names of servers to come are unused. -/
  serversFresh : ∀ srv, w.nextServer ≤ srv → w.servers srv = none

/-- What a move or a change leaves alone: the manager's snapshots and its log, and the numbers of
new objects only grow. -/
structure World.Frame (w w' : World) : Prop where
  /-- The snapshot of the clients is the same. -/
  clientsProcessing : w'.clientsProcessing = w.clientsProcessing
  /-- The snapshot of the servers is the same. -/
  serversProcessing : w'.serversProcessing = w.serversProcessing
  /-- The manager has recorded nothing. -/
  log : w'.log = w.log
  /-- Clients may have been constructed. -/
  nextClient : w.nextClient ≤ w'.nextClient
  /-- Time may have passed. -/
  clock : w.clock ≤ w'.clock

namespace World.Frame

/-- A world is framed by itself. -/
theorem refl (w : World) : w.Frame w := ⟨rfl, rfl, rfl, le_rfl, le_rfl⟩

/-- Frames compose. -/
theorem trans {w₁ w₂ w₃ : World} (h₁ : w₁.Frame w₂) (h₂ : w₂.Frame w₃) : w₁.Frame w₃ where
  clientsProcessing := h₂.clientsProcessing.trans h₁.clientsProcessing
  serversProcessing := h₂.serversProcessing.trans h₁.serversProcessing
  log := h₂.log.trans h₁.log
  nextClient := h₁.nextClient.trans h₂.nextClient
  clock := h₁.clock.trans h₂.clock

end World.Frame

namespace Move

variable {R : Time → Time → Client → SocketChange → Client → Prop} {c : ClientId} {w w' : World}

/-- A move of a client leaves the snapshots and the log alone. -/
theorem frame (h : Move R c w w') : w.Frame w' := by
  obtain ⟨cl', o, t, d, e, f, ht, rfl⟩ := h.eq_put
  exact ⟨rfl, rfl, rfl, le_rfl, ht⟩

/-- Only live clients move. -/
theorem wasSome (h : Move R c w w') : (w.clients c).isSome := by
  obtain ⟨o, hcl, ht, hR, hd⟩ := h
  rw [hcl]
  rfl

/-- A client is live after a move if and only if it was before. -/
theorem clients_eq_none (h : Move R c w w') (c' : ClientId) :
    w'.clients c' = none ↔ w.clients c' = none := by
  by_cases hne : c' = c
  · subst hne
    have h₁ := h.isSome
    have h₂ := h.wasSome
    rw [Option.isSome_iff_ne_none] at h₁ h₂
    exact iff_of_false h₁ h₂
  · rw [h.clients_of_ne hne]

/-- A move of a client keeps the world sound. -/
theorem sound (h : Move R c w w') (hw : w.Sound) : w'.Sound := by
  have hnone := h.clients_eq_none
  obtain ⟨cl', o, t, d, e, f, ht, rfl⟩ := h.eq_put
  refine { hw with clientsLive := fun c' hc' => ?_, clientsFresh := fun c' hc' => ?_ }
  · rw [Option.isSome_iff_ne_none, ne_eq, hnone, ← ne_eq, ← Option.isSome_iff_ne_none]
    exact hw.clientsLive c' hc'
  · exact (hnone c').mpr (hw.clientsFresh c' hc')

end Move

variable {w w' : World}

/-- The world is sound at the beginning. -/
theorem World.sound_empty : World.Sound {} :=
  ⟨rfl, .nil, by simp, by simp, .nil, by simp, by simp⟩

/-- Time may pass. -/
theorem World.Sound.elapse (hw : w.Sound) (o : Outcomes) (t : Time) : (w.elapse o t).Sound :=
  { hw with }

/-- What happens to the descriptor of a client keeps the world sound. -/
theorem Descriptors.sound {socket : ℤ} {ch : SocketChange} (h : Descriptors w socket ch w')
    (hw : w.Sound) : w'.Sound := by
  obtain ⟨d, e, f, rfl⟩ := h.frame
  exact { hw with }

/-- `::close` keeps the world sound. -/
theorem World.Sound.closeFd (hw : w.Sound) (fd : ℤ) : (w.closeFd fd).Sound :=
  Descriptors.closed.sound hw

/-- A new client has a new name. -/
theorem World.Sound.addClient (hw : w.Sound) (cl : Client) : (w.addClient cl).Sound where
  unheld := hw.unheld
  clientsNodup := by
    have hnew : w.nextClient ∉ w.clientList := fun hmem => by
      simpa [hw.clientsFresh _ le_rfl] using hw.clientsLive _ hmem
    simpa [World.addClient] using hw.clientsNodup.concat hnew
  clientsLive c hc := by
    simp only [World.addClient, World.allocate, List.mem_append, List.mem_singleton] at hc ⊢
    by_cases hne : c = w.nextClient
    · simp [hne]
    · rw [Function.update_of_ne hne]
      exact hw.clientsLive c (hc.resolve_right hne)
  clientsFresh c hc := by
    simp only [World.addClient, World.allocate] at hc ⊢
    rw [Function.update_of_ne (Nat.ne_of_gt hc)]
    exact hw.clientsFresh c (Nat.le_of_succ_le hc)
  serversNodup := hw.serversNodup
  serversLive := hw.serversLive
  serversFresh := hw.serversFresh

/-- A new server has a new name. -/
theorem World.Sound.addServer (hw : w.Sound) (s : Server) : (w.addServer s).Sound where
  unheld := hw.unheld
  clientsNodup := hw.clientsNodup
  clientsLive := hw.clientsLive
  clientsFresh := hw.clientsFresh
  serversNodup := by
    have hnew : w.nextServer ∉ w.serverList := fun hmem => by
      simpa [hw.serversFresh _ le_rfl] using hw.serversLive _ hmem
    simpa [World.addServer] using hw.serversNodup.concat hnew
  serversLive srv hsrv := by
    simp only [World.addServer, List.mem_append, List.mem_singleton] at hsrv ⊢
    by_cases hne : srv = w.nextServer
    · simp [hne]
    · rw [Function.update_of_ne hne]
      exact hw.serversLive srv (hsrv.resolve_right hne)
  serversFresh srv hsrv := by
    simp only [World.addServer] at hsrv ⊢
    rw [Function.update_of_ne (Nat.ne_of_gt hsrv)]
    exact hw.serversFresh srv (Nat.le_of_succ_le hsrv)

/-- A client that is destroyed is not on the list any more. -/
theorem World.Sound.removeClient (hw : w.Sound) (c : ClientId) : (w.removeClient c).Sound where
  unheld := hw.unheld
  clientsNodup := hw.clientsNodup.filter _
  clientsLive c' hc' := by
    simp only [World.removeClient, List.mem_filter, decide_eq_true_eq] at hc' ⊢
    rw [Function.update_of_ne hc'.2]
    exact hw.clientsLive c' hc'.1
  clientsFresh c' hc' := by
    simp only [World.removeClient]
    by_cases hne : c' = c
    · simp [hne]
    · rw [Function.update_of_ne hne]
      exact hw.clientsFresh c' hc'
  serversNodup := hw.serversNodup
  serversLive := hw.serversLive
  serversFresh := hw.serversFresh

/-- A server that is destroyed is not on the list any more. -/
theorem World.Sound.removeServer (hw : w.Sound) (srv : ServerId) : (w.removeServer srv).Sound where
  unheld := hw.unheld
  clientsNodup := hw.clientsNodup
  clientsLive := hw.clientsLive
  clientsFresh := hw.clientsFresh
  serversNodup := hw.serversNodup.filter _
  serversLive srv' hsrv' := by
    simp only [World.removeServer, List.mem_filter, decide_eq_true_eq] at hsrv' ⊢
    rw [Function.update_of_ne hsrv'.2]
    exact hw.serversLive srv' hsrv'.1
  serversFresh srv' hsrv' := by
    simp only [World.removeServer]
    by_cases hne : srv' = srv
    · simp [hne]
    · rw [Function.update_of_ne hne]
      exact hw.serversFresh srv' hsrv'

/-- A server that changes still exists. -/
theorem World.Sound.setServer (hw : w.Sound) {srv : ServerId} {s : Server} (s' : Server)
    (hs : w.servers srv = some s) : (w.setServer srv s').Sound := by
  have hnone (srv' : ServerId) : (w.setServer srv s').servers srv' = none ↔
      w.servers srv' = none := by
    by_cases hne : srv' = srv
    · simp [World.setServer, hne, hs]
    · simp [World.setServer, Function.update_of_ne hne]
  refine { hw with serversLive := fun srv' hsrv' => ?_, serversFresh := fun srv' hsrv' => ?_ }
  · rw [Option.isSome_iff_ne_none, ne_eq, hnone, ← ne_eq, ← Option.isSome_iff_ne_none]
    exact hw.serversLive srv' hsrv'
  · exact (hnone srv').mpr (hw.serversFresh srv' hsrv')

variable [Configuration] {e : Ext}

/-- The moves of a call keep the world sound. -/
theorem sound_of_userMoves {c : ClientId} (h : Relation.ReflTransGen (UserMove c) w w')
    (hw : w.Sound) : w'.Sound := by
  induction h with
  | refl => exact hw
  | tail _ hmove ih => exact hmove.sound ih

/-- The environment keeps the world sound. -/
theorem Change.sound (h : Change e w w') (hw : w.Sound) : w'.Sound := by
  cases h with
  | call hmoves => exact sound_of_userMoves hmoves hw
  | newClient _ => exact (hw.addClient _).elapse _ _
  | newClientFrom _ _ _ hd => exact ((hd.sound hw).addClient _).elapse _ _
  | deleteClient _ => exact (hw.closeFd _).removeClient _
  | newServer _ => exact (hw.addServer _).elapse _ _
  | deleteServer _ => exact (hw.closeFd _).removeServer _
  | notBegun => exact hw.elapse _ _
  | begun hs _ hd =>
      obtain ⟨d, e, f, rfl⟩ := hd.frame
      exact ((hd.sound hw).setServer _ hs).elapse _ _
  | ended hs => exact (hw.closeFd _).setServer _ (by simpa using hs)
  | onClient hs => exact hw.setServer _ hs
  | dnsFound hmove => exact hmove.sound hw
  | outcomes => exact hw.elapse _ _

/-- The environment leaves the snapshots of the manager alone. -/
theorem Change.frame (h : Change e w w') : w.Frame w' := by
  -- the table of descriptors is no part of the frame
  have hdescriptors {w' : World} {socket : ℤ} {ch : SocketChange}
      (hd : Descriptors w socket ch w') : w.Frame w' := by
    obtain ⟨d, e, f, rfl⟩ := hd.frame
    exact ⟨rfl, rfl, rfl, le_rfl, le_rfl⟩
  cases h with
  | call hmoves =>
      induction hmoves with
      | refl => exact .refl w
      | tail _ hmove ih => exact ih.trans hmove.frame
  | newClient ht => exact ⟨rfl, rfl, rfl, Nat.le_succ _, ht⟩
  | newClientFrom ht₀ ht _ hd =>
      refine (hdescriptors hd).trans ⟨rfl, rfl, rfl, Nat.le_succ _, ?_⟩
      obtain ⟨d, e, f, rfl⟩ := hd.frame
      exact ht₀.trans ht
  | deleteClient _ => exact (hdescriptors .closed).trans ⟨rfl, rfl, rfl, le_rfl, le_rfl⟩
  | newServer ht => exact ⟨rfl, rfl, rfl, le_rfl, ht⟩
  | deleteServer _ => exact (hdescriptors .closed).trans ⟨rfl, rfl, rfl, le_rfl, le_rfl⟩
  | notBegun => exact ⟨rfl, rfl, rfl, le_rfl, le_rfl⟩
  | begun _ _ hd =>
      obtain ⟨d, e, f, rfl⟩ := hd.frame
      exact ⟨rfl, rfl, rfl, le_rfl, le_rfl⟩
  | ended _ => exact (hdescriptors .closed).trans ⟨rfl, rfl, rfl, le_rfl, le_rfl⟩
  | onClient _ => exact ⟨rfl, rfl, rfl, le_rfl, le_rfl⟩
  | dnsFound hmove => exact hmove.frame
  | outcomes => exact ⟨rfl, rfl, rfl, le_rfl, le_rfl⟩

/-! ## Single clients -/

/-- What a move of user code means for a single client. -/
theorem Move.userRun {c c' : ClientId} {cl' : Client} (h : UserMove c w w')
    (hcl' : w'.clients c' = some cl') :
    ∃ cl, w.clients c' = some cl ∧ UserRun w.clock cl w'.clock cl' := by
  have hclock := h.frame.clock
  by_cases hne : c' = c
  · subst hne
    obtain ⟨o, hcl, ht, hstep, hd⟩ := h
    obtain rfl : _ = cl' := Option.some.inj ((World.put_clients_self ..).symm.trans hcl')
    exact ⟨_, hcl, .step .refl ht hstep⟩
  · rw [h.clients_of_ne hne] at hcl'
    exact ⟨cl', hcl', .wait hclock⟩

/-- The moves of a call are a run of every client. -/
theorem userRun_of_userMoves {c c' : ClientId} {cl' : Client}
    (h : Relation.ReflTransGen (UserMove c) w w') (hcl' : w'.clients c' = some cl') :
    ∃ cl, w.clients c' = some cl ∧ UserRun w.clock cl w'.clock cl' := by
  induction h generalizing cl' with
  | refl => exact ⟨cl', hcl', .refl⟩
  | tail _ hmove ih =>
      obtain ⟨cl₁, hcl₁, hrun₁⟩ := hmove.userRun hcl'
      obtain ⟨cl, hcl, hrun⟩ := ih hcl₁
      exact ⟨cl, hcl, hrun.trans hrun₁⟩

/-- A client that has just been constructed, at time `t`. -/
inductive Client.Constructed (t : Time) : Client → Prop where
  | new {t₀ : Time} : t₀ ≤ t → Constructed t (Client.new t₀)
  | adopted {t₀ t₁ : Time} {socket : ℤ} : t₀ ≤ t₁ → t₁ ≤ t → 0 ≤ socket →
      Constructed t (Client.adopted t₀ t₁ socket)

/-- The run of a client begins with its construction. -/
theorem Client.Constructed.clientRun {t : Time} {cl : Client} (h : Client.Constructed t cl) :
    ClientRun t cl .idle := by
  cases h with
  | new ht => exact .wait (.new _) ht
  | adopted ht₀ ht hsocket => exact .wait (.adopted _ _ _ ht₀ hsocket) ht

/-- What a step of the environment means for a single client: user code has used it, or it has just
been constructed. -/
theorem Change.userRun_or_constructed {c : ClientId} {cl' : Client} (h : Change e w w')
    (hcl' : w'.clients c = some cl') :
    (∃ cl, w.clients c = some cl ∧ UserRun w.clock cl w'.clock cl') ∨
      c = w.nextClient ∧ Client.Constructed w'.clock cl' := by
  have hclock := h.frame.clock
  have hsame (hclients : w'.clients = w.clients) :
      ∃ cl, w.clients c = some cl ∧ UserRun w.clock cl w'.clock cl' :=
    ⟨cl', hclients ▸ hcl', .wait hclock⟩
  have hnew {w₁ : World} {cl : Client} {t : Time} (hw₁ : w₁.clients = w.clients)
      (hnext : w₁.nextClient = w.nextClient) (hcl : Client.Constructed t cl) (ht : w.clock ≤ t)
      (hcl' : (w₁.addClient cl).clients c = some cl') :
      (∃ cl, w.clients c = some cl ∧ UserRun w.clock cl t cl') ∨
        c = w.nextClient ∧ Client.Constructed t cl' := by
    simp only [World.addClient, World.allocate, hnext, hw₁] at hcl'
    -- a client that was not there before has the next number
    by_cases hne : c = w.nextClient
    · subst hne
      rw [Function.update_self] at hcl'
      obtain rfl := Option.some.inj hcl'
      exact .inr ⟨rfl, hcl⟩
    · rw [Function.update_of_ne hne] at hcl'
      exact .inl ⟨cl', hcl', .wait ht⟩
  cases h with
  | call hmoves => exact .inl (userRun_of_userMoves hmoves hcl')
  | newClient ht => exact hnew rfl rfl (.new le_rfl) ht hcl'
  | newClientFrom ht₀ ht hsocket hd =>
      obtain ⟨d, e, f, rfl⟩ := hd.frame
      exact hnew rfl rfl (.adopted ht le_rfl hsocket) (ht₀.trans ht) hcl'
  | @deleteClient c' _ _ =>
      refine .inl ⟨cl', ?_, .wait hclock⟩
      simp only [World.removeClient, World.closeFd_clients] at hcl'
      by_cases hne : c = c'
      · simp [hne] at hcl'
      · rwa [Function.update_of_ne hne] at hcl'
  | newServer _ => exact .inl (hsame rfl)
  | deleteServer _ => exact .inl (hsame (World.closeFd_clients ..))
  | notBegun => exact .inl (hsame rfl)
  | begun _ _ hd =>
      obtain ⟨d, e, f, rfl⟩ := hd.frame
      exact .inl (hsame rfl)
  | ended _ => exact .inl (hsame (World.closeFd_clients ..))
  | onClient _ => exact .inl (hsame rfl)
  | dnsFound hmove => exact .inl (hmove.userRun hcl')
  | outcomes => exact .inl (hsame rfl)

/-- The same with less said about a client that is new. -/
theorem Change.userRun {c : ClientId} {cl' : Client} (h : Change e w w')
    (hcl' : w'.clients c = some cl') :
    (∃ cl, w.clients c = some cl ∧ UserRun w.clock cl w'.clock cl') ∨
      c = w.nextClient ∧ ClientRun w'.clock cl' .idle :=
  (h.userRun_or_constructed hcl').imp_right fun ⟨hc, hnew⟩ => ⟨hc, hnew.clientRun⟩

end AsyncTcpSock
