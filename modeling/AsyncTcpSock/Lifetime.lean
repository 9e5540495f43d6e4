import AsyncTcpSock.CycleRules
import AsyncTcpSock.Runs

/-!
# Destroyed objects

The manager works through copies of its lists while callbacks destroy clients and servers, and a
handler goes on with its client when a callback has returned. A run comes to no use of a destroyed
object as long as callbacks spare the objects the phase has still to come to, and the client they
are called for unless the handler is done with it.
-/

namespace AsyncTcpSock

open Reentrant

/-! ## The property -/

/-- What has gone wrong in a configuration, if anything. -/
def System.fault (s : System) : Option Fault :=
  match s.control with
  | .faulted f => some f
  | _ => none

/-- The manager, or a handler it runs, has come to use an object that is destroyed. -/
def System.UsesDestroyed (s : System) : Prop :=
  (∃ c, s.fault = some (.staleClient c)) ∨ ∃ srv, s.fault = some (.staleServer srv)

/-- The handler that has called back goes on with client `c` when the callback returns. -/
def NeededBy (c : ClientId) : Option Yield → Prop
  | some (.client c' _ false) => c' = c
  | _ => False

/-- A destroyed client is neither waiting for its turn in a phase nor needed by the handler that has
called back, and a destroyed server is not waiting for its turn. -/
def SparesUsed : StepCondition
  | place, w, .deleteClient c => c ∉ w.clientsProcessing ∧ ¬ NeededBy c place
  | _, w, .deleteServer srv => srv ∉ w.serversProcessing
  | _, _, _ => True

instance NeededBy.decidable (c : ClientId) : (place : Option Yield) → Decidable (NeededBy c place)
  | some (.client c' _ false) => inferInstanceAs (Decidable (c' = c))
  | some (.client _ _ true) | some (.accept _ _) | none => .isFalse nofun

instance SparesUsed.decidable (place : Option Yield) (w : World) :
    (e : Ext) → Decidable (SparesUsed place w e)
  | .deleteClient c => inferInstanceAs (Decidable (c ∉ w.clientsProcessing ∧ ¬ NeededBy c place))
  | .deleteServer srv => inferInstanceAs (Decidable (srv ∉ w.serversProcessing))
  | .call _ _ | .newClient | .newClientFrom _ | .newServer _ _ | .beginServer _ | .endServer _
  | .onClient _ _ | .dnsFound _ _ _ | .outcomes _ => .isTrue trivial

/-! ## Live objects -/

/-- The objects the manager has still to come to are live. -/
structure World.SnapshotsLive (w : World) : Prop where
  /-- The clients that are left in the snapshot of a phase. -/
  clients : ∀ c ∈ w.clientsProcessing, (w.clients c).isSome
  /-- The servers that are left in the snapshot of the server phase. -/
  servers : ∀ srv ∈ w.serversProcessing, (w.servers srv).isSome

section

variable {w w' : World}

/-- Only the objects and the snapshots matter. -/
theorem World.SnapshotsLive.agrees (hw : w.SnapshotsLive) (hclients : w'.clients = w.clients)
    (hservers : w'.servers = w.servers) (hprocessing : w'.clientsProcessing = w.clientsProcessing)
    (hprocessing' : w'.serversProcessing = w.serversProcessing) : w'.SnapshotsLive := by
  obtain ⟨h₁, h₂⟩ := hw
  rw [← hclients, ← hprocessing] at h₁
  rw [← hservers, ← hprocessing'] at h₂
  exact ⟨h₁, h₂⟩

/-- Objects that live go on living. -/
theorem World.SnapshotsLive.of_live (hw : w.SnapshotsLive) (hframe : w.Frame w')
    (hclients : ∀ c ∈ w.clientsProcessing, (w.clients c).isSome → (w'.clients c).isSome)
    (hservers : ∀ srv ∈ w.serversProcessing, (w.servers srv).isSome → (w'.servers srv).isSome) :
    w'.SnapshotsLive where
  clients c hc := by
    rw [hframe.clientsProcessing] at hc
    exact hclients c hc (hw.clients c hc)
  servers srv hsrv := by
    rw [hframe.serversProcessing] at hsrv
    exact hservers srv hsrv (hw.servers srv hsrv)

/-- A move of a client changes no server. -/
theorem Move.servers {R : Time → Time → Client → SocketChange → Client → Prop} {c : ClientId}
    (h : Move R c w w') : w'.servers = w.servers := by
  obtain ⟨cl', o, t, d, e, f, ht, rfl⟩ := h.eq_put
  rfl

/-- A client is live after a move if it was before. -/
theorem Move.live {R : Time → Time → Client → SocketChange → Client → Prop} {c c' : ClientId}
    (h : Move R c w w') (hc' : (w.clients c').isSome) : (w'.clients c').isSome := by
  rw [Option.isSome_iff_ne_none] at hc' ⊢
  rwa [ne_eq, h.clients_eq_none]

variable [Configuration] {e : Ext}

omit [Configuration] in
/-- An object that is replaced, or another one that is, lives on. -/
theorem isSome_update {α β : Type} [DecidableEq α] {f : α → Option β} {a a' : α} (b : β)
    (ha : (f a).isSome) : (Function.update f a' (some b) a).isSome := by
  by_cases hne : a = a'
  · subst hne
    rw [Function.update_self]
    rfl
  · rwa [Function.update_of_ne hne]

/-- The environment destroys a client by `Client::~Client` only. -/
theorem Change.live {c : ClientId} (h : Change e w w') (hc : (w.clients c).isSome)
    (he : e ≠ .deleteClient c) : (w'.clients c).isSome := by
  cases h with
  | call hmoves =>
      induction hmoves with
      | refl => exact hc
      | tail _ hmove ih => exact hmove.live ih
  | newClient _ => exact isSome_update _ hc
  | newClientFrom _ _ _ hd =>
      obtain ⟨d, e, f, rfl⟩ := hd.frame
      exact isSome_update _ hc
  | @deleteClient c' _ _ =>
      have hne : c ≠ c' := by
        rintro rfl
        exact he rfl
      simpa [World.removeClient, Function.update_of_ne hne] using hc
  | deleteServer _ => simpa [World.removeServer] using hc
  | begun _ _ hd =>
      obtain ⟨d, e, f, rfl⟩ := hd.frame
      exact hc
  | ended _ => simpa [World.setServer] using hc
  | dnsFound hmove => exact hmove.live hc
  | newServer _ | notBegun | onClient _ | outcomes => exact hc

/-- The environment destroys a server by `Server::~Server` only. -/
theorem Change.serverLive {srv : ServerId} (h : Change e w w') (hsrv : (w.servers srv).isSome)
    (he : e ≠ .deleteServer srv) : (w'.servers srv).isSome := by
  cases h with
  | call hmoves =>
      induction hmoves with
      | refl => exact hsrv
      | tail _ hmove ih => rwa [hmove.servers]
  | newClientFrom _ _ _ hd =>
      obtain ⟨d, e, f, rfl⟩ := hd.frame
      exact hsrv
  | deleteClient _ => simpa [World.removeClient] using hsrv
  | newServer _ => exact isSome_update _ hsrv
  | @deleteServer srv' _ _ =>
      have hne : srv ≠ srv' := by
        rintro rfl
        exact he rfl
      simpa [World.removeServer, Function.update_of_ne hne] using hsrv
  | begun _ _ hd =>
      obtain ⟨d, e, f, rfl⟩ := hd.frame
      exact isSome_update _ hsrv
  | ended _ => simpa [World.setServer] using isSome_update _ hsrv
  | onClient _ => exact isSome_update _ hsrv
  | dnsFound hmove => rwa [hmove.servers]
  | newClient _ | notBegun | outcomes => exact hsrv

/-- The environment keeps the objects alive that the manager has still to come to. -/
theorem World.SnapshotsLive.change {place : Option Yield} (hw : w.SnapshotsLive)
    (hgood : SparesUsed place w e) (h : Change e w w') : w'.SnapshotsLive := by
  refine hw.of_live h.frame (fun c hc hlive => h.live hlive ?_) fun srv hsrv hlive =>
    h.serverLive hlive ?_
  · rintro rfl
    exact hgood.1 hc
  · rintro rfl
    exact hgood hsrv

end

/-! ## The system -/

section

variable [Configuration]

/-- What holds of a client in phase `φ`: the snapshots are live, and so is the client as long as its
handler is not done with it. -/
def World.KeptAlive (c : ClientId) (φ : Phase) (w : World) : Prop :=
  w.SnapshotsLive ∧ (φ ≠ .idle → (w.clients c).isSome)

/-- The handlers of a client keep alive what the manager has still to come to. -/
theorem lifetimeClientRule :
    ClientRule SparesUsed (fun _ _ => True) (fun _ _ => False) World.SnapshotsLive
      World.KeptAlive where
  idle := ⟨fun h => h.1, fun h => ⟨h, fun hφ => absurd rfl hφ⟩⟩
  step := fun _ ⟨hw, _⟩ hmove =>
    ⟨hw.of_live hmove.frame (fun _ _ => hmove.live) fun _ _ => by rw [hmove.servers]; exact id,
      fun _ => hmove.isSome⟩
  touch := fun _ hw hcl ht =>
    have hmove := Move.of_kept (R := UserStep) _ hcl ht (.touch _)
    hw.of_live hmove.frame (fun _ _ => hmove.live) fun _ _ => id
  elapse := fun _ hw _ => hw.agrees rfl rfl rfl rfl
  stale := fun _ ⟨_, hlive⟩ hφ hcl _ => by simpa [hcl] using hlive hφ
  yield := fun _ _ _ _ _ => trivial
  env := fun {c φ cb e w w'} _ _ ⟨hw, hlive⟩ hgood hchange => by
    refine ⟨hw.change hgood hchange, fun hφ => hchange.live (hlive hφ) ?_⟩
    -- the handler is not done with the client, so the callback has not destroyed it
    rintro rfl
    rw [decide_eq_false hφ] at hgood
    exact hgood.2 rfl

/-- So does `_sockIsReadable` of a server. -/
theorem lifetimeServerRule :
    ServerRule SparesUsed (fun _ _ => True) World.SnapshotsLive where
  update := fun _ _ hw _ _ => ⟨hw.clients, fun srv hsrv => isSome_update _ (hw.servers srv hsrv)⟩
  accept := fun {socket w _} _ hw hchange =>
    have hgood : SparesUsed none w (.newClientFrom socket) := trivial
    hw.change hgood hchange
  yield := fun _ _ => trivial
  env := fun _ hw hgood hchange => hw.change hgood hchange

/-- So does a cycle. -/
theorem lifetimeCycleRule :
    CycleRule SparesUsed (fun _ _ => True) (fun _ _ => False) World.SnapshotsLive
      World.KeptAlive where
  client := lifetimeClientRule
  server := lifetimeServerRule
  record := fun _ hw => hw.agrees rfl rfl rfl rfl
  snapshot := fun hsound hw hsub =>
    ⟨fun c hc => hsound.clientsLive c (hsub.subset hc), hw.servers⟩
  next := fun {w c rest} _ hw hrest =>
    ⟨fun c' hc' => hw.clients c' (hrest ▸ List.mem_cons_of_mem c hc'), hw.servers⟩
  gone := fun {w w' c rest} _ hw hrest hcl _ => by
    simpa [hcl] using hw.clients c (hrest ▸ List.mem_cons_self)
  serverSnapshot := fun hsound hw hsub =>
    ⟨hw.clients, fun srv hsrv => hsound.serversLive srv (hsub.subset hsrv)⟩
  serverNext := fun {w srv rest} _ hw hrest =>
    ⟨hw.clients, fun srv' hsrv' => hw.servers srv' (hrest ▸ List.mem_cons_of_mem srv hsrv')⟩
  serverGone := fun {w w' srv rest} _ hw hrest hs _ => by
    simpa [hs] using hw.servers srv (hrest ▸ List.mem_cons_self)

/-- In every run whose callbacks spare the objects that are still used, the manager and the handlers
it runs never use a destroyed object. -/
theorem never_uses_destroyed {s : System} (hs : ReachableIf SparesUsed s) : ¬ s.UsesDestroyed := by
  have h := holds_of_rules lifetimeClientRule lifetimeServerRule
    (fun w hsound hw => lifetimeCycleRule.wp_updateConnectionStates hsound hw)
    ⟨nofun, nofun⟩ (fun _ _ _ _ hw hgood hchange => hw.change hgood hchange)
    (fun _ _ _ _ _ _ _ => trivial) hs
  obtain ⟨w, control⟩ := s
  cases control with
  | idle => simp [System.UsesDestroyed, System.fault]
  | suspended i k => simp [System.UsesDestroyed, System.fault]
  | faulted f => exact h.elim

end

section

attribute [local instance] Configuration.esp32

/-- Two clients; the first one is connecting when its `ERROR` callback destroys client `c`. -/
def errorDestroys (c : ClientId) : List Label :=
  [.ext .newClient, .ext .newClient,
    .ext (.outcomes { sockets := [48], connects := [none], sockopts := [.socketError 111] }),
    .ext (.call 0 (.connectIP (.v4 1) 80)), .start (.handle .writeable 0), .ext (.deleteClient c),
    .resume]

/-- The callback destroys the client that nobody uses. -/
theorem never_uses_destroyed_other :
    ∃ s, ReachableIf SparesUsed s ∧ s.state.clients 1 = none ∧ ¬ s.UsesDestroyed := by
  obtain ⟨s, hs, hgone⟩ := exists_reachableIf SparesUsed
    (P := fun s => (s.state.clients 1).isNone = true) (errorDestroys 1) (by decide +kernel)
  exact ⟨s, hs, Option.isNone_iff_eq_none.mp hgone, never_uses_destroyed hs⟩

/-- The callback destroys its own client, which `_error` goes on to close. -/
theorem not_never_uses_destroyed : ¬ ∀ s, Reachable s → ¬ s.UsesDestroyed := by
  intro h
  obtain ⟨s, hs, hfault⟩ := exists_reachable
    (P := fun s => s.fault = some (.staleClient 0)) (errorDestroys 0) (by decide +kernel)
  exact h s hs (.inl ⟨0, hfault⟩)

end

end AsyncTcpSock
