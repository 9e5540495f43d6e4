import AsyncTcpSock.ClientInvariants
import AsyncTcpSock.CycleRules
import AsyncTcpSock.Resources.Ownership
import AsyncTcpSock.Runs

/-!
# Who owns the descriptors

Every open descriptor is the socket of exactly one live client or server, every socket is an open
descriptor, and none is closed twice. `_configureSocket` breaks this: when `fcntl` fails it closes
the descriptor and still stores it in `_socket`.
-/

namespace AsyncTcpSock

open Reentrant Resources

/-! ## The property -/

/-- An object that may own a descriptor. -/
inductive Owner where
  | client (c : ClientId)
  | server (srv : ServerId)
  deriving DecidableEq, Repr

/-- `SocketConnection::getSocket` of a live object. -/
def World.socketOf (w : World) : Owner → Option ℤ
  | .client c => (w.clients c).map Client.socket
  | .server srv => (w.servers srv).map Server.socket

/-- Every open descriptor is the socket of exactly one live object, every socket other than `-1` is
an open descriptor, and no descriptor has been closed twice. -/
structure World.DescriptorsOwned (w : World) : Prop where
  /-- An open descriptor belongs to one object. -/
  owned : ∀ fd ∈ w.descriptors, ∃! o, w.socketOf o = some fd
  /-- What an object stores is open. -/
  isOpen : ∀ o fd, w.socketOf o = some fd → fd ≠ -1 → fd ∈ w.descriptors
  /-- No descriptor has been closed twice. -/
  closedOnce : w.closedTwice = false

/-! ## Ownership as a table -/

/-- The descriptor that a `_socket` stands for. -/
def descriptorOf (socket : ℤ) : Option ℤ := if socket = -1 then none else some socket

/-- The descriptor an object holds. -/
def World.holds (w : World) (o : Owner) : Option ℤ := (w.socketOf o).bind descriptorOf

/-- The descriptors in use are owned, and none has been closed twice. -/
def World.Owned (w : World) : Prop := Owns w.holds w.descriptors ∧ w.closedTwice = false

section

variable {w w' w₁ : World} {o : Owner} {s s' fd : ℤ}

/-- The descriptor of a socket, unless this is -1. -/
theorem descriptorOf_eq_some : descriptorOf s = some fd ↔ s = fd ∧ fd ≠ -1 := by
  unfold descriptorOf
  split
  · rename_i hs
    refine ⟨nofun, fun ⟨hfd, hne⟩ => absurd (hs ▸ hfd.symm) hne⟩
  · rename_i hs
    rw [Option.some.injEq]
    exact ⟨fun h => ⟨h, h ▸ hs⟩, fun h => h.1⟩

/-- An object holds the descriptor of its socket. -/
theorem holds_eq_some : w.holds o = some fd ↔ w.socketOf o = some fd ∧ fd ≠ -1 := by
  rw [World.holds, Option.bind_eq_some_iff]
  constructor
  · rintro ⟨s, hs, hfd⟩
    obtain ⟨rfl, hne⟩ := descriptorOf_eq_some.mp hfd
    exact ⟨hs, hne⟩
  · rintro ⟨hs, hne⟩
    exact ⟨fd, hs, descriptorOf_eq_some.mpr ⟨rfl, hne⟩⟩

/-- What a client holds. -/
theorem holds_client {c : ClientId} {cl : Client} (hcl : w.clients c = some cl) :
    w.holds (.client c) = descriptorOf cl.socket := by
  simp [World.holds, World.socketOf, hcl]

/-- What a server holds. -/
theorem holds_server {srv : ServerId} {s : Server} (hs : w.servers srv = some s) :
    w.holds (.server srv) = descriptorOf s.socket := by
  simp [World.holds, World.socketOf, hs]

/-- An object that does not exist holds nothing. -/
theorem holds_of_none (h : w.socketOf o = none) : w.holds o = descriptorOf (-1) := by
  rw [World.holds, h]
  rfl

/-- When one client is replaced, only what it holds changes. -/
theorem holds_update_client {c : ClientId} {x : Option Client}
    (hclients : w'.clients = Function.update w.clients c x) (hservers : w'.servers = w.servers) :
    w'.holds = Function.update w.holds (.client c) (x.bind fun cl => descriptorOf cl.socket) := by
  funext o
  cases o with
  | client c' =>
      by_cases hne : c' = c
      · subst hne
        rw [Function.update_self, World.holds, World.socketOf, hclients, Function.update_self]
        cases x <;> rfl
      · rw [Function.update_of_ne (fun h => hne (Owner.client.inj h)), World.holds, World.socketOf,
          hclients, Function.update_of_ne hne]
        rfl
  | server srv =>
      rw [Function.update_of_ne (by simp), World.holds, World.socketOf, hservers]
      rfl

/-- When one server is replaced, only what it holds changes. -/
theorem holds_update_server {srv : ServerId} {x : Option Server}
    (hservers : w'.servers = Function.update w.servers srv x) (hclients : w'.clients = w.clients) :
    w'.holds = Function.update w.holds (.server srv) (x.bind fun s => descriptorOf s.socket) := by
  funext o
  cases o with
  | client c =>
      rw [Function.update_of_ne (by simp), World.holds, World.socketOf, hclients]
      rfl
  | server srv' =>
      by_cases hne : srv' = srv
      · subst hne
        rw [Function.update_self, World.holds, World.socketOf, hservers, Function.update_self]
        cases x <;> rfl
      · rw [Function.update_of_ne (fun h => hne (Owner.server.inj h)), World.holds, World.socketOf,
          hservers, Function.update_of_ne hne]
        rfl

/-- The table says what the property says. -/
theorem World.Owned.descriptorsOwned (hw : w.Owned) : w.DescriptorsOwned where
  owned fd hfd := by
    obtain ⟨o, ho, hunique⟩ := hw.1.existsUnique hfd
    obtain ⟨hsocket, hne⟩ := holds_eq_some.mp ho
    exact ⟨o, hsocket, fun o' ho' => hunique o' (holds_eq_some.mpr ⟨ho', hne⟩)⟩
  isOpen o fd ho hne := hw.1.mem (holds_eq_some.mpr ⟨ho, hne⟩)
  closedOnce := hw.2

/-! ## Steps -/

/-- Once an `fcntl` has failed this is never forgotten. -/
theorem Descriptors.fcntlFailed {ch : SocketChange} (h : Descriptors w s ch w₁)
    (hfcntl : w₁.fcntlFailed = false) : w.fcntlFailed = false := by
  cases h with
  | kept => exact hfcntl
  | closed =>
      rw [World.closeFd_eq] at hfcntl
      exact hfcntl
  | opened hw₁ =>
      obtain ⟨-, -, rfl⟩ := World.acquire_eq_some.mp hw₁
      exact hfcntl
  | misconfigured _ => cases hfcntl

/-- What a step does to the descriptors is what it does to the table, unless `fcntl` fails. -/
theorem World.Owned.descriptors {ch : SocketChange} (hw : w.Owned) (ho : w.holds o = descriptorOf s)
    (hd : Descriptors w s ch w₁) (hch : ch.Relates s s') (hfcntl : w₁.fcntlFailed = false) :
    Owns (Function.update w.holds o (descriptorOf s')) w₁.descriptors ∧ w₁.closedTwice = false := by
  cases hd with
  | kept =>
      obtain rfl : s' = s := hch
      rw [← ho, Function.update_eq_self]
      exact hw
  | closed =>
      obtain rfl : s' = -1 := hch
      by_cases hs : s = -1
      · -- there is nothing to close
        subst hs
        rw [← ho, Function.update_eq_self, World.closeFd, if_pos rfl]
        exact hw
      · have hheld : w.holds o = some s := by rw [ho, descriptorOf, if_neg hs]
        rw [World.closeFd, if_neg hs, if_pos (hw.1.mem hheld)]
        exact ⟨hw.1.release hheld, hw.2⟩
  | @opened fd _ hw₁ =>
      obtain ⟨rfl, rfl⟩ := hch
      obtain ⟨hpos, hmem, rfl⟩ := World.acquire_eq_some.mp hw₁
      have hne : s' ≠ -1 := by omega
      rw [descriptorOf, if_neg hne]
      exact ⟨hw.1.acquire ho hmem, hw.2⟩
  | misconfigured _ => cases hfcntl

/-- What the rules are applied to: as long as no `fcntl` has failed the descriptors are owned. -/
def World.OwnedUnlessMisconfigured (w : World) : Prop := w.fcntlFailed = false → w.Owned

/-- A step that replaces one object. -/
theorem World.OwnedUnlessMisconfigured.replace {ch : SocketChange}
    (hw : w.OwnedUnlessMisconfigured) (ho : w.holds o = descriptorOf s) (hd : Descriptors w s ch w₁)
    (hch : ch.Relates s s') (hholds : w'.holds = Function.update w.holds o (descriptorOf s'))
    (hdescriptors : w'.descriptors = w₁.descriptors) (hfcntl : w'.fcntlFailed = w₁.fcntlFailed)
    (hclosed : w'.closedTwice = w₁.closedTwice) : w'.OwnedUnlessMisconfigured := by
  intro h
  rw [hfcntl] at h
  obtain ⟨howns, htwice⟩ := (hw (hd.fcntlFailed h)).descriptors ho hd hch h
  rw [← hholds, ← hdescriptors] at howns
  exact ⟨howns, hclosed.trans htwice⟩

/-- A step that replaces a client, or removes it. -/
theorem World.OwnedUnlessMisconfigured.replaceClient {ch : SocketChange} {c : ClientId}
    {x : Option Client} (hw : w.OwnedUnlessMisconfigured)
    (ho : w.holds (.client c) = descriptorOf s)
    (hd : Descriptors w s ch w₁) (hch : ch.Relates s s')
    (hclients : w'.clients = Function.update w.clients c x)
    (hx : (x.bind fun cl => descriptorOf cl.socket) = descriptorOf s')
    (hservers : w'.servers = w.servers) (hdescriptors : w'.descriptors = w₁.descriptors)
    (hfcntl : w'.fcntlFailed = w₁.fcntlFailed) (hclosed : w'.closedTwice = w₁.closedTwice) :
    w'.OwnedUnlessMisconfigured :=
  hw.replace ho hd hch (hx ▸ holds_update_client hclients hservers) hdescriptors hfcntl hclosed

/-- A step that replaces a server, or removes it. -/
theorem World.OwnedUnlessMisconfigured.replaceServer {ch : SocketChange} {srv : ServerId}
    {x : Option Server} (hw : w.OwnedUnlessMisconfigured)
    (ho : w.holds (.server srv) = descriptorOf s) (hd : Descriptors w s ch w₁)
    (hch : ch.Relates s s') (hservers : w'.servers = Function.update w.servers srv x)
    (hx : (x.bind fun s => descriptorOf s.socket) = descriptorOf s')
    (hclients : w'.clients = w.clients) (hdescriptors : w'.descriptors = w₁.descriptors)
    (hfcntl : w'.fcntlFailed = w₁.fcntlFailed) (hclosed : w'.closedTwice = w₁.closedTwice) :
    w'.OwnedUnlessMisconfigured :=
  hw.replace ho hd hch (hx ▸ holds_update_server hservers hclients) hdescriptors hfcntl hclosed

/-- A world with the same objects and descriptors. -/
theorem World.OwnedUnlessMisconfigured.of_eq (hw : w.OwnedUnlessMisconfigured)
    (hclients : w'.clients = w.clients) (hservers : w'.servers = w.servers)
    (hdescriptors : w'.descriptors = w.descriptors) (hfcntl : w'.fcntlFailed = w.fcntlFailed)
    (hclosed : w'.closedTwice = w.closedTwice) : w'.OwnedUnlessMisconfigured := by
  intro h
  rw [hfcntl] at h
  obtain ⟨howns, htwice⟩ := hw h
  have hholds : w'.holds = w.holds := by
    funext o
    cases o with
    | client c => rw [World.holds, World.holds, World.socketOf, World.socketOf, hclients]
    | server srv => rw [World.holds, World.holds, World.socketOf, World.socketOf, hservers]
  rw [← hholds, ← hdescriptors] at howns
  exact ⟨howns, hclosed.trans htwice⟩

/-- Worlds that agree have the same descriptors. -/
theorem World.OwnedUnlessMisconfigured.agrees (hw : w.OwnedUnlessMisconfigured)
    (h : w.Agrees w') : w'.OwnedUnlessMisconfigured :=
  hw.of_eq h.clients h.servers h.descriptors h.fcntlFailed h.closedTwice

/-- A move changes the socket of its client together with the descriptors. -/
theorem Move.owned {R : Time → Time → Client → SocketChange → Client → Prop} {c : ClientId}
    (h : Move R c w w') (hR : ∀ t₀ t cl ch cl', R t₀ t cl ch cl' → ch.Relates cl.socket cl'.socket)
    (hw : w.OwnedUnlessMisconfigured) : w'.OwnedUnlessMisconfigured := by
  obtain ⟨o, hcl, ht, hstep, hd⟩ := h
  have hch := hR _ _ _ _ _ hstep
  refine hw.replaceClient (holds_client hcl) hd hch ?_ (Option.bind_some ..) ?_ rfl rfl rfl
  · obtain ⟨d, e, f, rfl⟩ := hd.frame
    rfl
  · obtain ⟨d, e, f, rfl⟩ := hd.frame
    rfl

end

section

variable [Configuration] {w w' : World} {e : Ext}

/-- So do the moves of a call. -/
theorem owned_of_userMoves {c : ClientId} (h : Relation.ReflTransGen (UserMove c) w w')
    (hw : w.OwnedUnlessMisconfigured) : w'.OwnedUnlessMisconfigured := by
  induction h with
  | refl => exact hw
  | tail _ hmove ih => exact hmove.owned (fun _ _ _ _ _ hstep => hstep.relates) ih

/-- The environment keeps the descriptors owned. -/
theorem Change.owned (h : Change e w w') (hsound : w.Sound) (hw : w.OwnedUnlessMisconfigured) :
    w'.OwnedUnlessMisconfigured := by
  have hnewClient : w.holds (.client w.nextClient) = descriptorOf (-1) :=
    holds_of_none (by rw [World.socketOf, hsound.clientsFresh _ le_rfl]; rfl)
  have hnewServer : w.holds (.server w.nextServer) = descriptorOf (-1) :=
    holds_of_none (by rw [World.socketOf, hsound.serversFresh _ le_rfl]; rfl)
  cases h with
  | call hmoves => exact owned_of_userMoves hmoves hw
  | newClient _ =>
      exact hw.replaceClient hnewClient .kept rfl rfl rfl rfl rfl rfl rfl
  | @newClientFrom socket _ _ _ t₀ t _ _ hsocket hd =>
      have hadopted : (Client.adopted t₀ t socket).socket = socket := by
        unfold Client.adopted
        split <;> rfl
      refine hw.replaceClient (x := some (Client.adopted t₀ t socket)) hnewClient hd ⟨rfl, rfl⟩ ?_
        (congrArg descriptorOf hadopted) ?_ rfl rfl rfl
      · obtain ⟨d, e, f, rfl⟩ := hd.frame
        rfl
      · obtain ⟨d, e, f, rfl⟩ := hd.frame
        rfl
  | deleteClient hcl =>
      exact hw.replaceClient (holds_client hcl) .closed (.closed _)
        (by rw [World.removeClient, World.closeFd_clients]) rfl (World.closeFd_servers ..)
        rfl rfl rfl
  | newServer _ =>
      exact hw.replaceServer hnewServer .kept rfl rfl rfl rfl rfl rfl rfl
  | deleteServer hs =>
      exact hw.replaceServer (holds_server hs) .closed (.closed _)
        (by rw [World.removeServer, World.closeFd_servers]) rfl (World.closeFd_clients ..)
        rfl rfl rfl
  | notBegun => exact hw.of_eq rfl rfl rfl rfl rfl
  | @begun _ socket _ _ _ s hs hclosed hd =>
      have hsocket := holds_server hs
      -- the server owns nothing yet
      rw [show s.socket = -1 by simpa [Server.isOpen] using hclosed] at hsocket
      refine hw.replaceServer (x := some { s with socket }) hsocket hd ⟨rfl, rfl⟩ ?_ rfl ?_
        rfl rfl rfl
      · obtain ⟨d, e, f, rfl⟩ := hd.frame
        rfl
      · obtain ⟨d, e, f, rfl⟩ := hd.frame
        rfl
  | ended hs =>
      exact hw.replaceServer (holds_server hs) .closed (.closed _)
        (by rw [World.setServer, World.closeFd_servers]) rfl (World.closeFd_clients ..) rfl rfl rfl
  | onClient hs =>
      exact hw.replaceServer (holds_server hs) .kept rfl rfl rfl rfl rfl rfl rfl
  | dnsFound hmove => exact hmove.owned (fun _ _ _ _ _ hstep => hstep.relates) hw
  | outcomes => exact hw.of_eq rfl rfl rfl rfl rfl

/-! ## The system -/

variable {good : StepCondition}

omit [Configuration] in
/-- At the beginning nobody owns a descriptor. -/
theorem World.ownedUnlessMisconfigured_empty : World.OwnedUnlessMisconfigured {} := by
  intro _
  refine ⟨⟨fun {o r} h => ?_, fun h => absurd h (Finset.notMem_empty _), fun {o o' r} h => ?_⟩, rfl⟩
  · cases o <;> cases h
  · cases o <;> cases h

/-- Whatever happens keeps the descriptors owned. -/
theorem ownedRule :
    KeptRule (fun _ w => w.Sound ∧ w.OwnedUnlessMisconfigured)
      (fun _ => World.OwnedUnlessMisconfigured) World.OwnedUnlessMisconfigured where
  handler := fun _ hw hmove => hmove.owned (fun _ _ _ _ _ hstep => hstep.relates) hw
  user := fun _ hw hmove => hmove.owned (fun _ _ _ _ _ hstep => hstep.relates) hw
  change := fun hsound hw hchange => hchange.owned hsound hw
  update := fun _ _ hw hs hsocket =>
    hw.replaceServer (holds_server hs) .kept rfl rfl (congrArg descriptorOf hsocket) rfl rfl rfl rfl
  agrees := fun hw hagrees => hw.agrees hagrees
  yield := fun hsound hw => ⟨hsound, hw⟩
  staleClient := id
  staleServer := id

/-- In every state of every run in which no `fcntl` has failed, every open descriptor is the socket
of exactly one live client or server, every socket is an open descriptor, and no descriptor has been
closed twice. -/
theorem descriptors_owned {s : System} (hs : Reachable s) (hfcntl : s.state.fcntlFailed = false) :
    s.state.DescriptorsOwned := by
  have hw : s.state.OwnedUnlessMisconfigured := ownedRule.holds_reachable
    (fun _ hw => hw.of_eq rfl rfl rfl rfl rfl) World.sound_empty
    World.ownedUnlessMisconfigured_empty hs
  exact (hw hfcntl).descriptorsOwned

end

section

attribute [local instance] Configuration.esp32

/-- A client connects, when `fcntl` has the outcomes `fcntls`. -/
def connectedWith (fcntls : List Bool) : List Label :=
  [.ext .newClient, .ext (.outcomes { sockets := [48], connects := [none], fcntls }),
    .ext (.call 0 (.connectIP (.v4 1) 80))]

/-- The client owns its socket. -/
theorem descriptors_owned_connected :
    ∃ s, Reachable s ∧ s.state.descriptors = {48} ∧ s.state.DescriptorsOwned := by
  obtain ⟨s, hs, hopen, hfcntl⟩ := exists_reachable
    (P := fun s => s.state.descriptors = {48} ∧ s.state.fcntlFailed = false)
    (connectedWith [true]) (by decide +kernel)
  exact ⟨s, hs, hopen, descriptors_owned hs hfcntl⟩

/-- `fcntl` fails: the descriptor is closed at once, and again when the client is closed. -/
theorem not_descriptors_owned : ∃ s, Reachable s ∧ ¬ s.state.DescriptorsOwned := by
  obtain ⟨s, hs, htwice⟩ := exists_reachable (P := fun s => s.state.closedTwice = true)
    (connectedWith [false] ++ [.ext (.call 0 .close)]) (by decide +kernel)
  exact ⟨s, hs, fun h => absurd (htwice.symm.trans h.closedOnce) nofun⟩

end

end AsyncTcpSock
