import AsyncTcpSock.DescriptorOwnership

/-!
# Readiness and connections

`select` speaks about descriptors, and the manager matches its answer against the sockets that its
clients have by the time a phase begins, and keeps the matches in a copy while callbacks run. When a
callback closes a client, and the operating system hands out the number again, the answer is applied
to a connection that it is not about.
-/

namespace AsyncTcpSock

open Reentrant Proc Manager

/-! ## The property -/

/-- The events of the current cycle. -/
def thisCycle (log : List ManagerEvent) : List ManagerEvent := log.takeWhile (· ≠ .cycle)

/-- If the newest event hands a client to a handler, then the client is open, and on the connection
for which it has put its socket into the descriptor set at the start of the cycle. -/
def Measured : List ManagerEvent → Prop
  | .entered set c socket conn :: past =>
      socket ≠ -1 ∧ .fdSet set c socket conn ∈ thisCycle past
  | _ => True

instance Measured.decidable : DecidablePred Measured
  | .entered set c socket conn :: past =>
      inferInstanceAs (Decidable (socket ≠ -1 ∧ .fdSet set c socket conn ∈ thisCycle past))
  | [] | .cycle :: _ | .fdSet _ _ _ _ :: _ | .writing _ :: _ | .reading :: _ | .serving :: _ =>
      .isTrue trivial

/-- The phase of the cycle that matches a descriptor set against the clients, if there is one in
progress, and the descriptors that a later phase will match. -/
def matching : List ManagerEvent → Option (FdSet × List ℤ)
  | [] | .cycle :: _ | .serving :: _ => none
  | .writing ready :: _ => some (.write, ready)
  | .reading :: _ => some (.read, [])
  | .entered _ _ _ _ :: past | .fdSet _ _ _ _ :: past => matching past

/-- A client that the phase has still to come to, or whose socket is one of `ready`, is on the same
connection as before. -/
def World.KeepsSockets (ready : List ℤ) (w w' : World) : Prop :=
  ∀ c cl', w'.clients c = some cl' → c ∈ w.clientsProcessing ∨ cl'.socket ∈ ready →
    ∃ cl, w.clients c = some cl ∧ cl.socket = cl'.socket ∧ cl.connection = cl'.connection

/-- While a descriptor set is matched against the clients, a step closes no client that the phase
has still to come to, and opens no socket under a number that is still to be matched. -/
def SparesMatched [Configuration] : StepCondition := fun _ w e =>
  ∀ set ready, matching w.log = some (set, ready) → ∀ w', e.apply w = some w' →
    w.KeepsSockets ready w'

/-! ## Logs -/

section

variable {log : List ManagerEvent}

theorem mem_thisCycle_cons (e : ManagerEvent) (he : e ≠ .cycle) {e' : ManagerEvent}
    (h : e' ∈ thisCycle log) : e' ∈ thisCycle (e :: log) := by
  rw [thisCycle, List.takeWhile_cons, if_pos (by simpa using he)]
  exact .tail _ h

/-- The events of the collection come after the beginning of the cycle. -/
theorem mem_thisCycle_append {events : List ManagerEvent}
    (hevents : ∀ e ∈ events, e.isFdSet = true) (he : e ∈ events) :
    e ∈ thisCycle (events ++ .cycle :: log) := by
  have hne (e : ManagerEvent) (he : e ∈ events) : decide (e ≠ .cycle) = true := by
    have hset := hevents e he
    simp only [decide_eq_true_eq]
    rintro rfl
    cases hset
  rw [thisCycle, List.takeWhile_append_of_pos hne]
  exact List.mem_append_left _ he

/-- The collection hands nobody to a handler. -/
theorem always_measured_append {events : List ManagerEvent}
    (hevents : ∀ e ∈ events, e.isFdSet = true) (hlog : Always Measured log) :
    Always Measured (events ++ log) := by
  induction events with
  | nil => exact hlog
  | cons e events ih =>
      refine always_cons.mpr ⟨?_, ih fun e' he' => hevents e' (.tail _ he')⟩
      have hset := hevents e (.head _)
      cases e with
      | fdSet => trivial
      | _ => cases hset

/-- While descriptors are collected nothing is matched. -/
theorem matching_append {events : List ManagerEvent} (hevents : ∀ e ∈ events, e.isFdSet = true) :
    matching (events ++ .cycle :: log) = none := by
  induction events with
  | nil => rfl
  | cons e events ih =>
      have hset := hevents e (.head _)
      cases e with
      | fdSet => exact ih fun e' he' => hevents e' (.tail _ he')
      | _ => cases hset

end

/-! ## What is known while a set is matched -/

/-- The clients that hold a descriptor of `ready`, and the ones the phase has still to come to, have
recorded their socket and connection in this cycle. -/
structure World.Matching (set : FdSet) (ready : List ℤ) (w : World) : Prop where
  /-- No object without a socket is ready. -/
  isOpen : -1 ∉ ready
  /-- A client with a ready socket has been asked about in this cycle. -/
  ready {c : ClientId} {cl : Client} : w.clients c = some cl → cl.socket ∈ ready →
    .fdSet .read c cl.socket cl.connection ∈ thisCycle w.log
  /-- So has every client that is still to be served. -/
  processing {c : ClientId} {cl : Client} : c ∈ w.clientsProcessing → w.clients c = some cl →
    cl.socket ≠ -1 ∧ .fdSet set c cl.socket cl.connection ∈ thisCycle w.log

section

variable {w w' : World} {set : FdSet} {ready : List ℤ}

theorem World.Matching.of_keeps (h : w.Matching set ready) (hkeeps : w.KeepsSockets ready w')
    (hlog : w'.log = w.log) (hprocessing : w'.clientsProcessing = w.clientsProcessing) :
    w'.Matching set ready where
  isOpen := h.isOpen
  ready {c cl'} hcl' hready := by
    obtain ⟨cl, hcl, hsocket, hconn⟩ := hkeeps c cl' hcl' (.inr hready)
    rw [hlog, ← hsocket, ← hconn]
    exact h.ready hcl (hsocket ▸ hready)
  processing {c cl'} hc hcl' := by
    rw [hprocessing] at hc
    obtain ⟨cl, hcl, hsocket, hconn⟩ := hkeeps c cl' hcl' (.inl hc)
    rw [hlog, ← hsocket, ← hconn]
    exact h.processing hc hcl

/-- The phase comes to the next client. -/
theorem World.Matching.next {c : ClientId} {rest : List ClientId} {e : ManagerEvent}
    (h : w.Matching set ready) (hrest : w.clientsProcessing = c :: rest) (he : e ≠ .cycle) :
    World.Matching set ready { w with clientsProcessing := rest, log := e :: w.log } where
  isOpen := h.isOpen
  ready hcl hready := mem_thisCycle_cons e he (h.ready hcl hready)
  processing {c' cl'} hc' hcl' := by
    obtain ⟨hsocket, hmem⟩ := h.processing (hrest ▸ List.mem_cons_of_mem c hc') hcl'
    exact ⟨hsocket, mem_thisCycle_cons e he hmem⟩

end

/-! ## Steps of the handlers -/

section

variable [Configuration] {t₀ t : Time} {cl cl' : Client} {φ φ' : Phase}

/-- A step that leaves the descriptor alone stays on the connection. -/
theorem HandlerStep.connection (h : HandlerStep t₀ t cl φ .kept cl' φ') :
    cl'.connection = cl.connection := by
  cases h with
  | pass => exact cl.connection_afterPass _
  | writeFailed => simp [Client.afterFailedScan, Client.firstError, Client.connection, Client.log]
  | cleaned => simp [Client.afterScan, Client.connection]
  | resolved _ hattempt =>
      cases hattempt with
      | refused => rfl
  | _ => simp [Client.connection, Client.log, Client.enter, Client.establish]

/-- Only `_sockDelayedConnect` opens a socket. -/
theorem HandlerStep.phase_of_opened {fd : ℤ} (h : HandlerStep t₀ t cl φ (.opened fd) cl' φ') :
    φ = .running .delayedConnect := by
  cases h with
  | resolved => rfl

/-- A handler is entered once. -/
theorem HandlerStep.phase_ne_running {ch : SocketChange} {handler : Handler}
    (h : HandlerStep t₀ t cl φ ch cl' φ') (hφ : φ ≠ .idle) : φ' ≠ .running handler := by
  have hphase (next : Continuation) : next.phase ≠ .running handler := by
    cases next <;> nofun
  have hnotify (next : Continuation) (stats : List WriteStats) :
      Phase.notify next stats ≠ .running handler := by
    cases stats with
    | nil => exact hphase next
    | cons => nofun
  cases h with
  | enter => exact absurd rfl hφ
  | nothingToWrite => exact hphase _
  | failed => exact hphase _
  | cleaned | notified => exact hnotify _ _
  | _ => nofun

variable {c : ClientId} {w w' : World} {ready : List ℤ}

/-- A client that the phase has come to closes its socket at most, unless it runs
`_sockDelayedConnect`. -/
theorem Move.keepsSockets (h : HandlerMove c φ φ' w w') (hc : c ∉ w.clientsProcessing)
    (hφ : φ ≠ .running .delayedConnect) (hready : -1 ∉ ready) : w.KeepsSockets ready w' := by
  intro c' cl'' hcl'' hmatched
  by_cases hne : c' = c
  · subst hne
    replace hmatched := hmatched.resolve_left hc
    obtain ⟨o, hcl, ht, hstep, hd⟩ := h
    obtain rfl : _ = cl'' := Option.some.inj ((World.put_clients_self ..).symm.trans hcl'')
    have hch := hstep.relates
    rename_i ch _ _
    cases ch with
    | kept => exact ⟨_, hcl, hch.symm, hstep.connection.symm⟩
    | closed =>
        rw [show _ = -1 from hch] at hmatched
        exact absurd hmatched hready
    | opened fd => exact absurd hstep.phase_of_opened hφ
  · rw [h.clients_of_ne hne] at hcl''
    exact ⟨cl'', hcl'', rfl, rfl⟩

end

/-! ## Failures of fcntl -/

section

variable {w w' : World}

theorem Move.fcntlFailed {R : Time → Time → Client → SocketChange → Client → Prop} {c : ClientId}
    (h : Move R c w w') (hfcntl : w'.fcntlFailed = false) : w.fcntlFailed = false := by
  obtain ⟨o, hcl, ht, hstep, hd⟩ := h
  exact hd.fcntlFailed hfcntl

variable [Configuration] {e : Ext}

theorem Change.fcntlFailed (h : Change e w w') (hfcntl : w'.fcntlFailed = false) :
    w.fcntlFailed = false := by
  cases h with
  | call hmoves =>
      induction hmoves with
      | refl => exact hfcntl
      | tail _ hmove ih => exact ih (hmove.fcntlFailed hfcntl)
  | newClientFrom _ _ _ hd | begun _ _ hd => exact hd.fcntlFailed hfcntl
  | deleteClient _ | deleteServer _ | ended _ => exact Descriptors.closed.fcntlFailed hfcntl
  | dnsFound hmove => exact hmove.fcntlFailed hfcntl
  | newClient _ | newServer _ | notBegun | onClient _ | outcomes => exact hfcntl

end

/-! ## Between matches -/

/-- As long as no `fcntl` has failed, readiness has been applied to the connections it was measured
for. -/
def World.MeasuredUnlessMisconfigured (w : World) : Prop :=
  w.fcntlFailed = false → Always Measured w.log

/-- What holds while no descriptor set is matched. -/
structure World.Unmatched (w : World) : Prop where
  /-- The descriptors are owned. -/
  owned : w.OwnedUnlessMisconfigured
  /-- Every handler so far was entered for a socket that was ready. -/
  measured : w.MeasuredUnlessMisconfigured
  /-- No descriptors are being matched. -/
  nothing : matching w.log = none

section

variable [Configuration] {w w' : World} {e : Ext}

omit [Configuration] in
theorem World.Unmatched.of_eq (hw : w.Unmatched) (howned : w'.OwnedUnlessMisconfigured)
    (hlog : w'.log = w.log) (hfcntl : w'.fcntlFailed = false → w.fcntlFailed = false) :
    w'.Unmatched where
  owned := howned
  measured h := hlog ▸ hw.measured (hfcntl h)
  nothing := hlog ▸ hw.nothing

omit [Configuration] in
theorem World.Unmatched.move {R : Time → Time → Client → SocketChange → Client → Prop}
    {c : ClientId} (hw : w.Unmatched) (h : Move R c w w')
    (hR : ∀ t₀ t cl ch cl', R t₀ t cl ch cl' → ch.Relates cl.socket cl'.socket) : w'.Unmatched :=
  hw.of_eq (h.owned hR hw.owned) h.frame.log h.fcntlFailed

theorem World.Unmatched.change (hw : w.Unmatched) (hsound : w.Sound) (h : Change e w w') :
    w'.Unmatched :=
  hw.of_eq (h.owned hsound hw.owned) h.frame.log h.fcntlFailed

/-- What user code finds in callbacks. -/
def readinessYield (_ : Yield) (w : World) : Prop := w.Sound ∧ w.MeasuredUnlessMisconfigured

theorem unmatchedRule :
    KeptRule readinessYield (fun _ => World.MeasuredUnlessMisconfigured) World.Unmatched where
  handler := fun _ hw hmove => hw.move hmove fun _ _ _ _ _ hstep => hstep.relates
  user := fun _ hw hmove => hw.move hmove fun _ _ _ _ _ hstep => hstep.relates
  change := fun hsound hw hchange => hw.change hsound hchange
  update := fun _ _ hw hs hsocket =>
    hw.of_eq (hw.owned.replaceServer (holds_server hs) .kept rfl rfl
      (congrArg descriptorOf hsocket) rfl rfl rfl rfl) rfl id
  agrees := fun hw hagrees =>
    hw.of_eq (hw.owned.agrees hagrees) hagrees.log fun h => hagrees.fcntlFailed ▸ h
  yield := fun hsound hw => ⟨hsound, hw.measured⟩
  staleClient := World.Unmatched.measured
  staleServer := World.Unmatched.measured

end

/-! ## While a set is matched -/

/-- What holds while a descriptor set is matched against the clients and the phase has still to come
to the clients `rest`. -/
structure World.InPhase (set : FdSet) (ready : List ℤ) (rest : List ClientId) (w : World) :
    Prop where
  /-- The world is well formed. -/
  sound : w.Sound
  /-- Every descriptor has one owner, unless a call of `fcntl` has failed. -/
  owned : w.OwnedUnlessMisconfigured
  /-- The log says which set is matched and what is ready for reading. -/
  phase : matching w.log = some (set, ready)
  /-- The snapshot holds the clients that are left. -/
  processing : w.clientsProcessing = rest
  /-- What has been matched was measured for the socket it was applied to. -/
  matched : w.fcntlFailed = false → Always Measured w.log ∧ w.Matching set ready

section

variable [Configuration] {w w' : World} {set : FdSet} {ready : List ℤ} {rest : List ClientId}
  {c : ClientId}

omit [Configuration] in
theorem World.InPhase.of_keeps (hw : w.InPhase set ready rest) (hsound : w'.Sound)
    (howned : w'.OwnedUnlessMisconfigured) (hframe : w.Frame w')
    (hfcntl : w'.fcntlFailed = false → w.fcntlFailed = false)
    (hkeeps : -1 ∉ ready → w.KeepsSockets ready w') : w'.InPhase set ready rest where
  sound := hsound
  owned := howned
  phase := hframe.log ▸ hw.phase
  processing := hframe.clientsProcessing.trans hw.processing
  matched h := by
    obtain ⟨hmeasured, hmatching⟩ := hw.matched (hfcntl h)
    exact ⟨hframe.log ▸ hmeasured,
      hmatching.of_keeps (hkeeps hmatching.isOpen) hframe.log hframe.clientsProcessing⟩

/-- A step of the client that the phase has come to. -/
theorem World.InPhase.move {φ φ' : Phase} (hw : w.InPhase set ready rest) (hc : c ∉ rest)
    (hφ : φ ≠ .running .delayedConnect) (h : HandlerMove c φ φ' w w') :
    w'.InPhase set ready rest :=
  hw.of_keeps (h.sound hw.sound) (h.owned (fun _ _ _ _ _ hstep => hstep.relates) hw.owned) h.frame
    h.fcntlFailed (h.keepsSockets (hw.processing ▸ hc) hφ)

/-- The handlers of the client that the phase has come to. -/
theorem inPhaseHandlerRule (hc : c ∉ rest) :
    HandlerRule
      (systemContract SparesMatched readinessYield fun _ => World.MeasuredUnlessMisconfigured) c
      (· ≠ .delayedConnect)
      fun φ w => w.InPhase set ready rest ∧ φ ≠ .running .delayedConnect where
  touch := fun {w cl o t} ⟨hw, hφ⟩ hcl ht => by
    have hmove := Move.of_kept (R := UserStep) o hcl ht (.touch _)
    refine ⟨hw.of_keeps (hmove.sound hw.sound)
      (hmove.owned (fun _ _ _ _ _ hstep => hstep.relates) hw.owned) hmove.frame id
      fun _ c' cl' hcl' _ => ?_, hφ⟩
    -- the mark of activity changes neither the socket nor the connection
    by_cases hne : c' = c
    · subst hne
      obtain rfl := Option.some.inj ((World.put_clients_self ..).symm.trans hcl')
      exact ⟨cl, hcl, rfl, rfl⟩
    · rw [hmove.clients_of_ne hne] at hcl'
      exact ⟨cl', hcl', rfl, rfl⟩
  enter := fun hH ⟨hw, hφ⟩ hmove => ⟨hw.move hc hφ hmove, fun h => hH (Phase.running.inj h)⟩
  handler := fun ⟨hw, hφ⟩ hidle hmove => by
    refine ⟨hw.move hc hφ hmove, ?_⟩
    obtain ⟨o, hcl, ht, hstep, hd⟩ := hmove
    exact hstep.phase_ne_running hidle
  unheld := fun ⟨hw, _⟩ => hw.sound.unheld
  stale := fun ⟨hw, _⟩ _ _ hagrees h => hagrees.log ▸ (hw.matched (hagrees.fcntlFailed ▸ h)).1
  yield := fun _ _ ⟨hw, _⟩ _ => ⟨hw.sound, fun h => (hw.matched h).1⟩
  env := fun _ ⟨hw, hφ⟩ ⟨e, hgood, happly⟩ => by
    have hchange := Ext.change hw.sound.unheld happly
    exact ⟨hw.of_keeps (hchange.sound hw.sound) (hchange.owned hw.sound hw.owned) hchange.frame
      hchange.fcntlFailed fun _ => hgood set ready hw.phase _ happly, hφ⟩

/-- What the two socket phases do with one client. -/
theorem World.InPhase.wp_body {handler : Handler} (hhandler : handler ≠ .delayedConnect)
    (hw : w.InPhase set ready (c :: rest)) (hc : c ∉ rest) :
    wp (systemContract SparesMatched readinessYield fun _ => World.MeasuredUnlessMisconfigured)
      (do logEntered set c; handle handler c) (fun _ w' => w'.InPhase set ready rest)
      { w with clientsProcessing := rest } := by
  rw [wp_bind, logEntered, wp_modify]
  cases hcl : w.clients c with
  | none =>
      -- the client has been destroyed, and nobody is handed to a handler
      simp only
      refine wp_handle_gone handler hcl fun w' hagrees => ?_
      exact fun h => hagrees.log ▸ (hw.matched (hagrees.fcntlFailed ▸ h)).1
  | some cl =>
      simp only
      have hw' : World.InPhase set ready rest { w with
          clientsProcessing := rest
          log := .entered set c cl.socket cl.connection :: w.log } := by
        refine ⟨{ hw.sound with }, hw.owned.of_eq rfl rfl rfl rfl rfl, hw.phase, rfl, fun h => ?_⟩
        -- the client has recorded its socket and its connection in this cycle
        obtain ⟨hmeasured, hmatching⟩ := hw.matched h
        have hentered := hmatching.processing (hw.processing ▸ List.mem_cons_self) hcl
        exact ⟨always_cons.mpr ⟨hentered, hmeasured⟩, hmatching.next hw.processing (by simp)⟩
      exact wp_mono ((inPhaseHandlerRule hc).wp_handle handler hhandler hcl
        (fun heq => absurd heq hhandler) ⟨hw', by simp⟩) fun _ w' h => h.1

/-- A socket phase: the clients of the snapshot have recorded what they hold. -/
theorem wp_socketPhase (handler : Handler) (set : FdSet) (ready : List ℤ)
    (hhandler : handler ≠ .delayedConnect) {fds : List ℤ} (hsound : w.Sound)
    (howned : w.OwnedUnlessMisconfigured) (hphase : matching w.log = some (set, ready))
    (hready : w.fcntlFailed = false → Always Measured w.log ∧ -1 ∉ ready ∧
      (∀ c cl, w.clients c = some cl → cl.socket ∈ ready →
        .fdSet .read c cl.socket cl.connection ∈ thisCycle w.log) ∧
      ∀ c cl, w.clients c = some cl → cl.socket ∈ fds → cl.socket ≠ -1 ∧
        .fdSet set c cl.socket cl.connection ∈ thisCycle w.log) :
    wp (systemContract SparesMatched readinessYield fun _ => World.MeasuredUnlessMisconfigured)
      (clientPhase (fun c => return (← this c).socket ∈ fds) fun c => do
        logEntered set c
        handle handler c)
      (fun _ w' => w'.InPhase set ready []) w := by
  refine wp_mono (wp_phase (fun rest w => w.InPhase set ready rest ∧ rest.Nodup) ?_ ?_ hsound)
    fun _ w' h => h.1
  · refine wp_mono (wp_chooseClients (fun cl => decide (cl.socket ∈ fds)) hsound) ?_
    rintro chosen _ ⟨rfl, hsub, hall⟩
    refine ⟨w, rfl, hsound, ⟨{ hsound with }, howned.of_eq rfl rfl rfl rfl rfl, hphase, rfl,
      fun h => ?_⟩, hsound.clientsNodup.sublist hsub⟩
    -- the snapshot holds the clients whose socket is in the set
    obtain ⟨hmeasured, hisOpen, hrecorded, hchosen⟩ := hready h
    refine ⟨hmeasured, hisOpen, fun hcl hmem => hrecorded _ _ hcl hmem, fun {c cl} hc hcl => ?_⟩
    obtain ⟨cl', hcl', htest⟩ := hall c hc
    obtain rfl := Option.some.inj (hcl.symm.trans hcl')
    exact hchosen c cl hcl (of_decide_eq_true htest)
  · rintro c rest w ⟨hw, hnodup⟩
    obtain ⟨hc, hnodup⟩ := List.nodup_cons.mp hnodup
    exact ⟨hw.processing, wp_mono (hw.wp_body hhandler hc) fun _ w' hw' => ⟨hw', hnodup⟩⟩

/-! ## Cycles -/

omit [Configuration] in
/-- No two clients have the same socket. -/
theorem World.Owned.client_unique (hw : w.Owned) {c c' : ClientId} {cl cl' : Client}
    (hcl : w.clients c = some cl) (hcl' : w.clients c' = some cl')
    (hsocket : cl'.socket = cl.socket) (hne : cl.socket ≠ -1) : c' = c := by
  have h := holds_client hcl
  have h' := holds_client hcl'
  rw [hsocket, descriptorOf, if_neg hne] at h'
  rw [descriptorOf, if_neg hne] at h
  exact Owner.client.inj (hw.1.unique h' h)

omit [Configuration] in
/-- No client has the socket of a server. -/
theorem World.Owned.server_ne (hw : w.Owned) {srv : ServerId} {s : Server} {cl : Client}
    (hcl : w.clients c = some cl) (hs : w.servers srv = some s) (hne : cl.socket ≠ -1) :
    s.socket ≠ cl.socket := by
  intro hsocket
  have h := holds_client hcl
  have h' := holds_server hs
  rw [hsocket, descriptorOf, if_neg hne] at h'
  rw [descriptorOf, if_neg hne] at h
  cases hw.1.unique h h'

omit [Configuration] in
/-- The client that has recorded a descriptor in the collection is the one that holds it. -/
theorem World.Owned.recorded (hw : w.Owned) {fds : List ℤ} {events : List ManagerEvent}
    (hfds : ∀ fd ∈ fds, (∃ c cl, w.clients c = some cl ∧ cl.socket = fd ∧ fd ≠ -1 ∧
      .fdSet set c cl.socket cl.connection ∈ events) ∨
      ∃ srv s, w.servers srv = some s ∧ s.socket = fd ∧ fd ≠ -1)
    {cl : Client} (hcl : w.clients c = some cl) (hmem : cl.socket ∈ fds) :
    cl.socket ≠ -1 ∧ .fdSet set c cl.socket cl.connection ∈ events := by
  rcases hfds _ hmem with ⟨c', cl', hcl', hsocket, hne, hevent⟩ | ⟨srv, s, hs, hsocket, hne⟩
  · obtain rfl := hw.client_unique hcl hcl' hsocket hne
    obtain rfl := Option.some.inj (hcl.symm.trans hcl')
    exact ⟨hne, hevent⟩
  · exact absurd hsocket (hw.server_ne hcl hs hne)

/-- The write phase and the read phase, where the clients have recorded what is in the sets. -/
theorem wp_socketPhases {r s : List ℤ} (hsound : w.Sound) (howned : w.OwnedUnlessMisconfigured)
    (hrecorded : w.fcntlFailed = false → Always Measured w.log ∧ -1 ∉ r ∧
      (∀ c cl, w.clients c = some cl → cl.socket ∈ r →
        .fdSet .read c cl.socket cl.connection ∈ thisCycle w.log) ∧
      ∀ c cl, w.clients c = some cl → cl.socket ∈ s → cl.socket ≠ -1 ∧
        .fdSet .write c cl.socket cl.connection ∈ thisCycle w.log) :
    wp (systemContract SparesMatched readinessYield fun _ => World.MeasuredUnlessMisconfigured)
      (socketPhases r s) (fun _ w' => w'.Sound ∧ w'.Unmatched) w := by
  rw [socketPhases, wp_bind, wp_managerLog, wp_bind]
  -- the write phase, which matches the sockets against the first set
  refine wp_mono (wp_socketPhase .writeable .write r (by simp) { hsound with }
    (howned.of_eq rfl rfl rfl rfl rfl) rfl fun h => ?_) fun _ w₁ hw₁ => ?_
  · obtain ⟨hmeasured, hisOpen, hr, hs⟩ := hrecorded h
    refine ⟨always_cons.mpr ⟨trivial, hmeasured⟩, hisOpen,
      fun c cl hcl hmem => mem_thisCycle_cons (.writing r) (by simp) (hr c cl hcl hmem),
      fun c cl hcl hmem => ?_⟩
    obtain ⟨hne, hevent⟩ := hs c cl hcl hmem
    exact ⟨hne, mem_thisCycle_cons (.writing r) (by simp) hevent⟩
  rw [wp_bind, wp_managerLog, wp_bind]
  -- the read phase, with nothing to keep for a later one
  refine wp_mono (wp_socketPhase .readable .read [] (by simp) { hw₁.sound with }
    (hw₁.owned.of_eq rfl rfl rfl rfl rfl) rfl fun h => ?_) fun _ w₂ hw₂ => ?_
  · -- what is left of the set is matched now
    obtain ⟨hmeasured, hmatching⟩ := hw₁.matched h
    refine ⟨always_cons.mpr ⟨trivial, hmeasured⟩, List.not_mem_nil,
      fun c cl _ hmem => absurd hmem List.not_mem_nil, fun c cl hcl hmem => ⟨fun hclosed => ?_,
        mem_thisCycle_cons .reading (by simp) (hmatching.ready hcl hmem)⟩⟩
    exact hmatching.isOpen (hclosed ▸ hmem)
  rw [wp_bind, wp_managerLog]
  -- the servers are served after the sets have been used up
  have hw₃ : World.Unmatched { w₂ with log := .serving :: w₂.log } :=
    ⟨hw₂.owned.of_eq rfl rfl rfl rfl rfl,
      fun h => always_cons.mpr ⟨trivial, (hw₂.matched h).1⟩, rfl⟩
  exact unmatchedRule.serverRule.wp_serverPhase
    (fun _ hw ht => unmatchedRule.agrees hw (.elapse ht))
    (fun _ _ _ hw _ => unmatchedRule.agrees hw ⟨rfl, rfl, rfl, rfl, rfl, rfl, le_rfl⟩)
    (fun _ _ _ _ hw _ => unmatchedRule.agrees hw ⟨rfl, rfl, rfl, rfl, rfl, rfl, le_rfl⟩)
    (fun _ _ _ _ _ hw _ _ hagrees => (unmatchedRule.agrees hw hagrees).measured)
    { hw₂.sound with } hw₃

/-- A cycle applies readiness to the connections it was measured for. -/
theorem World.Unmatched.wp_updateConnectionStates (hsound : w.Sound) (hw : w.Unmatched) :
    wp (systemContract SparesMatched readinessYield fun _ => World.MeasuredUnlessMisconfigured)
      updateConnectionStates (fun _ w' => w'.Sound ∧ w'.Unmatched) w := by
  have hmeasured {events : List ManagerEvent} (hevents : ∀ e ∈ events, e.isFdSet = true)
      (h : w.fcntlFailed = false) : Always Measured (events ++ .cycle :: w.log) :=
    always_measured_append hevents (always_cons.mpr ⟨trivial, hw.measured h⟩)
  refine wp_cycle hsound (fun events r s o hevents hr hs => ?_) fun events o hevents => ?_
  · refine wp_mono (wp_socketPhases { hsound with } (hw.owned.of_eq rfl rfl rfl rfl rfl)
      fun h => ?_) fun _ w' ⟨hsound', hw'⟩ => unmatchedRule.phaseRule.wp_laterPhases hsound' hw'
    -- no two objects share a descriptor, so the sets contain what the clients have recorded
    have howned := hw.owned h
    refine ⟨hmeasured hevents h, fun hmem => ?_, fun c cl hcl hmem => ?_, fun c cl hcl hmem => ?_⟩
    · rcases hr _ hmem with ⟨_, _, _, _, hne, _⟩ | ⟨_, _, _, _, hne⟩
      · exact hne rfl
      · exact hne rfl
    · exact mem_thisCycle_append hevents (howned.recorded hr hcl hmem).2
    · obtain ⟨hne, hevent⟩ := howned.recorded (fun fd hfd => .inl (hs fd hfd)) hcl hmem
      exact ⟨hne, mem_thisCycle_append hevents hevent⟩
  · exact unmatchedRule.phaseRule.wp_laterPhases { hsound with }
      ⟨hw.owned.of_eq rfl rfl rfl rfl rfl, hmeasured hevents, matching_append hevents⟩

/-! ## The system -/

theorem measuredUnlessMisconfigured {s : System} (hs : ReachableIf SparesMatched s) :
    s.state.MeasuredUnlessMisconfigured := by
  have hinit : World.Unmatched {} :=
    ⟨World.ownedUnlessMisconfigured_empty, fun _ => by simp [Measured], rfl⟩
  have h := holds_of_rules unmatchedRule.clientRule unmatchedRule.serverRule
    (fun w hsound hw => hw.wp_updateConnectionStates hsound) hinit
    (fun _ _ _ hsound hw _ hchange => hw.change hsound hchange)
    (fun _ _ w w' ⟨hsound, hw⟩ _ happly => by
      have hchange := Ext.change hsound.unheld happly
      exact ⟨hchange.sound hsound, fun h => hchange.frame.log ▸ hw (hchange.fcntlFailed h)⟩) hs
  obtain ⟨w, control⟩ := s
  cases control with
  | idle => exact h.2.measured
  | suspended i k => exact h.1.2
  | faulted f => exact h

/-- In every run in which, while a descriptor set is matched, callbacks spare the clients that are
still to be handled and the numbers that are still to be matched, and in which no `fcntl` has
failed, every client that a cycle hands to `_sockIsWriteable` or `_sockIsReadable` is open, and on
the connection for which it has put its socket into the descriptor set at the start of the cycle. -/
theorem readiness_applied {s : System} (hs : ReachableIf SparesMatched s)
    (hfcntl : s.state.fcntlFailed = false) : Always Measured s.state.log :=
  measuredUnlessMisconfigured hs hfcntl

end

section

attribute [local instance] Configuration.esp32

/-- Two clients connect, and a cycle finds both sockets ready for writing; it is in the `CONNECT`
callback of the first client. -/
def bothWriteable : List Label :=
  [.ext .newClient, .ext .newClient,
    .ext (.outcomes {
      sockets := [48, 49], connects := [none, none], cycles := [([], [48, 49])]
      sockopts := [.socketError 0, .socketError 0] }),
    .ext (.call 0 (.connectIP (.v4 1) 80)), .ext (.call 1 (.connectIP (.v4 1) 80)), .start .cycle]

/-- Both clients are handed to `_sockIsWriteable`. -/
theorem readiness_applied_both :
    ∃ s, ReachableIf SparesMatched s ∧ .entered .write 1 49 1 ∈ s.state.log ∧
      Always Measured s.state.log := by
  obtain ⟨s, hs, hentered, hfcntl⟩ := exists_reachableIf (fun _ w _ => matching w.log = none)
    (P := fun s => .entered .write 1 49 1 ∈ s.state.log ∧ s.state.fcntlFailed = false)
    (bothWriteable ++ [.resume]) (by decide +kernel)
  -- user code does nothing while the sets are matched
  have hspares : ReachableIf SparesMatched s := hs.mono fun _ _ _ hnone _ _ hsome => by
    cases hnone.symm.trans hsome
  exact ⟨s, hspares, hentered, readiness_applied hspares hfcntl⟩

/-- The callback closes the other client and connects it again, under the same number. -/
theorem not_readiness_applied : ¬ ∀ s, Reachable s → Always Measured s.state.log := by
  intro h
  obtain ⟨s, hs, hnot⟩ := exists_reachable (P := fun s => ¬ Always Measured s.state.log)
    (bothWriteable ++ [.ext (.call 1 .close),
      .ext (.outcomes { sockets := [49], connects := [none], sockopts := [.socketError 0] }),
      .ext (.call 1 (.connectIP (.v4 1) 80)), .resume]) (by decide +kernel)
  exact hnot (h s hs)

end

end AsyncTcpSock
