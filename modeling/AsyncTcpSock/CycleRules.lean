import AsyncTcpSock.SystemRules

/-!
# The rule for manager cycles

The phases of a cycle, one rule for each kind of loop, and from them the rule for a whole cycle and
for the runs of the system.
-/

namespace AsyncTcpSock

open Reentrant Proc Manager

variable [Configuration]

/-! ## Snapshots -/

section

variable {C : Contract World Yield Fault} {w : World}

omit [Configuration] in
/-- The choice of the elements of a snapshot: `I` is kept, and `P` holds of the elements chosen. -/
theorem wp_chooseFrom {α : Type} {choose : α → Proc Bool} (I : World → Prop)
    (P : α → World → Prop) {l : List α}
    (hchoose : ∀ a ∈ l, ∀ w, I w → wp C (choose a)
      (fun b w' => I w' ∧ (∀ a', P a' w → P a' w') ∧ (b = true → P a w')) w) (hw : I w) :
    wp C (chooseFrom choose l)
      (fun chosen w' => I w' ∧ (∀ a', P a' w → P a' w') ∧ chosen.Sublist l ∧ ∀ a ∈ chosen, P a w')
      w := by
  induction l generalizing w with
  | nil => exact ⟨hw, fun _ h => h, .slnil, by simp⟩
  | cons a rest ih =>
      rw [chooseFrom, wp_bind]
      refine wp_mono (hchoose a List.mem_cons_self w hw) fun b w₁ ⟨hI, hkeep, hP⟩ => ?_
      have hrest := ih (fun a' ha' => hchoose a' (List.mem_cons_of_mem a ha')) hI
      cases b with
      | true =>
          rw [wp_ite, if_pos rfl, wp_bind]
          refine wp_mono hrest fun chosen w₂ ⟨hI₂, hkeep₂, hsub, hall⟩ => ?_
          refine ⟨hI₂, fun a' h => hkeep₂ a' (hkeep a' h), hsub.cons_cons a, fun a' ha' => ?_⟩
          rcases List.mem_cons.mp ha' with rfl | ha'
          · exact hkeep₂ _ (hP rfl)
          · exact hall a' ha'
      | false =>
          rw [wp_ite, if_neg Bool.false_ne_true]
          exact wp_mono hrest fun chosen w₂ ⟨hI₂, hkeep₂, hsub, hall⟩ =>
            ⟨hI₂, fun a' h => hkeep₂ a' (hkeep a' h), hsub.cons a, hall⟩

omit [Configuration] in
/-- The choice by a test that reads the clients. -/
theorem wp_chooseClients (test : Client → Bool) (hw : w.Sound) :
    wp C (chooseFrom (fun c => do return test (← this c)) w.clientList)
      (fun chosen w' => w' = w.hold .manager ∧ chosen.Sublist w.clientList ∧
        ∀ c ∈ chosen, ∃ cl, w.clients c = some cl ∧ test cl = true) (w.hold .manager) := by
  refine wp_mono (wp_chooseFrom (fun w' => w' = w.hold .manager)
    (fun c _ => ∃ cl, w.clients c = some cl ∧ test cl = true) ?_ rfl)
    fun chosen w' ⟨hI, _, hsub, hall⟩ => ⟨hI, hsub, hall⟩
  rintro c hc _ rfl
  -- a client in the list is live, so that the test reads its fields
  obtain ⟨cl, hcl⟩ := Option.isSome_iff_exists.mp (hw.clientsLive c hc)
  rw [wp_bind, wp_this, World.hold_clients, hcl]
  exact ⟨rfl, fun _ h => h, fun htest => ⟨cl, rfl, htest⟩⟩

omit [Configuration] in
/-- The choice by a test that reads the servers. -/
theorem wp_chooseServers {test : Server → Bool} {l : List ServerId}
    {Q : List ServerId → World → Prop} (hlive : ∀ srv ∈ l, (w.servers srv).isSome)
    (hQ : Q (l.filter fun srv => (w.servers srv).any test) w) :
    wp C (chooseFrom (fun srv => do return test (← server srv)) l) Q w := by
  induction l generalizing Q with
  | nil => exact hQ
  | cons srv rest ih =>
      obtain ⟨s, hs⟩ := Option.isSome_iff_exists.mp (hlive srv List.mem_cons_self)
      have hrest := fun srv' h => hlive srv' (List.mem_cons_of_mem srv h)
      rw [List.filter_cons, hs, Option.any_some] at hQ
      rw [chooseFrom, wp_bind, wp_bind, wp_server, hs, Option.elim_some, wp_pure, wp_ite]
      split
      · rw [if_pos ‹_›] at hQ
        rw [wp_bind]
        exact ih hrest hQ
      · rw [if_neg ‹_›] at hQ
        exact ih hrest hQ

end

/-! ## Phases -/

variable {good : StepCondition} {G : Yield → World → Prop} {F : Fault → World → Prop}
  {K : World → Prop} {J : ClientId → Phase → World → Prop} {w : World}

omit [Configuration] in
/-- A phase over the clients, with a loop invariant `Inv` that is indexed by the clients the phase
has still to come to. -/
theorem wp_phase {C : Contract World Yield Fault} {choose : ClientId → Proc Bool}
    {body : ClientId → Proc Unit} (Inv : List ClientId → World → Prop)
    (hchoose : wp C (chooseFrom choose w.clientList)
      (fun chosen w' => ∃ w₁ : World, w' = w₁.hold .manager ∧ w₁.Sound ∧
        Inv chosen { w₁ with clientsProcessing := chosen }) (w.hold .manager))
    (hbody : ∀ c rest w, Inv (c :: rest) w → w.clientsProcessing = c :: rest ∧
      wp C (body c) (fun _ w' => Inv rest w') { w with clientsProcessing := rest })
    (hw : w.Sound) : wp C (clientPhase choose body) (fun _ w' => Inv [] w') w := by
  rw [clientPhase, wp_bind, wp_lock, if_neg (by simp [hw.unheld]), wp_bind, wp_get, wp_bind]
  refine wp_mono hchoose ?_
  rintro chosen _ ⟨w₁, rfl, hw₁, hInv⟩
  rw [wp_bind, wp_unlock, World.release_hold (by simp [hw₁.unheld]), wp_bind, wp_modify]
  refine wp_forEach Inv (fun c rest w hInv => ?_) hInv
  obtain ⟨hprocessing, hrest⟩ := hbody c rest w hInv
  rwa [wp_bind, wp_modify, hprocessing, List.tail_cons]

/-- A phase over the clients. `K₀` holds before the snapshot is taken and `K` from then on;
`entry` is what the phase adds to the log for each client. -/
theorem ClientRule.wp_clientPhase (h : ClientRule good G F K J) {handler : Handler} (dns : Bool)
    {K₀ : World → Prop} {choose : ClientId → Proc Bool} {body : ClientId → Proc Unit}
    (entry : ClientId → Client → List ManagerEvent)
    (hdns : handler = .delayedConnect → dns = true)
    (hchoose : ∀ w, w.Sound → K₀ w → wp (systemContract good G F) (chooseFrom choose w.clientList)
      (fun chosen w' => ∃ w₁, w' = w₁.hold .manager ∧ w₁.Sound ∧
        K { w₁ with clientsProcessing := chosen } ∧ chosen.Nodup ∧ ∀ c ∈ chosen, Ready dns c w₁)
      (w.hold .manager))
    (hnext : ∀ c cl rest w, w.Sound → K w → w.clientsProcessing = c :: rest →
      w.clients c = some cl → K { w with clientsProcessing := rest, log := entry c cl ++ w.log })
    (hgone : ∀ c rest w w', w.Sound → K w → w.clientsProcessing = c :: rest →
      w.clients c = none → w.Agrees w' → F (.staleClient c) w')
    (hbody : ∀ c cl w Q, w.clients c = some cl → wp (systemContract good G F) (handle handler c) Q
      { w with log := entry c cl ++ w.log } → wp (systemContract good G F) (body c) Q w)
    (hbodyGone : ∀ c w Q, w.clients c = none → wp (systemContract good G F) (handle handler c) Q w →
      wp (systemContract good G F) (body c) Q w)
    (hw : w.Sound) (hK : K₀ w) :
    wp (systemContract good G F) (clientPhase choose body)
      (fun _ w' => w'.Sound ∧ K w' ∧ w'.clientsProcessing = []) w := by
  -- the loop invariant: `K`, and the snapshot is what is left of the list
  refine wp_mono (wp_phase
    (fun rest w => w.Sound ∧ K w ∧ Pending dns rest w ∧ rest.Nodup) ?_ ?_ hw)
    fun _ w' ⟨hw', hK', hrest, _⟩ => ⟨hw', hK', hrest.processing⟩
  · refine wp_mono (hchoose w hw hK) ?_
    rintro chosen _ ⟨w₁, rfl, hw₁, hK₁, hnodup, hready⟩
    exact ⟨w₁, rfl, hw₁, { hw₁ with }, hK₁, ⟨rfl, hready⟩, hnodup⟩
  · rintro c rest w ⟨hw, hK, hrest, hnodup⟩
    refine ⟨hrest.processing, ?_⟩
    obtain ⟨hc, hnodup⟩ := List.nodup_cons.mp hnodup
    cases hcl : w.clients c with
    | none =>
        -- a client of the snapshot has been destroyed by a callback: the handler finds it gone
        refine hbodyGone c _ _ hcl (wp_handle_gone handler hcl fun w' hagrees => ?_)
        exact hgone c rest w w' hw hK hrest.processing hcl { hagrees with }
    | some cl =>
        refine hbody c cl _ _ hcl ?_
        have hready : handler = .delayedConnect → cl.dnsFinished = true := fun hhandler =>
          (hrest.ready c List.mem_cons_self (hdns hhandler)).2 cl hcl
        refine wp_mono (h.wp_handle dns rest hcl hready (fun _ => hc) { hw with }
          (hnext c cl rest w hw hK hrest.processing hcl)
          ⟨rfl, fun c' hc' => hrest.ready c' (List.mem_cons_of_mem c hc')⟩) ?_
        exact fun _ w' ⟨hw', hK', hrest'⟩ => ⟨hw', hK', hrest', hnodup⟩

/-- What the server phase does with a live server: it is marked as active, and may accept a client
for its handler if it is open. -/
theorem wp_handleServer_of {C : Contract World Yield Fault} {Q : Unit → World → Prop}
    {srv : ServerId} {s : Server} (hs : w.servers srv = some s) (hw : w.Sound)
    (hnone : ∀ o t, w.clock ≤ t → Q () ((w.elapse o t).setServer srv { s with lastActive := t }))
    (haccept : ∀ o t fd w₂, w.clock ≤ t → s.acceptHandler = true → s.isOpen = true →
      Change (.newClientFrom fd) ((w.elapse o t).setServer srv { s with lastActive := t }) w₂ →
      wp C (Routine.yield (.accept srv w.nextClient)) Q w₂) : wp C (handleServer srv) Q w := by
  rw [handleServer, wp_bind, setServerLastActive, wp_bind]
  refine wp_now fun o t ht => ?_
  rw [wp_updateServer, World.elapse_servers, hs, Option.elim_some]
  have hfailed (o' : Outcomes) :
      Q () (((w.elapse o t).setServer srv { s with lastActive := t }).elapse o' t) := hnone o' t ht
  have hunheld :
      Mutex.manager ∉ ((w.elapse o t).setServer srv { s with lastActive := t }).held := by
    simp [World.setServer, World.elapse, hw.unheld]
  have hs₁ : ((w.elapse o t).setServer srv { s with lastActive := t }).servers srv =
      some { s with lastActive := t } := Function.update_self ..
  rw [Server.sockIsReadable, wp_bind, wp_server, hs₁, Option.elim_some, wp_ite]
  split
  · exact hnone o t ht
  · rename_i hhandler
    rw [wp_bind]
    -- `accept` fails, or the new client may not be allocated, or its descriptor goes to it
    refine wp_accept (fun o => hfailed o) fun hopen fd w₂ o' hfd => ?_
    rw [wp_bind, allocate]
    refine wp_take_of_forall fun ok o'' => ?_
    rw [wp_ite, World.elapse_elapse, World.elapse_clock]
    split
    · rw [wp_bind]
      refine wp_newClientFrom o'' t hunheld hfd le_rfl fun w₃ o₃ t₀ t₁ ht₀ ht₁ hd => ?_
      exact haccept o t fd _ ht (by simpa using hhandler) (by simpa [Server.isOpen] using hopen)
        (.newClientFrom ht₀ ht₁ (World.acquire_eq_some.mp hfd).1 hd)
    · -- there is no memory for a client: the descriptor is closed again
      rw [wp_closeFd, World.closeFd_elapse, World.closeFd_acquire hfd]
      exact hfailed o''

theorem wp_handleServer {C : Contract World Yield Fault} {Q : Unit → World → Prop} {srv : ServerId}
    {s : Server} (hs : w.servers srv = some s) (hw : w.Sound)
    (hnone : ∀ o t, w.clock ≤ t → Q () ((w.elapse o t).setServer srv { s with lastActive := t }))
    (haccept : ∀ o t fd w₂, w.clock ≤ t → s.acceptHandler = true →
      Change (.newClientFrom fd) ((w.elapse o t).setServer srv { s with lastActive := t }) w₂ →
      wp C (Routine.yield (.accept srv w.nextClient)) Q w₂) : wp C (handleServer srv) Q w :=
  wp_handleServer_of hs hw hnone fun o t fd w₂ ht hhandler _ => haccept o t fd w₂ ht hhandler

/-- The same for an assertion that the server phase keeps. -/
theorem ServerRule.wp_handleServer (h : ServerRule good G K)
    (helapse : ∀ {w : World} {o : Outcomes} {t : Time}, w.Sound → K w → w.clock ≤ t →
      K (w.elapse o t))
    {srv : ServerId} {s : Server} {rest : List ServerId} (hs : w.servers srv = some s)
    (hw : w.Sound) (hK : K w) (hrest : w.serversProcessing = rest) :
    wp (systemContract good G F) (handleServer srv)
      (fun _ w' => w'.Sound ∧ K w' ∧ w'.serversProcessing = rest) w := by
  have hactive (o : Outcomes) {t : Time} (ht : w.clock ≤ t) :
      ((w.elapse o t).setServer srv { s with lastActive := t }).Sound ∧
        K ((w.elapse o t).setServer srv { s with lastActive := t }) :=
    ⟨(hw.elapse o t).setServer _ hs, h.update _ (hw.elapse o t) (helapse hw hK ht) hs rfl⟩
  refine AsyncTcpSock.wp_handleServer hs hw (fun o t ht => ?_) fun o t fd w₂ ht _ hchange => ?_
  · exact ⟨(hactive o ht).1, (hactive o ht).2, hrest⟩
  · obtain ⟨hw₁, hK₁⟩ := hactive o ht
    have hK₂ := h.accept hw₁ hK₁ hchange
    -- while the accept handler runs, the environment takes the steps that `good` admits
    refine wp_yield_of_stable (fun w => w.Sound ∧ K w ∧ w.serversProcessing = rest)
      ⟨hchange.sound hw₁, hK₂, hchange.frame.serversProcessing.trans hrest⟩ ?_
      (h.yield (hchange.sound hw₁) hK₂) fun w hJ => hJ
    rintro w w' ⟨hw, hK, hrest⟩ henv
    obtain ⟨e, hgood, hchange⟩ := exists_change hw henv
    exact ⟨hchange.sound hw, h.env hw hK hgood hchange,
      hchange.frame.serversProcessing.trans hrest⟩

/-- The phase over the servers. -/
theorem wp_serverPhase {C : Contract World Yield Fault} {test : Server → Bool}
    (hhandle : ∀ srv s rest w, w.servers srv = some s → w.Sound → K w →
      w.serversProcessing = rest → wp C (handleServer srv)
        (fun _ w' => w'.Sound ∧ K w' ∧ w'.serversProcessing = rest) w)
    (hsnapshot : ∀ chosen w, w.Sound → K w → chosen.Sublist w.serverList →
      K { w with serversProcessing := chosen })
    (hnext : ∀ srv rest w, w.Sound → K w → w.serversProcessing = srv :: rest →
      K { w with serversProcessing := rest })
    (hgone : ∀ srv rest w w', w.Sound → K w → w.serversProcessing = srv :: rest →
      w.servers srv = none → w.Agrees w' → C.atFault (.staleServer srv) w')
    (hw : w.Sound) (hK : K w) :
    wp C (serverPhase (fun srv => do return test (← server srv)) handleServer)
      (fun _ w' => w'.Sound ∧ K w') w := by
  rw [serverPhase, wp_bind, wp_lock, if_neg (by simp [hw.unheld]), wp_bind, wp_get, wp_bind]
  refine wp_chooseServers hw.serversLive ?_
  rw [wp_bind, wp_unlock, World.release_hold (by simp [hw.unheld]), wp_bind, wp_modify]
  refine wp_mono (wp_forEach
    (fun rest w => w.Sound ∧ K w ∧ w.serversProcessing = rest) ?_ ?_)
    fun _ w' ⟨hw', hK', _⟩ => ⟨hw', hK'⟩
  · rintro srv rest w ⟨hw, hK, hrest⟩
    rw [wp_bind, wp_modify, hrest, List.tail_cons]
    cases hs : w.servers srv with
    | none =>
        -- the server of the snapshot has been destroyed
        rw [handleServer, wp_bind, setServerLastActive, wp_bind]
        refine wp_now fun o t ht => ?_
        rw [wp_updateServer, World.elapse_servers, hs]
        exact hgone srv rest w _ hw hK hrest hs ⟨rfl, rfl, rfl, rfl, rfl, rfl, ht⟩
    | some s => exact hhandle srv s rest _ hs { hw with } (hnext srv rest w hw hK hrest) rfl
  · exact ⟨{ hw with }, hsnapshot _ w hw hK List.filter_sublist, rfl⟩

theorem ServerRule.wp_serverPhase (h : ServerRule good G K)
    (helapse : ∀ {w : World} {o : Outcomes} {t : Time}, w.Sound → K w → w.clock ≤ t →
      K (w.elapse o t))
    {test : Server → Bool}
    (hsnapshot : ∀ chosen w, w.Sound → K w → chosen.Sublist w.serverList →
      K { w with serversProcessing := chosen })
    (hnext : ∀ srv rest w, w.Sound → K w → w.serversProcessing = srv :: rest →
      K { w with serversProcessing := rest })
    (hgone : ∀ srv rest w w', w.Sound → K w → w.serversProcessing = srv :: rest →
      w.servers srv = none → w.Agrees w' → F (.staleServer srv) w')
    (hw : w.Sound) (hK : K w) :
    wp (systemContract good G F)
      (serverPhase (fun srv => do return test (← server srv)) handleServer)
      (fun _ w' => w'.Sound ∧ K w') w :=
  AsyncTcpSock.wp_serverPhase
    (fun _ _ _ _ hs hw hK hrest => h.wp_handleServer helapse hs hw hK hrest) hsnapshot hnext hgone
    hw hK

/-! ## Collecting descriptors -/

/-- What the collection adds to a descriptor set and to the log: a descriptor that is in the set
afterwards was there before, or is the socket of a client that has recorded it in `events`. -/
def Collected (w : World) (set : FdSet) (before after : List ℤ) (events : List ManagerEvent) :
    Prop :=
  ∀ fd ∈ after, fd ∈ before ∨ ∃ c cl, w.clients c = some cl ∧ cl.socket = fd ∧ fd ≠ -1 ∧
    .fdSet set c cl.socket cl.connection ∈ events

/-- An event of the collection. -/
def ManagerEvent.isFdSet : ManagerEvent → Bool
  | fdSet _ _ _ _ => true
  | _ => false

section

variable {C : Contract World Yield Fault} {set : FdSet} {before after : List ℤ}
  {events new : List ManagerEvent}

omit [Configuration] in
theorem Collected.append (h : Collected w set before after events) :
    Collected w set before after (events ++ new) := by
  intro fd hfd
  refine (h fd hfd).imp_right ?_
  rintro ⟨c, cl, hcl, hsocket, hne, hevent⟩
  exact ⟨c, cl, hcl, hsocket, hne, List.mem_append_left new hevent⟩

omit [Configuration] in
/-- A client has recorded its descriptor before the rest of the collection. -/
theorem Collected.record {c : ClientId} {cl : Client}
    (h : Collected w set (cl.socket :: before) after events) (hcl : w.clients c = some cl)
    (hsocket : cl.socket ≠ -1) (hnew : .fdSet set c cl.socket cl.connection ∈ new) :
    Collected w set before after (events ++ new) := by
  intro fd hfd
  rcases h.append fd hfd with hmem | hevent
  · rcases List.mem_cons.mp hmem with rfl | hmem
    · exact .inr ⟨c, cl, hcl, rfl, hsocket, List.mem_append_right events hnew⟩
    · exact .inl hmem
  · exact .inr hevent

omit [Configuration] in
theorem wp_managerLog {e : ManagerEvent} {Q : Unit → World → Prop} :
    wp C (Manager.log e) Q w ↔ Q () { w with log := e :: w.log } := Iff.rfl

omit [Configuration] in
/-- `_pendingWrite` changes nothing. -/
theorem wp_pendingWrite {c : ClientId} {cl : Client} {Q : Bool → World → Prop}
    (hcl : w.clients c = some cl) (hQ : ∀ b, Q b w) : wp C (ClientBase.pendingWrite c) Q w := by
  rw [ClientBase.pendingWrite, wp_bind, wp_this, hcl, Option.elim_some, wp_ite]
  split
  · exact hQ true
  · rw [wp_bind, wp_tryLock]
    split
    · exact hQ true
    · rename_i hheld
      rw [wp_ite, if_pos rfl, wp_bind, wp_this, World.hold_clients, hcl, Option.elim_some, wp_bind,
        wp_unlock, World.release_hold hheld]
      exact hQ _

/-- The visit of the clients `l`, which starts with the log `log`. -/
theorem wp_collectClients {l : List ClientId} {r s : List ℤ} {log : List ManagerEvent}
    (hlive : ∀ c ∈ l, (w.clients c).isSome) :
    wp C (collectClients l r s)
      (fun sets w' => ∃ events, (∀ e ∈ events, e.isFdSet = true) ∧
        w' = ({ w with log := events ++ log } : World).hold .manager ∧
        Collected w .read r sets.1 events ∧ Collected w .write s sets.2 events)
      (({ w with log } : World).hold .manager) := by
  induction l generalizing r s log with
  | nil => exact ⟨[], by simp, rfl, fun fd hfd => .inl hfd, fun fd hfd => .inl hfd⟩
  | cons c rest ih =>
      have hrest := fun c' hc' => hlive c' (List.mem_cons_of_mem c hc')
      obtain ⟨cl, hcl⟩ := Option.isSome_iff_exists.mp (hlive c List.mem_cons_self)
      have hcl' (log : List ManagerEvent) :
          (({ w with log } : World).hold .manager).clients c = some cl := hcl
      rw [collectClients, wp_bind, wp_this, hcl', Option.elim_some, wp_ite]
      split
      · rename_i hsocket
        -- the socket goes into the read set, and into the write set if there is something to write
        rw [wp_bind, wp_managerLog, wp_bind]
        refine wp_pendingWrite (hcl' (.fdSet .read c cl.socket cl.connection :: log))
          fun pending => ?_
        cases pending with
        | true =>
            rw [wp_ite, if_pos rfl, wp_bind, wp_managerLog]
            refine wp_mono (@ih (cl.socket :: r) (cl.socket :: s)
              (.fdSet .write c cl.socket cl.connection ::
                .fdSet .read c cl.socket cl.connection :: log) hrest) ?_
            rintro sets w' ⟨events, hevents, rfl, hread, hwrite⟩
            refine ⟨events ++ [.fdSet .write c cl.socket cl.connection,
                .fdSet .read c cl.socket cl.connection], ?_, ?_,
              hread.record hcl hsocket (by simp), hwrite.record hcl hsocket (by simp)⟩
            · intro e he
              rcases List.mem_append.mp he with he | he
              · exact hevents e he
              · simp only [List.mem_cons, List.not_mem_nil, or_false] at he
                rcases he with rfl | rfl <;> rfl
            · simp
        | false =>
            rw [wp_ite, if_neg Bool.false_ne_true]
            refine wp_mono (@ih (cl.socket :: r) s
              (.fdSet .read c cl.socket cl.connection :: log) hrest) ?_
            rintro sets w' ⟨events, hevents, rfl, hread, hwrite⟩
            refine ⟨events ++ [.fdSet .read c cl.socket cl.connection], ?_, ?_,
              hread.record hcl hsocket (by simp), hwrite.append⟩
            · intro e he
              rcases List.mem_append.mp he with he | he
              · exact hevents e he
              · obtain rfl := List.mem_singleton.mp he
                rfl
            · simp
      · exact ih hrest

/-- Whether a socket is free does not matter here. -/
theorem wp_hasFreeSocket {Q : Bool → World → Prop} (hQ : ∀ b, Q b w) :
    wp C hasFreeSocket Q w := by
  rw [hasFreeSocket, wp_bind, wp_get, wp_pure]
  exact hQ _

/-- The visit of the servers `l` adds descriptors of servers. -/
theorem wp_collectServers {l : List ServerId} {r : List ℤ}
    (hlive : ∀ srv ∈ l, (w.servers srv).isSome) :
    wp C (collectServers l r)
      (fun r' w' => w' = w ∧ ∀ fd ∈ r', fd ∈ r ∨
        ∃ srv s, w.servers srv = some s ∧ s.socket = fd ∧ fd ≠ -1) w := by
  induction l generalizing r with
  | nil => exact ⟨rfl, fun fd hfd => .inl hfd⟩
  | cons srv rest ih =>
      have hrest := fun srv' h => hlive srv' (List.mem_cons_of_mem srv h)
      obtain ⟨s, hs⟩ := Option.isSome_iff_exists.mp (hlive srv List.mem_cons_self)
      rw [collectServers, wp_bind, wp_server, hs, Option.elim_some, wp_ite]
      split
      · rename_i hsocket
        rw [wp_bind]
        -- whether there is room decides only if the server goes into the set
        refine wp_hasFreeSocket fun free => ?_
        cases free with
        | true =>
            rw [wp_ite, if_pos rfl]
            refine wp_mono (ih hrest) ?_
            rintro r' w' ⟨rfl, hr'⟩
            refine ⟨rfl, fun fd hfd => ?_⟩
            rcases hr' fd hfd with hmem | hserver
            · rcases List.mem_cons.mp hmem with rfl | hmem
              · exact .inr ⟨srv, s, hs, rfl, hsocket⟩
              · exact .inl hmem
            · exact .inr hserver
        | false =>
            rw [wp_ite, if_neg Bool.false_ne_true]
            exact ih hrest
      · exact ih hrest

omit [Configuration] in
/-- `select` reports some of the descriptors it is given. -/
theorem wp_selectAll {r s : List ℤ} {Q : List ℤ × List ℤ → World → Prop}
    (hQ : ∀ r' s' o, r' ⊆ r → s' ⊆ s → Q (r', s') (w.elapse o w.clock)) :
    wp C (selectAll r s) Q w := by
  rw [selectAll, wp_bind]
  refine wp_take_of_forall fun ready o => ?_
  exact hQ _ _ o (List.filter_subset_self r) (List.filter_subset_self s)

end

/-! ## Whole cycles -/

/-- The phases that follow the socket phases. -/
def laterPhases : Proc Unit := do
  clientPhase (fun c => return (← this c).dnsFinished) (handle .delayedConnect)
  clientPhase pollDue (handle .poll)
  clientPhase (fun _ => return true) (handle .done)

/-- The beginning of a cycle, up to `select`. -/
def selectReady : Proc (List ℤ × List ℤ) := do
  log .cycle
  lock .manager
  let (r, w) ← collectClients (← Routine.get).clientList [] []
  unlock .manager
  lock .manager
  let r ← collectServers (← Routine.get).serverList r
  unlock .manager
  selectAll r w

/-- The socket phases over the clients. -/
def clientSocketPhases (r w : List ℤ) : Proc Unit := do
  log (.writing r)
  clientPhase (fun c => return (← this c).socket ∈ w) fun c => do
    logEntered .write c
    handle .writeable c
  log .reading
  clientPhase (fun c => return (← this c).socket ∈ r) fun c => do
    logEntered .read c
    handle .readable c
  log .serving

/-- The server phase. -/
def serving (r : List ℤ) : Proc Unit :=
  serverPhase (fun srv => return (← server srv).socket ∈ r) handleServer

theorem socketPhases_eq (r s : List ℤ) :
    socketPhases r s = (do
      clientSocketPhases r s
      serving r) := by
  simp only [socketPhases, clientSocketPhases, serving, Routine.bind_assoc]

theorem updateConnectionStates_eq :
    updateConnectionStates = (do
      let (r, s) ← selectReady
      if !(r.isEmpty && s.isEmpty) then socketPhases r s
      laterPhases) := by
  simp only [updateConnectionStates, selectReady, laterPhases, Routine.bind_assoc]

/-- What `select` reports are descriptors of clients and servers. -/
theorem wp_selectReady {C : Contract World Yield Fault} {Q : List ℤ × List ℤ → World → Prop}
    (hw : w.Sound)
    (hQ : ∀ events r s o, (∀ e ∈ events, ManagerEvent.isFdSet e = true) →
      (∀ fd ∈ r, (∃ c cl, w.clients c = some cl ∧ cl.socket = fd ∧ fd ≠ -1 ∧
        .fdSet .read c cl.socket cl.connection ∈ events) ∨
        ∃ srv s, w.servers srv = some s ∧ s.socket = fd ∧ fd ≠ -1) →
      (∀ fd ∈ s, ∃ c cl, w.clients c = some cl ∧ cl.socket = fd ∧ fd ≠ -1 ∧
        .fdSet .write c cl.socket cl.connection ∈ events) →
      Q (r, s) (({ w with log := events ++ .cycle :: w.log } : World).elapse o w.clock)) :
    wp C selectReady Q w := by
  have hmutex {w : World} (hw : w.Sound) : Mutex.manager ∉ w.held := by simp [hw.unheld]
  rw [selectReady, wp_bind, wp_managerLog, wp_bind, wp_lock, if_neg (hmutex hw), wp_bind,
    wp_get, wp_bind]
  refine wp_mono (wp_collectClients hw.clientsLive) ?_
  rintro ⟨r, s⟩ _ ⟨events, hevents, rfl, hread, hwrite⟩
  have hw₁ : ({ w with log := events ++ .cycle :: w.log } : World).Sound := { hw with }
  rw [wp_bind, wp_unlock, World.release_hold (hmutex hw₁), wp_bind, wp_lock, if_neg (hmutex hw₁),
    wp_bind, wp_get, wp_bind]
  refine wp_mono (wp_collectServers hw₁.serversLive) ?_
  rintro r' _ ⟨rfl, hr'⟩
  rw [wp_bind, wp_unlock, World.release_hold (hmutex hw₁)]
  -- `::select` only ever takes descriptors out of the sets
  refine wp_selectAll fun r'' s'' o hr'' hs'' => ?_
  refine hQ events r'' s'' o hevents (fun fd hfd => ?_) fun fd hfd => ?_
  · rcases hr' fd (hr'' hfd) with hmem | hserver
    · exact .inl ((hread fd hmem).resolve_left List.not_mem_nil)
    · exact .inr hserver
  · exact (hwrite fd (hs'' hfd)).resolve_left List.not_mem_nil

/-- A cycle collects descriptors, selects among them, and goes through the phases. -/
theorem wp_cycle {C : Contract World Yield Fault} {Q : Unit → World → Prop} (hw : w.Sound)
    (hsockets : ∀ events r s o, (∀ e ∈ events, ManagerEvent.isFdSet e = true) →
      (∀ fd ∈ r, (∃ c cl, w.clients c = some cl ∧ cl.socket = fd ∧ fd ≠ -1 ∧
        .fdSet .read c cl.socket cl.connection ∈ events) ∨
        ∃ srv s, w.servers srv = some s ∧ s.socket = fd ∧ fd ≠ -1) →
      (∀ fd ∈ s, ∃ c cl, w.clients c = some cl ∧ cl.socket = fd ∧ fd ≠ -1 ∧
        .fdSet .write c cl.socket cl.connection ∈ events) →
      wp C (socketPhases r s) (fun _ w' => wp C laterPhases Q w')
        (({ w with log := events ++ .cycle :: w.log } : World).elapse o w.clock))
    (hnone : ∀ events o, (∀ e ∈ events, ManagerEvent.isFdSet e = true) → wp C laterPhases Q
      (({ w with log := events ++ .cycle :: w.log } : World).elapse o w.clock)) :
    wp C updateConnectionStates Q w := by
  rw [updateConnectionStates_eq, wp_bind]
  refine wp_selectReady hw fun events r s o hevents hr hs => ?_
  rw [wp_ite]
  split
  · rw [wp_bind]
    exact hsockets events r s o hevents hr hs
  · exact hnone events o hevents

/-- The conditions under which `K` is kept by phases over the clients. -/
structure PhaseRule (good : StepCondition) (G : Yield → World → Prop) (F : Fault → World → Prop)
    (K : World → Prop) (J : ClientId → Phase → World → Prop) : Prop where
  /-- What a phase does with each client. -/
  client : ClientRule good G F K J
  /-- The manager takes a snapshot of its clients. -/
  snapshot {w : World} {chosen : List ClientId} : w.Sound → K w → chosen.Sublist w.clientList →
    K { w with clientsProcessing := chosen }
  /-- The manager comes to the next client of a snapshot. -/
  next {w : World} {c : ClientId} {rest : List ClientId} : w.Sound → K w →
    w.clientsProcessing = c :: rest → K { w with clientsProcessing := rest }
  /-- What is known when the next client is gone. -/
  gone {w w' : World} {c : ClientId} {rest : List ClientId} : w.Sound → K w →
    w.clientsProcessing = c :: rest → w.clients c = none → w.Agrees w' → F (.staleClient c) w'

/-- The conditions under which `K` is kept by whole cycles. -/
structure CycleRule (good : StepCondition) (G : Yield → World → Prop) (F : Fault → World → Prop)
    (K : World → Prop) (J : ClientId → Phase → World → Prop) : Prop
    extends PhaseRule good G F K J where
  /-- What the server phase does with each server. -/
  server : ServerRule good G K
  /-- The log of the manager does not matter. -/
  record {w : World} (log : List ManagerEvent) : K w → K { w with log }
  /-- The manager takes a snapshot of its servers. -/
  serverSnapshot {w : World} {chosen : List ServerId} : w.Sound → K w →
    chosen.Sublist w.serverList → K { w with serversProcessing := chosen }
  /-- The manager comes to the next server of a snapshot. -/
  serverNext {w : World} {srv : ServerId} {rest : List ServerId} : w.Sound → K w →
    w.serversProcessing = srv :: rest → K { w with serversProcessing := rest }
  /-- What is known when the next server is gone. -/
  serverGone {w w' : World} {srv : ServerId} {rest : List ServerId} : w.Sound → K w →
    w.serversProcessing = srv :: rest → w.servers srv = none → w.Agrees w' →
    F (.staleServer srv) w'

namespace PhaseRule

/-- A phase that does nothing but run a handler on the clients of its snapshot. -/
theorem wp_plainPhase (h : PhaseRule good G F K J) (handler : Handler)
    {choose : ClientId → Proc Bool}
    (hchoose : ∀ w, w.Sound → K w → wp (systemContract good G F) (chooseFrom choose w.clientList)
      (fun chosen w' => ∃ w₁, w' = w₁.hold .manager ∧ w₁.Sound ∧
        K { w₁ with clientsProcessing := chosen } ∧ chosen.Nodup ∧
        ∀ c ∈ chosen, Ready (handler = .delayedConnect) c w₁) (w.hold .manager))
    (hw : w.Sound) (hK : K w) :
    wp (systemContract good G F) (clientPhase choose (handle handler))
      (fun _ w' => w'.Sound ∧ K w') w :=
  wp_mono (h.client.wp_clientPhase _ (fun _ _ => []) (by simp) hchoose
    (fun _ _ _ _ hw hK hrest _ => h.next hw hK hrest)
    (fun _ _ _ _ hw hK hrest hcl hagrees => h.gone hw hK hrest hcl hagrees)
    (fun _ _ _ _ _ hhandle => hhandle) (fun _ _ _ _ hhandle => hhandle) hw hK)
    fun _ _ ⟨hw', hK', _⟩ => ⟨hw', hK'⟩

/-- The choice of the poll phase marks the clients it chooses as active. -/
theorem wp_choosePollDue (h : PhaseRule good G F K J) (hw : w.Sound) (hK : K w) :
    wp (systemContract good G F) (chooseFrom pollDue w.clientList)
      (fun chosen w' => ∃ w₁, w' = w₁.hold .manager ∧ w₁.Sound ∧
        K { w₁ with clientsProcessing := chosen } ∧ chosen.Nodup ∧
        ∀ c ∈ chosen, Ready false c w₁) (w.hold .manager) := by
  refine wp_mono (wp_chooseFrom
    (fun w' => ∃ w₁, w' = w₁.hold .manager ∧ w₁.Sound ∧ K w₁ ∧ w₁.clientList = w.clientList)
    (fun _ _ => True) ?_ ⟨w, rfl, hw, hK, rfl⟩) ?_
  · rintro c hc _ ⟨w₁, rfl, hw₁, hK₁, hlist⟩
    obtain ⟨cl, hcl⟩ := Option.isSome_iff_exists.mp (hw₁.clientsLive c (hlist ▸ hc))
    rw [pollDue, wp_bind]
    refine wp_now fun o t ht => ?_
    rw [World.hold_elapse, wp_bind, wp_this, World.hold_clients, World.elapse_clients, hcl,
      Option.elim_some, wp_ite]
    split
    · rw [wp_bind, wp_update, World.hold_clients, World.elapse_clients, hcl, Option.elim_some,
        World.hold_put, World.elapse_put]
      -- the poll is due: the client is marked as active and chosen
      have hmove := Move.of_kept (R := UserStep) o hcl ht (.touch cl)
      exact ⟨⟨_, rfl, hmove.sound hw₁, h.client.touch hw₁ hK₁ hcl ht, hlist⟩, fun _ h => h,
        fun _ => trivial⟩
    · exact ⟨⟨_, rfl, hw₁.elapse o t, h.client.elapse hw₁ hK₁ ht, hlist⟩, fun _ h => h,
        fun _ => trivial⟩
  · rintro chosen _ ⟨⟨w₁, rfl, hw₁, hK₁, hlist⟩, -, hsub, -⟩
    rw [← hlist] at hsub
    exact ⟨w₁, rfl, hw₁, h.snapshot hw₁ hK₁ hsub, hw₁.clientsNodup.sublist hsub,
      fun _ _ => nofun⟩

/-- The phases that follow the socket phases. -/
theorem wp_laterPhases (h : PhaseRule good G F K J) (hw : w.Sound) (hK : K w) :
    wp (systemContract good G F) laterPhases (fun _ w' => w'.Sound ∧ K w') w := by
  have hsnapshot {w : World} {chosen : List ClientId} (hw : w.Sound) (hK : K w)
      (hsub : chosen.Sublist w.clientList) :
      K { w with clientsProcessing := chosen } ∧ chosen.Nodup :=
    ⟨h.snapshot hw hK hsub, hw.clientsNodup.sublist hsub⟩
  rw [laterPhases, wp_bind]
  -- the clients whose DNS query has been answered
  refine wp_mono (h.wp_plainPhase .delayedConnect (fun w hw hK => ?_) hw hK)
    fun _ w₁ ⟨hw₁, hK₁⟩ => ?_
  · refine wp_mono (wp_chooseClients Client.dnsFinished hw) ?_
    rintro chosen _ ⟨rfl, hsub, hall⟩
    obtain ⟨hK', hnodup⟩ := hsnapshot hw hK hsub
    refine ⟨w, rfl, hw, hK', hnodup, fun c hc _ => ?_⟩
    obtain ⟨cl, hcl, hdns⟩ := hall c hc
    refine ⟨?_, fun cl' hcl' => ?_⟩
    · -- an identifier that has not been handed out has no client
      by_contra hle
      rw [hw.clientsFresh c (not_lt.mp hle)] at hcl
      cases hcl
    · rwa [← Option.some.inj (hcl.symm.trans hcl')]
  rw [wp_bind]
  refine wp_mono (h.wp_plainPhase .poll (fun w hw hK => h.wp_choosePollDue hw hK) hw₁ hK₁)
    fun _ w₂ ⟨hw₂, hK₂⟩ => ?_
  refine h.wp_plainPhase .done (fun w hw hK => ?_) hw₂ hK₂
  refine wp_mono (wp_chooseFrom (fun w' => w' = w.hold .manager) (fun _ _ => True) ?_ rfl) ?_
  · rintro c _ _ rfl
    exact ⟨rfl, fun _ h => h, fun _ => trivial⟩
  · rintro chosen _ ⟨rfl, -, hsub, -⟩
    obtain ⟨hK', hnodup⟩ := hsnapshot hw hK hsub
    exact ⟨w, rfl, hw, hK', hnodup, fun _ _ => nofun⟩

/-- A phase that records the clients it hands to the handler of a descriptor set. -/
theorem wp_socketPhase (h : PhaseRule good G F K J)
    (hrecord : ∀ {w : World} (log : List ManagerEvent), K w → K { w with log }) (handler : Handler)
    (set : FdSet) (hhandler : handler ≠ .delayedConnect) {fds : List ℤ} (hw : w.Sound) (hK : K w) :
    wp (systemContract good G F)
      (clientPhase (fun c => return (← this c).socket ∈ fds) fun c => do
        logEntered set c
        handle handler c)
      (fun _ w' => w'.Sound ∧ K w') w := by
  refine wp_mono (h.client.wp_clientPhase false
    (fun c cl => [.entered set c cl.socket cl.connection]) (fun heq => absurd heq hhandler)
    (fun w hw hK => ?_) (fun c cl rest w hw hK hrest _ => ?_)
    (fun _ _ _ _ hw hK hrest hcl hagrees => h.gone hw hK hrest hcl hagrees)
    (fun c cl w Q hcl hhandle => ?_) (fun c w Q hcl hhandle => ?_) hw hK)
    fun _ _ ⟨hw', hK', _⟩ => ⟨hw', hK'⟩
  · refine wp_mono (wp_chooseClients (fun cl => decide (cl.socket ∈ fds)) hw) ?_
    rintro chosen _ ⟨rfl, hsub, -⟩
    exact ⟨w, rfl, hw, h.snapshot hw hK hsub, hw.clientsNodup.sublist hsub, fun _ _ => nofun⟩
  · exact hrecord _ (h.next hw hK hrest)
  · rw [wp_bind, logEntered, wp_modify, hcl]
    exact hhandle
  · rw [wp_bind, logEntered, wp_modify, hcl]
    exact hhandle

/-- The socket phases over the clients. -/
theorem wp_clientSocketPhases (h : PhaseRule good G F K J)
    (hrecord : ∀ {w : World} (log : List ManagerEvent), K w → K { w with log }) {r s : List ℤ}
    (hw : w.Sound) (hK : K w) :
    wp (systemContract good G F) (clientSocketPhases r s) (fun _ w' => w'.Sound ∧ K w') w := by
  rw [clientSocketPhases, wp_bind, wp_managerLog, wp_bind]
  refine wp_mono (h.wp_socketPhase hrecord .writeable .write nofun { hw with } (hrecord _ hK))
    fun _ w₁ ⟨hw₁, hK₁⟩ => ?_
  rw [wp_bind, wp_managerLog, wp_bind]
  refine wp_mono (h.wp_socketPhase hrecord .readable .read nofun { hw₁ with } (hrecord _ hK₁))
    fun _ w₂ ⟨hw₂, hK₂⟩ => ?_
  rw [wp_managerLog]
  exact ⟨{ hw₂ with }, hrecord _ hK₂⟩

/-- A cycle, where the phase over the servers keeps `K`. -/
theorem wp_cycle_of_serving (h : PhaseRule good G F K J)
    (hrecord : ∀ {w : World} (log : List ManagerEvent), K w → K { w with log })
    (hserving : ∀ r w, w.Sound → K w →
      wp (systemContract good G F) (serving r) (fun _ w' => w'.Sound ∧ K w') w)
    (hw : w.Sound) (hK : K w) :
    wp (systemContract good G F) updateConnectionStates (fun _ w' => w'.Sound ∧ K w') w := by
  have hlog (events : List ManagerEvent) (o : Outcomes) :
      (({ w with log := events ++ .cycle :: w.log } : World).elapse o w.clock).Sound ∧
        K (({ w with log := events ++ .cycle :: w.log } : World).elapse o w.clock) := by
    have hw' : ({ w with log := events ++ .cycle :: w.log } : World).Sound := { hw with }
    exact ⟨hw'.elapse o w.clock, h.client.elapse hw' (hrecord _ hK) le_rfl⟩
  refine wp_cycle hw (fun events r s o _ _ _ => ?_) fun events o _ => ?_
  · obtain ⟨hw₁, hK₁⟩ := hlog events o
    rw [socketPhases_eq, wp_bind]
    refine wp_mono (h.wp_clientSocketPhases hrecord hw₁ hK₁) fun _ w₂ ⟨hw₂, hK₂⟩ => ?_
    exact wp_mono (hserving r w₂ hw₂ hK₂) fun _ w₃ ⟨hw₃, hK₃⟩ => h.wp_laterPhases hw₃ hK₃
  · obtain ⟨hw₁, hK₁⟩ := hlog events o
    exact h.wp_laterPhases hw₁ hK₁

end PhaseRule

namespace CycleRule

/-- `K` is kept by a cycle. -/
theorem wp_updateConnectionStates (h : CycleRule good G F K J) (hw : w.Sound) (hK : K w) :
    wp (systemContract good G F) updateConnectionStates (fun _ w' => w'.Sound ∧ K w') w := by
  refine h.wp_cycle_of_serving h.record (fun r w hw hK => ?_) hw hK
  exact h.server.wp_serverPhase (fun hw hK ht => h.client.elapse hw hK ht)
    (fun chosen w hw hK hsub => h.serverSnapshot hw hK hsub)
    (fun srv rest w hw hK hrest => h.serverNext hw hK hrest)
    (fun srv rest w w' hw hK hrest hs hagrees => h.serverGone hw hK hrest hs hagrees) hw hK

end CycleRule

/-! ## Runs -/

/-- The operations on single clients keep `K`, and those on single servers if `handleServer`
does. -/
theorem wp_op_of {op : Op} (hclient : ClientRule good G F K J)
    (hserver : ∀ srv s w, w.servers srv = some s → w.Sound → K w →
      wp (systemContract good G F) (handleServer srv) (fun _ w' => w'.Sound ∧ K w') w)
    (hcycle : ∀ w, w.Sound → K w →
      wp (systemContract good G F) updateConnectionStates (fun _ w' => w'.Sound ∧ K w') w)
    (hw : w.Sound) (hK : K w) :
    wp (systemContract good G F) op.routine (fun _ w' => w'.Sound ∧ K w') w := by
  -- entered on its own a handler is in no phase, and the snapshot stays as it is
  have hhandle {handler : Handler} {c : ClientId} {cl : Client} (hcl : w.clients c = some cl)
      (hdns : handler = .delayedConnect → cl.dnsFinished = true) :
      wp (systemContract good G F) (handle handler c) (fun _ w' => w'.Sound ∧ K w') w :=
    wp_mono (hclient.wp_handle false w.clientsProcessing hcl hdns nofun hw hK
      ⟨rfl, fun _ _ => nofun⟩) fun _ _ ⟨hw', hK', _⟩ => ⟨hw', hK'⟩
  have hplain (handler : Handler) (hne : handler ≠ .delayedConnect) (c : ClientId) :
      wp (systemContract good G F)
        (do if c ∈ (← Routine.get).clientList then handle handler c)
        (fun _ w' => w'.Sound ∧ K w') w := by
    rw [wp_bind, wp_get, wp_ite]
    split
    · obtain ⟨cl, hcl⟩ := Option.isSome_iff_exists.mp (hw.clientsLive c ‹_›)
      exact hhandle hcl fun heq => absurd heq hne
    · exact ⟨hw, hK⟩
  cases op with
  | cycle => exact hcycle w hw hK
  | handle handler c =>
      cases handler with
      | delayedConnect =>
          rw [Op.routine, wp_bind, wp_get, wp_ite]
          split
          · -- `_sockDelayedConnect` is entered by the worker only after it has seen an answer
            obtain ⟨cl, hcl⟩ := Option.isSome_iff_exists.mp (hw.clientsLive c ‹_›)
            rw [wp_bind, wp_this, hcl, Option.elim_some, wp_ite]
            split
            · exact hhandle hcl fun _ => ‹_›
            · exact ⟨hw, hK⟩
          · exact ⟨hw, hK⟩
      | writeable => exact hplain .writeable nofun c
      | readable => exact hplain .readable nofun c
      | poll => exact hplain .poll nofun c
      | done => exact hplain .done nofun c
  | handleServer srv =>
      rw [Op.routine, wp_bind, wp_get, wp_ite]
      split
      · obtain ⟨s, hs⟩ := Option.isSome_iff_exists.mp (hw.serversLive srv ‹_›)
        exact hserver srv s w hs hw hK
      · exact ⟨hw, hK⟩

theorem wp_op {op : Op} (hclient : ClientRule good G F K J) (hserver : ServerRule good G K)
    (hcycle : ∀ w, w.Sound → K w →
      wp (systemContract good G F) updateConnectionStates (fun _ w' => w'.Sound ∧ K w') w)
    (hw : w.Sound) (hK : K w) :
    wp (systemContract good G F) op.routine (fun _ w' => w'.Sound ∧ K w') w := by
  refine wp_op_of hclient (fun srv s w hs hw hK => ?_) hcycle hw hK
  exact wp_mono (hserver.wp_handleServer (fun hw hK ht => hclient.elapse hw hK ht) hs hw hK rfl)
    fun _ _ ⟨hw', hK', _⟩ => ⟨hw', hK'⟩

/-- The invariant rule for the runs of the system from world `w₀` that meet `good`. -/
theorem holds_of_rules_from {w₀ : World} (hclient : ClientRule good G F K J)
    (hserver : ServerRule good G K)
    (hcycle : ∀ w, w.Sound → K w →
      wp (systemContract good G F) updateConnectionStates (fun _ w' => w'.Sound ∧ K w') w)
    (hsound : w₀.Sound) (hinit : K w₀)
    (hidle : ∀ e w w', w.Sound → K w → good none w e → Change e w w' → K w')
    (hyield : ∀ i e w w', G i w → good (some i) w e → e.apply w = some w' → G i w')
    {s : System} (hs : machine.Reachable good w₀ s) :
    Machine.Holds (systemContract good G F) (fun w => w.Sound ∧ K w) s := by
  refine Machine.Reachable.holds ⟨hsound, hinit⟩ ?_ ?_ (fun _ _ _ henv => henv) ?_ hs
  · exact fun op w ⟨hw, hK⟩ => wp_op hclient hserver hcycle hw hK
  · rintro e w w' ⟨hw, hK⟩ hgood happly
    have hchange := Ext.change hw.unheld happly
    exact ⟨hchange.sound hw, hidle e w w' hw hK hgood hchange⟩
  · rintro i w w' hG ⟨e, hgood, happly⟩
    exact hyield i e w w' hG hgood happly

/-- The invariant rule for the runs of the system that meet `good`. -/
theorem holds_of_rules (hclient : ClientRule good G F K J) (hserver : ServerRule good G K)
    (hcycle : ∀ w, w.Sound → K w →
      wp (systemContract good G F) updateConnectionStates (fun _ w' => w'.Sound ∧ K w') w)
    (hinit : K {})
    (hidle : ∀ e w w', w.Sound → K w → good none w e → Change e w w' → K w')
    (hyield : ∀ i e w w', G i w → good (some i) w e → e.apply w = some w' → G i w')
    {s : System} (hs : ReachableIf good s) :
    Machine.Holds (systemContract good G F) (fun w => w.Sound ∧ K w) s :=
  holds_of_rules_from hclient hserver hcycle World.sound_empty hinit hidle hyield hs

/-- Right after a step of the manager the guarantees hold, whether or not the steps of the
environment keep them. -/
theorem settles_of_ops
    (hop : ∀ (op : Op) w, w.Sound → K w →
      wp (systemContract good G F) op.routine (fun _ w' => w'.Sound ∧ K w') w)
    (hinit : K {})
    (hidle : ∀ e w w', w.Sound → K w → good none w e → Change e w w' → K w')
    {s s' : System} {l : machine.Label} (hs : ReachableIf good s) (hl : l.IsInternal)
    (hstep : machine.step s l = some s') :
    Machine.Holds (systemContract good G F) (fun w => w.Sound ∧ K w) s' := by
  have hop' : ∀ op w, w.Sound ∧ K w → wp (systemContract good G F) (machine.op op)
      (fun _ w' => w'.Sound ∧ K w') w := fun op w ⟨hw, hK⟩ => hop op w hw hK
  have hresumes : Machine.Resumes (systemContract good G F) (fun w => w.Sound ∧ K w) s := by
    refine Machine.Reachable.resumes ⟨World.sound_empty, hinit⟩ hop' ?_ (fun _ _ _ henv => henv) hs
    rintro e w w' ⟨hw, hK⟩ hgood happly
    have hchange := Ext.change hw.unheld happly
    exact ⟨hchange.sound hw, hidle e w w' hw hK hgood hchange⟩
  exact hresumes.settles hop' hstep hl

theorem settles_of_rules (hclient : ClientRule good G F K J) (hserver : ServerRule good G K)
    (hcycle : ∀ w, w.Sound → K w →
      wp (systemContract good G F) updateConnectionStates (fun _ w' => w'.Sound ∧ K w') w)
    (hinit : K {})
    (hidle : ∀ e w w', w.Sound → K w → good none w e → Change e w w' → K w')
    {s s' : System} {l : machine.Label} (hs : ReachableIf good s) (hl : l.IsInternal)
    (hstep : machine.step s l = some s') :
    Machine.Holds (systemContract good G F) (fun w => w.Sound ∧ K w) s' :=
  settles_of_ops (fun _ _ hw hK => wp_op hclient hserver hcycle hw hK) hinit hidle hs hl hstep

/-! ## Assertions about the world

An assertion may say the same of a world in every phase of a handler, and nothing about mutexes,
snapshots and outcomes. It is kept by the handlers and by the manager if it is kept by the steps
that change the objects.
-/

/-- The conditions under which `K` is kept by everything that changes the objects of a world. -/
structure KeptRule (G : Yield → World → Prop) (F : Fault → World → Prop) (K : World → Prop) :
    Prop where
  /-- The steps of handlers. -/
  handler {c : ClientId} {φ φ' : Phase} {w w' : World} : w.Sound → K w →
    HandlerMove c φ φ' w w' → K w'
  /-- The steps that anyone may take on a client. -/
  user {c : ClientId} {w w' : World} : w.Sound → K w → UserMove c w w' → K w'
  /-- The steps of the environment. -/
  change {e : Ext} {w w' : World} : w.Sound → K w → Change e w w' → K w'
  /-- The manager changes no descriptor of a server. -/
  update {srv : ServerId} {w : World} {s : Server} (s' : Server) : w.Sound → K w →
    w.servers srv = some s → s'.socket = s.socket → K (w.setServer srv s')
  /-- Nothing but the objects, the descriptors and the log matters. -/
  agrees {w w' : World} : K w → w.Agrees w' → K w'
  /-- What is known in callbacks. -/
  yield {i : Yield} {w : World} : w.Sound → K w → G i w
  /-- What is known when a client or a server is gone. -/
  staleClient {c : ClientId} {w : World} : K w → F (.staleClient c) w
  staleServer {srv : ServerId} {w : World} : K w → F (.staleServer srv) w

namespace KeptRule

theorem clientRule (h : KeptRule G F K) : ClientRule good G F K fun _ _ => K where
  idle := Iff.rfl
  step := fun hw hK hmove => h.handler hw hK hmove
  touch := fun hw hK hcl ht => h.user hw hK (.of_kept _ hcl ht (.touch _))
  elapse := fun _ hK ht => h.agrees hK (.elapse ht)
  stale := fun _ hK _ _ hagrees => h.staleClient (h.agrees hK hagrees)
  yield := fun _ _ hw hK _ => h.yield hw hK
  env := fun _ hw hK _ hchange => h.change hw hK hchange

theorem serverRule (h : KeptRule G F K) : ServerRule good G K where
  update := fun s' hw hK hs hsocket => h.update s' hw hK hs hsocket
  accept := fun hw hK hchange => h.change hw hK hchange
  yield := fun hw hK => h.yield hw hK
  env := fun hw hK _ hchange => h.change hw hK hchange

theorem phaseRule (h : KeptRule G F K) : PhaseRule good G F K fun _ _ => K where
  client := h.clientRule
  snapshot := fun _ hK _ => h.agrees hK ⟨rfl, rfl, rfl, rfl, rfl, rfl, le_rfl⟩
  next := fun _ hK _ => h.agrees hK ⟨rfl, rfl, rfl, rfl, rfl, rfl, le_rfl⟩
  gone := fun _ hK _ _ hagrees => h.staleClient (h.agrees hK hagrees)

/-- If the log does not matter either, then `K` is kept by whole cycles. -/
theorem cycleRule (h : KeptRule G F K)
    (hrecord : ∀ {w : World} (log : List ManagerEvent), K w → K { w with log }) :
    CycleRule good G F K fun _ _ => K :=
  { (h.phaseRule : PhaseRule good G F K fun _ _ => K) with
    server := h.serverRule
    record := hrecord
    serverSnapshot := fun _ hK _ => h.agrees hK ⟨rfl, rfl, rfl, rfl, rfl, rfl, le_rfl⟩
    serverNext := fun _ hK _ => h.agrees hK ⟨rfl, rfl, rfl, rfl, rfl, rfl, le_rfl⟩
    serverGone := fun _ hK _ _ hagrees => h.staleServer (h.agrees hK hagrees) }

/-- An assertion that is kept holds in every state of every run, in callbacks and after faults as
well. -/
theorem holds_reachable (h : KeptRule (fun _ w => w.Sound ∧ K w) (fun _ => K) K)
    (hrecord : ∀ {w : World} (log : List ManagerEvent), K w → K { w with log }) {w₀ : World}
    (hsound : w₀.Sound) (hinit : K w₀) {s : System} (hs : machine.Reachable good w₀ s) :
    K s.state := by
  have hholds := holds_of_rules_from h.clientRule h.serverRule
    (fun w hw hK => (h.cycleRule hrecord).wp_updateConnectionStates hw hK) hsound hinit
    (fun _ _ _ hw hK _ hchange => h.change hw hK hchange)
    (fun _ _ _ _ ⟨hw, hK⟩ _ happly =>
      have hchange := Ext.change hw.unheld happly
      ⟨hchange.sound hw, h.change hw hK hchange⟩) hs
  obtain ⟨w, control⟩ := s
  cases control with
  | idle => exact hholds.2
  | suspended i k => exact hholds.1.2
  | faulted f => exact hholds

end KeptRule

end AsyncTcpSock
