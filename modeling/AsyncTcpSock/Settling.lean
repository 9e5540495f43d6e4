import AsyncTcpSock.Rounds

/-!
# Closings are reported in the cycle

A client that has been closed is `DISCONNECTING` until the manager has delivered its `DISCONNECT`
callback. The last phase of a cycle looks at every registered client, so that no client is left in
that state when the cycle ends, wherever it was closed: before the cycle, by a handler or in a
callback. Only a `DISCONNECT` callback that closes a client may leave one to the next cycle.
-/

namespace AsyncTcpSock

open Reentrant Proc Manager

/-- Whether a call is a request to close the client. -/
def Call.closes : Call → Bool
  | close | abort => true
  | _ => false

/-- Whether user code asks to close a client. -/
def Ext.closes : Ext → Bool
  | call _ u => u.closes
  | _ => false

/-- No client is closed in a `DISCONNECT` callback. -/
def KeepsOpen : StepCondition := fun i _ e =>
  ∀ c last, i = some (.client c .disconnect last) → e.closes = false

section

variable [Configuration] {w₀ w w' : World} {c : ClientId} {cl cl' : Client}
  {rest : List ClientId}

/-! ## Calls that close nothing -/

omit [Configuration] in
theorem Attempt.state {ip : IPAddress} {port : UInt16} {ch : SocketChange} {success : Bool}
    (h : Attempt ip port cl ch cl' success) (hstate : cl'.state = .disconnecting) :
    cl.state = .disconnecting := by
  cases h with
  | refused => exact hstate
  | opened => cases hstate

/-- Such a call does not make a client `DISCONNECTING`. -/
theorem wp_call_state {C : Contract World Yield Fault} {u : Call} (hu : u.closes = false)
    (hcl : w.clients c = some cl) (hheld : Mutex.write c ∉ w.held) :
    wp C (u.routine c) (fun _ w' => ∀ cl', w'.clients c = some cl' →
      cl'.state = .disconnecting → cl.state = .disconnecting) w := by
  -- every call ends by putting the client back, so it is enough to compare the states
  have hsame {cl₁ : Client} {w' : World} {o : Outcomes} {t : Time}
      (hstate : cl₁.state = .disconnecting → cl.state = .disconnecting) (cl' : Client)
      (hcl' : (w'.put c cl₁ o t).clients c = some cl') (hcl'state : cl'.state = .disconnecting) :
      cl.state = .disconnecting := by
    rw [World.put_clients_self] at hcl'
    obtain rfl := Option.some.inj hcl'
    exact hstate hcl'state
  rw [Call.routine.eq_def, wp_bind, wp_log, hcl, Option.elim_some]
  cases u with
  | connectIP ip port =>
      rw [wp_bind]
      refine ClientBase.wp_connectIP (World.put_clients_self ..)
        fun ch cl₁ success w' o hattempt hd => ?_
      rw [wp_log, World.put_clients_self, Option.elim_some, World.put_put]
      exact hsame hattempt.state
  | connectHost host port =>
      rw [wp_bind]
      refine ClientBase.wp_connectHost (World.put_clients_self ..) (fun o => ?_) (fun o => ?_)
        fun ip ch cl₁ success w' o hattempt hd => ?_
      · rw [wp_log, World.put_elapse, World.put_clients_self, Option.elim_some, World.put_put]
        exact hsame id
      · -- the client waits for the resolver
        rw [wp_log, World.put_clients_self, Option.elim_some, World.put_put]
        exact hsame fun h => by cases h
      · rw [wp_log, World.put_clients_self, Option.elim_some, World.put_put]
        exact hsame hattempt.state
  | close => cases hu
  | abort => cases hu
  | add data flags =>
      rw [wp_bind]
      exact ClientBase.wp_add (World.put_clients_self ..) (by simpa using hheld)
        (fun _ => hsame id) fun _ _ _ _ _ _ => hsame id
  | send =>
      rw [wp_bind]
      exact ClientBase.wp_send (World.put_clients_self ..) (by simpa using hheld)
        (fun _ => hsame id) fun _ _ _ _ _ => hsame id
  | write data flags =>
      rw [wp_bind, ClientBase.write, wp_bind]
      refine ClientBase.wp_add (World.put_clients_self ..) (by simpa using hheld)
        (fun _ => hsame id) fun d o t hd hsize ht => ?_
      rw [wp_ite, if_neg hsize, wp_ite]
      split
      · rw [wp_bind]
        refine ClientBase.wp_send (World.put_clients_self ..) (by simpa using hheld)
          (fun _ => hsame id) fun io o _ _ _ => ?_
        rw [wp_ite]
        split <;> exact hsame id
      · exact hsame id
  | setAckTimeout timeout =>
      rw [wp_update, World.put_clients_self, Option.elim_some]
      exact hsame id
  | setRxTimeout timeout =>
      rw [wp_update, World.put_clients_self, Option.elim_some]
      exact hsame id

/-- A client that is `DISCONNECTING` after a step of the environment that closes nothing has been so
before. -/
theorem disconnecting_of_apply {e : Ext} (hheld : w.held = ∅) (hcloses : e.closes = false)
    (happly : e.apply w = some w') (hcl' : w'.clients c = some cl')
    (hstate : cl'.state = .disconnecting) :
    ∃ cl, w.clients c = some cl ∧ cl.state = .disconnecting := by
  have hnew {w₁ : World} {cl : Client} (hw₁ : w₁.clients = w.clients)
      (hcl : cl.state ≠ .disconnecting) (hcl' : (w₁.addClient cl).clients c = some cl') :
      w.clients c = some cl' := by
    simp only [World.addClient, World.allocate, hw₁] at hcl'
    by_cases hne : c = w₁.nextClient
    · -- a new client is not in that state
      rw [hne, Function.update_self] at hcl'
      exact absurd hstate (Option.some.inj hcl' ▸ hcl)
    · rwa [Function.update_of_ne hne] at hcl'
  cases e with
  | call c₁ u =>
      by_cases hne : c = c₁
      · subst hne
        refine exec_of_wp (Q := fun w' => ∀ cl', w'.clients c = some cl' →
          cl'.state = .disconnecting → ∃ cl, w.clients c = some cl ∧ cl.state = .disconnecting)
          ?_ happly cl' hcl' hstate
        cases hcl : w.clients c with
        | none =>
            rw [Call.routine.eq_def, wp_bind, wp_log, hcl]
            trivial
        | some cl =>
            -- the only calls that enter the state are the two that `hcloses` rules out
            exact wp_mono (wp_call_state hcloses hcl (by simp [hheld]))
              fun _ w' hw' cl' hcl' hstate => ⟨cl, rfl, hw' cl' hcl' hstate⟩
      · -- another client's call moves that client only
        cases Ext.change hheld happly with
        | call hmoves =>
            refine ⟨cl', ?_, hstate⟩
            rw [← hcl']
            clear happly hcl'
            induction hmoves with
            | refl => rfl
            | tail _ hmove ih => rw [ih, hmove.clients_of_ne hne]
  | dnsFound c₁ q answer =>
      obtain ⟨cl, hcl, hw'⟩ := Option.bind_eq_some_iff.mp happly
      split at hw'
      · -- an answer of the resolver is stored beside the state
        obtain rfl := Option.some.inj hw'
        by_cases hne : c = c₁
        · subst hne
          obtain rfl := Option.some.inj ((World.put_clients_self ..).symm.trans hcl')
          exact ⟨cl, hcl, hstate⟩
        · exact ⟨cl', (Function.update_of_ne hne ..).symm.trans hcl', hstate⟩
      · cases hw'
  | newClient =>
      cases Ext.change hheld happly with
      | newClient ht => exact ⟨cl', hnew rfl (fun h => by cases h) hcl', hstate⟩
  | newClientFrom socket =>
      cases Ext.change hheld happly with
      | newClientFrom ht₀ ht hsocket hd =>
          obtain ⟨d, e, f, rfl⟩ := hd.frame
          refine ⟨cl', hnew rfl ?_ hcl', hstate⟩
          -- a client built around a socket is connected, or closed when the set-up failed
          unfold Client.adopted
          split
          · intro h
            cases h
          · intro h
            cases h
  | deleteClient c₁ =>
      cases Ext.change hheld happly with
      | deleteClient _ =>
          simp only [World.removeClient, World.closeFd_clients] at hcl'
          by_cases hne : c = c₁
          · simp [hne] at hcl'
          · exact ⟨cl', (Function.update_of_ne hne ..).symm.trans hcl', hstate⟩
  | newServer addr port =>
      cases Ext.change hheld happly with
      | newServer _ => exact ⟨cl', hcl', hstate⟩
  | deleteServer srv =>
      cases Ext.change hheld happly with
      | deleteServer _ => exact ⟨cl', (World.closeFd_clients ..) ▸ hcl', hstate⟩
  | beginServer srv =>
      cases Ext.change hheld happly with
      | notBegun => exact ⟨cl', hcl', hstate⟩
      | begun _ _ hd =>
          obtain ⟨d, e, f, rfl⟩ := hd.frame
          exact ⟨cl', hcl', hstate⟩
  | endServer srv =>
      cases Ext.change hheld happly with
      | ended _ => exact ⟨cl', (World.closeFd_clients ..) ▸ hcl', hstate⟩
  | onClient srv handler =>
      cases Ext.change hheld happly with
      | onClient _ => exact ⟨cl', hcl', hstate⟩
  | outcomes o =>
      cases Ext.change hheld happly with
      | outcomes => exact ⟨cl', hcl', hstate⟩

/-! ## The last phase -/

/-- Only the clients `rest` may be `DISCONNECTING`. -/
def Unreported (rest : List ClientId) (c : ClientId) (cl : Client) : Prop :=
  cl.state = .disconnecting → c ∈ rest

/-- The contract of a cycle in which no `DISCONNECT` callback closes a client. -/
abbrev settling (w₀ : World) : Contract World Yield Fault :=
  roundContract KeepsOpen w₀ fun _ _ => True

omit [Configuration] in
/-- What is known of a client in every phase. -/
theorem World.Recorded.forget {R : ClientId → Client → Prop} (hw : w₀.Recorded R w) :
    w₀.Recorded (fun _ _ => True) w := hw.mono fun _ _ _ _ => trivial

theorem keptClient_true : KeptClient w₀ fun _ _ => True := ⟨fun _ _ => trivial, fun _ _ => trivial⟩

/-- A `DISCONNECT` callback keeps what is known of the last phase. -/
theorem disconnect_env {last : Bool} (hw : w₀.Recorded (Unreported rest) w)
    (hprocessing : w.clientsProcessing = rest)
    (henv : (settling w₀).env (.client c .disconnect last) w w') :
    w₀.Recorded (Unreported rest) w' ∧ w'.clientsProcessing = rest := by
  obtain ⟨e, hgood, happly⟩ := henv
  have hheld := hw.sound.unheld
  have hchange := Ext.change hheld happly
  refine ⟨?_, hchange.frame.clientsProcessing.trans hprocessing⟩
  refine (hw.forget.change_of_kept keptClient_true hchange).mono fun c' cl' hcl' _ hstate => ?_
  obtain ⟨cl, hcl, hstate⟩ := disconnecting_of_apply hheld (hgood _ _ rfl) happly hcl' hstate
  exact hw.clients hcl hstate

/-- `_processingDone` reports the next client. -/
theorem wp_report (hw : w₀.Recorded (Unreported (c :: rest)) w)
    (hprocessing : w.clientsProcessing = rest) :
    wp (settling w₀) (handle .done c)
      (fun _ w' => w₀.Recorded (Unreported rest) w' ∧ w'.clientsProcessing = rest) w := by
  have hother (c' : ClientId) (cl' : Client) (hne : c' ≠ c)
      (h : Unreported (c :: rest) c' cl') : Unreported rest c' cl' :=
    fun hstate => (List.mem_cons.mp (h hstate)).resolve_left hne
  cases hcl : w.clients c with
  | none => exact wp_handle_gone .done hcl fun w' hagrees => hw.forget.agrees hagrees
  | some cl =>
      have hactive := hw.lastActive hcl
      rw [handle, ClientBase.processingDone, wp_bind, wp_log, hcl, Option.elim_some, wp_bind,
        wp_this, World.put_clients_self, Option.elim_some, wp_ite]
      split
      · rw [wp_bind, wp_update, World.put_clients_self, Option.elim_some, World.put_put, invoke,
          wp_bind, wp_log, World.put_clients_self, Option.elim_some, World.put_put]
        -- the client is `DISCONNECTED` before its callback runs
        refine wp_yield_of_stable
          (fun w => w₀.Recorded (Unreported rest) w ∧ w.clientsProcessing = rest) ?_
          (fun _ _ hw henv => disconnect_env hw.1 hw.2 henv) ?_ fun _ hw => hw
        · exact ⟨hw.put _ hcl le_rfl hactive (fun h => by cases h) hother, hprocessing⟩
        · exact ⟨hw.put _ hcl le_rfl hactive trivial fun _ _ _ _ => trivial, trivial⟩
      · rename_i hstate
        exact ⟨hw.put _ hcl le_rfl hactive (fun h => absurd h hstate) hother, hprocessing⟩

omit [Configuration] in
/-- The last phase chooses every client of the list. -/
theorem wp_chooseAll {C : Contract World Yield Fault} {l : List ClientId}
    {Q : List ClientId → World → Prop} (hQ : Q l w) :
    wp C (chooseFrom (fun _ => return true) l) Q w := by
  induction l generalizing Q with
  | nil => exact hQ
  | cons c rest ih =>
      rw [chooseFrom, wp_bind, wp_pure, wp_ite, if_pos rfl, wp_bind]
      exact ih hQ

/-- The last phase leaves no client `DISCONNECTING`. -/
theorem wp_settle (hw : w₀.Recorded (fun _ _ => True) w) :
    wp (settling w₀) (clientPhase (fun _ => return true) (handle .done))
      (fun _ w' => w₀.Recorded (Unreported []) w') w := by
  refine wp_mono (wp_phase (fun rest w => w₀.Recorded (Unreported rest) w ∧
    w.clientsProcessing = rest) (wp_chooseAll ?_) ?_ hw.sound) fun _ w' hw' => hw'.1
  · -- all clients are registered
    have hall : w₀.Recorded (Unreported w.clientList) w :=
      hw.mono fun c cl hcl _ _ => hw.registry.clients c (by simp [hcl])
    exact ⟨w, rfl, hw.sound, hall.processing _, rfl⟩
  · rintro c rest w ⟨hw, hprocessing⟩
    exact ⟨hprocessing, wp_report (hw.processing rest) rfl⟩

/-! ## The cycle -/

theorem knownRule (r s : List ℤ) :
    RoundRule w₀ (fun _ _ => True) r s fun _ _ _ => True where
  known _ := trivial
  keptKnown := keptClient_true
  kept _ := keptClient_true
  served _ _ _ _ := trivial
  passed _ _ _ := trivial

/-- As long as no `DISCONNECT` callback closes a client, no client is `DISCONNECTING` when the cycle
ends, whatever user code does in the other callbacks. -/
theorem cycle_settles {good : StepCondition} (hs : ReachableIf good ⟨w, .idle⟩)
    (hcycle : Cycle KeepsOpen w w') (hcl : w'.clients c = some cl) :
    cl.state ≠ .disconnecting := by
  have hw : w.Recorded (fun _ _ => True) w := hs.recorded fun _ _ _ => trivial
  have hw' : w.Recorded (Unreported []) w' := hcycle.of_wp
    (wp_round_of (fun r s _ => knownRule r s) (fun _ _ => hw) fun _ _ _ _ hw₁ => wp_settle hw₁)
  exact fun hstate => absurd (hw'.clients hcl hstate) List.not_mem_nil

end

section

attribute [local instance] Configuration.esp32

/-- A client that has been closed before the cycle is not `DISCONNECTING` any more. -/
theorem cycle_settles_closed :
    ∃ w w' cl cl', Reachable ⟨w, .idle⟩ ∧ Cycle KeepsOpen w w' ∧ w.clients 0 = some cl ∧
      cl.state = .disconnecting ∧ w'.clients 0 = some cl' ∧ cl'.state ≠ .disconnecting := by
  obtain ⟨w, w', hs, hcycle, hbefore, hafter⟩ := exists_cycle
    [.ext (.newClientFrom 48), .ext (.call 0 .close)]
    (P := fun w w' => (w.clients 0).any (fun cl => cl.state = .disconnecting) = true ∧
      (w'.clients 0).isSome = true) (by decide +kernel)
  obtain ⟨cl, hcl, hstate⟩ := (Option.any_eq_true _ _).mp hbefore
  obtain ⟨cl', hcl'⟩ := Option.isSome_iff_exists.mp hafter
  exact ⟨w, w', cl, cl', hs, hcycle, hcl, of_decide_eq_true hstate, hcl',
    cycle_settles hs hcycle hcl'⟩

end

end AsyncTcpSock
