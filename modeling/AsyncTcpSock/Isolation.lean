import AsyncTcpSock.Continuity
import AsyncTcpSock.Refinement
import AsyncTcpSock.Registry

/-!
# Connections are independent

The manager serves all connections in one task, and a callback of one client may use any other
client. Still a client is changed by nothing but its own handlers, the calls that are made on it and
the answers to its queries. There is one exception: the poll phase marks all clients that are due as
active before it serves the first of them.

- `Client.Spared`: nothing has happened to a client but for that mark.
- `Apart`: as long as no handler of a client has been entered it is spared.
- `clients_independent`: so it is in every run that leaves the client alone.
-/

namespace AsyncTcpSock

open Reentrant

/-- The step of user code or of the lwIP thread is about something else than client `c`. -/
def Ext.Spares (c : ClientId) : Ext → Prop
  | call c' _ | deleteClient c' | dnsFound c' _ _ => c' ≠ c
  | _ => True

instance (c : ClientId) (e : Ext) : Decidable (e.Spares c) := by
  unfold Ext.Spares
  split <;> infer_instance

/-- The client is what it was, and may have been marked as active. -/
def Client.Spared (cl₀ cl : Client) : Prop :=
  cl = { cl₀ with lastActive := cl.lastActive } ∧ cl₀.lastActive ≤ cl.lastActive

/-- A handler of the client has been entered. -/
def Client.Handled (cl₀ cl : Client) : Prop :=
  (handlersOf cl₀.history).length < (handlersOf cl.history).length

/-- Client `c`, which was `cl₀`, is alive, and it has been spared unless a handler of it has been
entered. The condition `busy` says that one is running now. -/
structure Apart (c : ClientId) (cl₀ : Client) (busy : Prop) (w : World) : Prop where
  /-- The name of the client is not used again. -/
  constructed : c < w.nextClient
  /-- The client is alive, and has been spared unless a handler has been entered for it. -/
  client : ∃ cl, w.clients c = some cl ∧ cl.lastActive ≤ w.clock ∧
    (cl₀.Handled cl ∨ ¬busy ∧ cl₀.Spared cl)

/-- What is known of client `c`, which was `cl₀`, wherever control is: it is alive, and it has been
spared unless a handler of it has been entered. -/
def SparedUnlessHandled (c : ClientId) (cl₀ : Client) (w : World) : Prop :=
  ∃ cl, w.clients c = some cl ∧ (cl₀.Handled cl ∨ cl₀.Spared cl)

/-- A client that is spared stays so when it is marked as active. -/
theorem Client.Spared.mark {cl₀ cl : Client} {t : Time} (h : cl₀.Spared cl)
    (ht : cl.lastActive ≤ t) : cl₀.Spared { cl with lastActive := t } := by
  obtain ⟨heq, hle⟩ := h
  refine ⟨?_, hle.trans ht⟩
  rw [heq]

namespace Apart

variable {c : ClientId} {cl₀ : Client} {busy busy' : Prop} {w w' : World}

/-- What does not concern the client. -/
theorem of_clients (hw : Apart c cl₀ busy w) (hclients : w'.clients c = w.clients c)
    (hnext : w.nextClient ≤ w'.nextClient) (hclock : w.clock ≤ w'.clock) :
    Apart c cl₀ busy w' := by
  obtain ⟨cl, hcl, hactive, hcase⟩ := hw.client
  exact ⟨hw.constructed.trans_le hnext, cl, hclients.trans hcl, hactive.trans hclock, hcase⟩

/-- To be spared it takes that no handler is running. -/
theorem mono (hw : Apart c cl₀ busy w) (h : busy' → busy) : Apart c cl₀ busy' w := by
  obtain ⟨cl, hcl, hactive, hcase⟩ := hw.client
  exact ⟨hw.constructed, cl, hcl, hactive, hcase.imp_right fun ⟨hbusy, hspared⟩ =>
    ⟨fun h' => hbusy (h h'), hspared⟩⟩

/-- What is left of this when all that is known is that the clients have stayed what they were. -/
theorem agrees (hw : Apart c cl₀ busy w) (h : w.Agrees w') : SparedUnlessHandled c cl₀ w' := by
  obtain ⟨cl, hcl, -, hcase⟩ := hw.client
  exact ⟨cl, (congrFun h.clients c).trans hcl, hcase.imp_right And.right⟩

/-- A client is marked as active, this one or another. -/
theorem touch {c' : ClientId} {cl' : Client} {o : Outcomes} {t : Time}
    (hw : Apart c cl₀ False w) (hcl' : w.clients c' = some cl') (ht : w.clock ≤ t) :
    Apart c cl₀ False (w.put c' { cl' with lastActive := t } o t) := by
  by_cases hne : c' = c
  · subst hne
    obtain ⟨cl, hcl, hactive, hcase⟩ := hw.client
    obtain rfl := Option.some.inj (hcl'.symm.trans hcl)
    refine ⟨hw.constructed, _, World.put_clients_self .., le_rfl, ?_⟩
    exact hcase.imp id fun ⟨hbusy, hspared⟩ => ⟨hbusy, hspared.mark (hactive.trans ht)⟩
  · exact hw.of_clients (World.put_clients_of_ne _ _ _ _ (Ne.symm hne)) le_rfl ht

variable [Configuration]

/-- The client is entered by a handler, or its handler goes on. -/
theorem step {c' : ClientId} {φ φ' : Phase} (hw : Apart c cl₀ (c' = c ∧ φ ≠ .idle) w)
    (hmove : HandlerMove c' φ φ' w w') : Apart c cl₀ (c' = c ∧ φ' ≠ .idle) w' := by
  have hframe := hmove.frame
  by_cases hne : c' = c
  · subst hne
    obtain ⟨cl, hcl, hactive, hcase⟩ := hw.client
    obtain ⟨o, hcl', ht, hstep, hd⟩ := hmove
    -- the client itself makes a step, which only an entered handler can do
    obtain rfl := Option.some.inj (hcl.symm.trans hcl')
    refine ⟨hw.constructed.trans_le hframe.nextClient, _, World.put_clients_self .., ?_⟩
    by_cases hφ : φ = .idle
    · -- an idle client can do nothing but be entered
      subst hφ
      cases hstep with
      | enter h _ =>
          have hentered : handlersOf (cl.enter h).history = h :: handlersOf cl.history := rfl
          refine ⟨hactive.trans ht, .inl ?_⟩
          rw [Client.Handled, hentered, List.length_cons]
          rcases hcase with hhandled | ⟨-, heq, -⟩
          · exact Nat.lt_succ_of_lt hhandled
          · rw [heq]
            exact Nat.lt_succ_self _
      | notPolled _ _ hφ => rcases hφ with h | h <;> cases h
    · obtain ⟨hcontinues, hactive'⟩ := hstep.continues hφ (hactive.trans ht)
      refine ⟨hactive', .inl ?_⟩
      rw [Client.Handled, hcontinues.handlers]
      exact hcase.resolve_right fun h => h.1 ⟨rfl, hφ⟩
  · -- the step of another client leaves this one where it was
    have hother : Apart c cl₀ (c' = c ∧ φ' ≠ .idle) w := hw.mono fun h => absurd h.1 hne
    exact hother.of_clients (hmove.clients_of_ne (Ne.symm hne)) hframe.nextClient hframe.clock

variable {e : Ext}

/-- The environment leaves the client alone. -/
theorem change (hw : Apart c cl₀ busy w) (he : e.Spares c) (h : Change e w w') :
    Apart c cl₀ busy w' := by
  refine hw.of_clients ?_ h.frame.nextClient h.frame.clock
  -- a new client gets a number of its own
  have hnew {w₁ : World} {cl : Client} (hw₁ : w₁.clients = w.clients)
      (hnext : w₁.nextClient = w.nextClient) :
      (w₁.addClient cl).clients c = w.clients c := by
    simp only [World.addClient, World.allocate, hw₁, hnext]
    exact Function.update_of_ne hw.constructed.ne ..
  cases h with
  | call hmoves =>
      clear hw hnew
      induction hmoves with
      | refl => rfl
      | tail _ hmove ih => rw [hmove.clients_of_ne he.symm, ih]
  | newClient _ => exact hnew rfl rfl
  | newClientFrom _ _ _ hd =>
      obtain ⟨d, e, f, rfl⟩ := hd.frame
      exact hnew rfl rfl
  | deleteClient _ =>
      simp only [World.removeClient, World.closeFd_clients]
      exact Function.update_of_ne he.symm ..
  | deleteServer _ => exact congrFun (World.closeFd_clients ..) c
  | begun _ _ hd =>
      obtain ⟨d, e, f, rfl⟩ := hd.frame
      rfl
  | ended _ => exact congrFun (World.closeFd_clients ..) c
  | dnsFound hmove => exact hmove.clients_of_ne he.symm
  | _ => rfl

end Apart

section

variable [Configuration] {c : ClientId} {cl₀ : Client} {w₀ : World} {s : System}

/-- User code and the lwIP thread leave client `c` alone. -/
abbrev sparing (c : ClientId) : StepCondition := fun _ _ e => e.Spares c

/-- What is known in callbacks. -/
def ApartAt (c : ClientId) (cl₀ : Client) (_ : Yield) (w : World) : Prop :=
  w.Sound ∧ Apart c cl₀ False w

/-- What the handlers of clients do to client `c`. -/
theorem apartClientRule :
    ClientRule (sparing c) (ApartAt c cl₀) (fun _ => SparedUnlessHandled c cl₀)
      (Apart c cl₀ False) (fun c' φ => Apart c cl₀ (c' = c ∧ φ ≠ .idle)) where
  idle := ⟨fun hw => hw.mono False.elim, fun hw => hw.mono fun h => h.2 rfl⟩
  step := fun _ hw hmove => hw.step hmove
  touch := fun _ hw hcl ht => hw.touch hcl ht
  elapse := fun _ hw ht => hw.of_clients rfl le_rfl ht
  stale := fun _ hw _ _ hagrees => hw.agrees hagrees
  yield := fun _ _ hsound hw _ => ⟨hsound, hw.mono False.elim⟩
  env := fun _ _ hw he hchange => hw.change he hchange

/-- What the handlers of servers do to it. -/
theorem apartServerRule :
    ServerRule (sparing c) (ApartAt c cl₀) (Apart c cl₀ False) where
  update := fun _ _ hw _ _ => hw.of_clients rfl le_rfl le_rfl
  accept := fun {socket _ _} _ hw hchange => hw.change (e := .newClientFrom socket) trivial hchange
  yield := fun hsound hw => ⟨hsound, hw⟩
  env := fun _ hw he hchange => hw.change he hchange

/-- What a whole cycle does to it. -/
theorem apartCycleRule :
    CycleRule (sparing c) (ApartAt c cl₀) (fun _ => SparedUnlessHandled c cl₀)
      (Apart c cl₀ False) (fun c' φ => Apart c cl₀ (c' = c ∧ φ ≠ .idle)) where
  client := apartClientRule
  server := apartServerRule
  record := fun _ hw => hw.of_clients rfl le_rfl le_rfl
  snapshot := fun _ hw _ => hw.of_clients rfl le_rfl le_rfl
  next := fun _ hw _ => hw.of_clients rfl le_rfl le_rfl
  gone := fun _ hw _ _ hagrees => hw.agrees hagrees
  serverSnapshot := fun _ hw _ => hw.of_clients rfl le_rfl le_rfl
  serverNext := fun _ hw _ => hw.of_clients rfl le_rfl le_rfl
  serverGone := fun _ hw _ _ hagrees => hw.agrees hagrees

/-- A client is changed by its own handlers, by the calls that are made on it and by the answers to
its queries, and otherwise only by the mark of the poll phase. In every run, of whole cycles and of
single handlers, in which user code and the lwIP thread leave the client alone, it stays alive; and
until a handler of its own is entered it stays exactly as it was but for the time of its last
activity, which is not set back, whatever the manager and user code do with other connections. -/
theorem clients_independent {good : StepCondition} (hw₀ : ReachableIf good ⟨w₀, .idle⟩)
    (hcl₀ : w₀.clients c = some cl₀) (hs : machine.Reachable (sparing c) w₀ s) :
    ∃ cl, s.state.clients c = some cl ∧
      (handlersOf cl.history = handlersOf cl₀.history →
        cl = { cl₀ with lastActive := cl.lastActive } ∧ cl₀.lastActive ≤ cl.lastActive) := by
  obtain ⟨hsound, -⟩ := hw₀.registry nofun
  have hconstructed : c < w₀.nextClient := by
    by_contra hle
    rw [hsound.clientsFresh c (not_lt.mp hle)] at hcl₀
    cases hcl₀
  -- the client has not been handled yet, and is as it was
  have hinit : Apart c cl₀ False w₀ := by
    obtain ⟨φ, hrun⟩ := hw₀.clientRun hcl₀
    exact ⟨hconstructed, cl₀, hcl₀, hrun.lastActive, .inr ⟨id, rfl, le_rfl⟩⟩
  have hholds := holds_of_rules_from apartClientRule apartServerRule
    (fun w hw hK => apartCycleRule.wp_updateConnectionStates hw hK) hsound hinit
    (fun _ _ _ _ hw he hchange => hw.change he hchange)
    (fun _ _ _ _ ⟨hsound, hw⟩ he happly =>
      have hchange := Ext.change hsound.unheld happly
      ⟨hchange.sound hsound, hw.change he hchange⟩) hs
  -- at a yield the invariant holds of the world the callback sees
  obtain ⟨cl, hcl, hcase⟩ : SparedUnlessHandled c cl₀ s.state := by
    obtain ⟨w, control⟩ := s
    cases control with
    | idle => exact hholds.2.agrees .refl
    | suspended i k => exact hholds.1.2.agrees .refl
    | faulted f => exact hholds
  refine ⟨cl, hcl, fun hhandlers => ?_⟩
  rcases hcase with hhandled | hspared
  · rw [Client.Handled, hhandlers] at hhandled
    exact absurd hhandled (lt_irrefl _)
  · exact hspared

end

section

attribute [local instance] Configuration.esp32

/-- A poll interval has passed. In the `POLL` callback of the first of two clients the second one
has been marked as active, and nothing else has happened to it. -/
theorem clients_independent_polled :
    ∃ w₀ s cl₀ cl, Reachable ⟨w₀, .idle⟩ ∧ machine.Reachable (sparing 1) w₀ s ∧
      s.control.place = some (.client 0 .poll true) ∧ w₀.clients 1 = some cl₀ ∧
      s.state.clients 1 = some cl ∧ cl₀.lastActive = 0 ∧ cl.lastActive = 125000000 ∧
      cl = { cl₀ with lastActive := cl.lastActive } := by
  -- two connections are handed over, and the clock reads a POLL interval later in the cycle
  obtain ⟨⟨w₀, control⟩, hw₀, hidle, hbefore, hafter⟩ := exists_reachable
    (P := fun s => s.control.isIdle = true ∧
      (s.state.clients 1).any (fun cl => cl.lastActive = 0 ∧ cl.history = []) = true ∧
      (machine.runIf (sparing 1) s [.start .cycle]).any (fun s' =>
        decide (s'.control.place = some (.client 0 .poll true) ∧
          (s'.state.clients 1).any (fun cl =>
            cl.lastActive = 125000000 ∧ cl.history = []) = true)) = true)
    [.ext (.newClientFrom 48), .ext (.newClientFrom 49),
      .ext (.outcomes { ticks := [125000000] })] (by decide +kernel)
  obtain rfl : control = .idle := Control.isIdle_iff.mp hidle
  obtain ⟨cl₀, hcl₀, hcl₀'⟩ := (Option.any_eq_true _ _).mp hbefore
  obtain ⟨hactive₀, hhistory₀⟩ := of_decide_eq_true hcl₀'
  obtain ⟨s, hs, hs'⟩ := (Option.any_eq_true _ _).mp hafter
  obtain ⟨hplace, hcl⟩ := of_decide_eq_true hs'
  obtain ⟨cl, hcl, hcl'⟩ := (Option.any_eq_true _ _).mp hcl
  obtain ⟨hactive, hhistory⟩ := of_decide_eq_true hcl'
  have hreachable : machine.Reachable (sparing 1) w₀ s := .of_runIf .init hs
  obtain ⟨cl₁, hcl₁, hspared⟩ := clients_independent hw₀ hcl₀ hreachable
  obtain rfl := Option.some.inj (hcl.symm.trans hcl₁)
  refine ⟨w₀, s, cl₀, cl, hw₀, hreachable, hplace, hcl₀, hcl, hactive₀, hactive, ?_⟩
  exact (hspared (by rw [hhistory, hhistory₀])).1

end

end AsyncTcpSock
