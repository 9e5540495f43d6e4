import AsyncTcpSock.CycleRules

/-!
# Every client lives the life of a client

The system refines the abstract model of a single client: in every configuration of every run, each
client object is one that `ClientRun` may have come to, and between two pieces of code of the
manager all clients are idle. Invariants of `ClientRun` are invariants of the system.
-/

namespace AsyncTcpSock

open Reentrant

variable [Configuration]

/-- Client `c` may have come to what it is, in phase `φ`, and the other clients are idle. While a
handler is running for `c`, no new client gets its name. -/
structure Tracked (c : ClientId) (φ : Phase) (w : World) : Prop where
  /-- Client `c` has come to phase `φ`, and the others are idle. -/
  run : ∀ c' cl, w.clients c' = some cl → ClientRun w.clock cl (if c' = c then φ else .idle)
  /-- A client whose handler is running has been constructed. -/
  known : φ ≠ .idle → c < w.nextClient

/-- All clients are idle. -/
def AllIdle (w : World) : Prop := ∀ c cl, w.clients c = some cl → ClientRun w.clock cl .idle

/-- All clients are in some phase. -/
def AllTracked (w : World) : Prop := ∀ c cl, w.clients c = some cl → ∃ φ, ClientRun w.clock cl φ

variable {c : ClientId} {φ φ' : Phase} {w w' : World} {e : Ext}

/-- In phase `idle` no client is special. -/
theorem tracked_idle : Tracked c .idle w ↔ AllIdle w := by
  constructor
  · intro h c' cl hcl
    simpa using h.run c' cl hcl
  · intro h
    exact ⟨fun c' cl hcl => by simpa using h c' cl hcl, fun hne => absurd rfl hne⟩

/-- Every client is in a phase of its own. -/
theorem Tracked.allTracked (h : Tracked c φ w) : AllTracked w :=
  fun c' cl hcl => ⟨_, h.run c' cl hcl⟩

/-- Worlds that agree have the same clients. -/
theorem AllTracked.agrees (h : AllTracked w) (hagrees : w.Agrees w') : AllTracked w' := by
  intro c cl hcl
  rw [hagrees.clients] at hcl
  obtain ⟨φ, hrun⟩ := h c cl hcl
  exact ⟨φ, hrun.wait hagrees.clock⟩

/-- Idle clients are in a phase. -/
theorem AllIdle.allTracked (h : AllIdle w) : AllTracked w :=
  fun c cl hcl => ⟨.idle, h c cl hcl⟩

/-- Clients that stay as they are stay idle. -/
theorem AllIdle.of_clients (h : AllIdle w) (hclients : w'.clients = w.clients)
    (hclock : w.clock ≤ w'.clock) : AllIdle w' := by
  intro c cl hcl
  rw [hclients] at hcl
  exact (h c cl hcl).wait hclock

/-- A step of a handler of client `c` is a step of its run, and time passes for the others. -/
theorem Tracked.step (h : Tracked c φ w) (hw : w.Sound) (hmove : HandlerMove c φ φ' w w') :
    Tracked c φ' w' where
  run c' cl' hcl' := by
    have hclock := hmove.frame.clock
    by_cases hne : c' = c
    · subst hne
      rw [if_pos rfl]
      obtain ⟨o, hcl, ht, hstep, hd⟩ := hmove
      obtain rfl := Option.some.inj ((World.put_clients_self ..).symm.trans hcl')
      have hrun := h.run c' _ hcl
      rw [if_pos rfl] at hrun
      exact hrun.step ht (.handler hstep)
    · rw [hmove.clients_of_ne hne] at hcl'
      have hrun := h.run c' cl' hcl'
      rw [if_neg hne] at hrun ⊢
      exact hrun.wait hclock
  known _ := by
    refine lt_of_lt_of_le ?_ hmove.frame.nextClient
    -- the client of the step is alive, and only numbers below the next one have been given out
    by_contra hle
    have hlive := hmove.wasSome
    rw [hw.clientsFresh c (not_lt.mp hle)] at hlive
    cases hlive

/-- The environment keeps clients in phases that yield. -/
theorem Tracked.change (h : Tracked c φ w) (hφ : φ.yields = true) (hchange : Change e w w') :
    Tracked c φ w' where
  run c' cl' hcl' := by
    obtain ⟨cl, hcl, hrun⟩ | ⟨hnew, hrun⟩ := hchange.userRun hcl'
    · refine (h.run c' cl hcl).user ?_ hrun
      split
      · exact hφ
      · rfl
    · by_cases hidle : c' = c ∧ φ ≠ .idle
      · rw [← hidle.1, hnew] at h
        exact absurd (h.known hidle.2) (lt_irrefl _)
      · split
        · rwa [not_not.mp fun hne => hidle ⟨‹_›, hne⟩]
        · exact hrun
  known hne := (h.known hne).trans_le hchange.frame.nextClient

/-- The environment keeps idle clients idle. -/
theorem AllIdle.change (h : AllIdle w) (hchange : Change e w w') : AllIdle w' :=
  (tracked_idle (c := 0)).mp ((tracked_idle.mpr h).change rfl hchange)

/-! ## The system -/

/-- What is known of the clients in a callback. -/
def TrackedAt (i : Yield) (w : World) : Prop :=
  match i with
  | .client c _ _ => ∃ φ, φ.yields = true ∧ Tracked c φ w
  | .accept _ _ => AllIdle w

/-- In a callback every client is in some phase. -/
theorem TrackedAt.allTracked {i : Yield} (h : TrackedAt i w) : AllTracked w := by
  cases i with
  | client c cb last =>
      obtain ⟨φ, -, hφ⟩ := h
      exact hφ.allTracked
  | accept srv c => exact AllIdle.allTracked h

variable {good : StepCondition}

/-- The handlers of a client lead it from phase to phase. -/
theorem trackedClientRule :
    ClientRule good (fun i w => w.Sound ∧ TrackedAt i w) (fun _ => AllTracked) AllIdle Tracked where
  idle := tracked_idle
  step := fun hw h hmove => h.step hw hmove
  touch := fun {c} w cl o t _ h hcl ht => by
    have hmove : UserMove c w _ := .of_kept o hcl ht (.touch cl)
    intro c' cl' hcl'
    obtain ⟨cl₀, hcl₀, hrun⟩ := hmove.userRun hcl'
    exact (h c' cl₀ hcl₀).user rfl hrun
  elapse := fun _ h ht => h.of_clients rfl ht
  stale := fun _ h _ _ hagrees => h.allTracked.agrees hagrees
  yield := fun _ hφ hw h _ => ⟨hw, _, hφ, h⟩
  env := fun hφ _ h _ hchange => h.change hφ hchange

/-- `_sockIsReadable` of a server keeps the clients idle. -/
theorem trackedServerRule : ServerRule good (fun i w => w.Sound ∧ TrackedAt i w) AllIdle where
  update := fun _ _ h _ _ => h.of_clients rfl le_rfl
  accept := fun _ h hchange => h.change hchange
  yield := fun hw h => ⟨hw, h⟩
  env := fun _ h _ hchange => h.change hchange

/-- A cycle keeps the clients idle. -/
theorem trackedCycleRule :
    CycleRule good (fun i w => w.Sound ∧ TrackedAt i w) (fun _ => AllTracked) AllIdle Tracked where
  client := trackedClientRule
  server := trackedServerRule
  record := fun _ h => h.of_clients rfl le_rfl
  snapshot := fun _ h _ => h.of_clients rfl le_rfl
  next := fun _ h _ => h.of_clients rfl le_rfl
  gone := fun _ h _ _ hagrees => h.allTracked.agrees hagrees
  serverSnapshot := fun _ h _ => h.of_clients rfl le_rfl
  serverNext := fun _ h _ => h.of_clients rfl le_rfl
  serverGone := fun _ h _ _ hagrees => h.allTracked.agrees hagrees

/-- The system refines the model of a single client. -/
theorem ReachableIf.tracked {s : System} (hs : ReachableIf good s) :
    Machine.Holds (systemContract good (fun i w => w.Sound ∧ TrackedAt i w) fun _ => AllTracked)
      (fun w => w.Sound ∧ AllIdle w) s := by
  refine holds_of_rules trackedClientRule trackedServerRule
    (fun w hw h => trackedCycleRule.wp_updateConnectionStates hw h) (fun c cl hcl => by cases hcl)
    (fun _ _ _ _ h _ hchange => h.change hchange) ?_ hs
  rintro i e w w' ⟨hw, h⟩ - happly
  have hchange := Ext.change hw.unheld happly
  refine ⟨hchange.sound hw, ?_⟩
  cases i with
  | client c cb last =>
      obtain ⟨φ, hφ, h⟩ := h
      exact ⟨φ, hφ, h.change hφ hchange⟩
  | accept srv c => exact AllIdle.change h hchange

/-- Every client of every reachable state has come to what it is by a run of its own. -/
theorem ReachableIf.clientRun {s : System} {cl : Client} (hs : ReachableIf good s)
    (hcl : s.state.clients c = some cl) : ∃ φ, ClientRun s.state.clock cl φ := by
  have h := hs.tracked
  obtain ⟨w, control⟩ := s
  cases control with
  | idle => exact h.2.allTracked c cl hcl
  | suspended i k => exact h.1.2.allTracked c cl hcl
  | faulted f => exact h c cl hcl

/-- Between two pieces of code of the manager, its client is idle. -/
theorem ReachableIf.clientRun_idle {s : System} {cl : Client} (hs : ReachableIf good s)
    (hidle : s.control = .idle) (hcl : s.state.clients c = some cl) :
    ClientRun s.state.clock cl .idle := by
  have h := hs.tracked
  rw [Machine.Holds, hidle] at h
  exact h.2 c cl hcl

/-! ## Callbacks -/

/-- At time `t` a step of a handler in phase `φ` delivers a callback of a client, which is `cl`
before the step and `cl'` when the callback is invoked. -/
inductive Delivery (t : Time) : Client → Phase → Callback → Client → Prop where
  | connect (cl : Client) : cl.isOpen = true →
      Delivery t cl (.running .writeable) .connect ((cl.establish t).log (.callback .connect))
  | sent (cl : Client) (next : Continuation) (stats : WriteStats) (rest : List WriteStats) :
      Delivery t cl (.notifying next stats rest) (.sent stats.length stats.delay)
        (cl.log (.callback (.sent stats.length stats.delay)))
  | timeout (cl : Client) (ackTimeout : Time) (first : WriteQueueBuffer)
      (rest : List WriteQueueBuffer) : cl.state = .connected → cl.ackTimeout = some ackTimeout →
      cl.writeQueue = first :: rest → ackTimeout ≤ t - first.queuedAt → first.writtenAt = 0 →
      Delivery t cl .polling (.timeout (delayMillis (t - first.queuedAt)))
        (({ cl with ackTimeoutSignaled := true } : Client).log
          (.callback (.timeout (delayMillis (t - first.queuedAt)))))
  | poll (cl : Client) : cl.state = .connected →
      Delivery t cl .polling .poll (cl.log (.callback .poll))
  | recv (cl : Client) (data : List UInt8) : cl.isOpen = true →
      Delivery t cl (.running .readable) (.recv data)
        (({ cl with rxLastPacket := t } : Client).log (.callback (.recv data)))
  | disconnect (cl : Client) : cl.state = .disconnecting →
      Delivery t cl (.running .done) .disconnect
        (({ cl with state := .disconnected } : Client).log (.callback .disconnect))
  | error (cl cl' : Client) (φ : Phase) (e : ℤ) : Delivery t cl φ (.error e) cl'

/-- A step of a handler that ends in a callback delivers it. -/
theorem HandlerStep.delivery {t₀ t : Time} {cl cl' : Client} {ch : SocketChange} {cb : Callback}
    {past : List Event} (h : HandlerStep t₀ t cl φ ch cl' φ')
    (hhistory : cl'.history = .callback cb :: past) (hpast : cl.history <:+ past) :
    Delivery t cl φ cb cl' := by
  cases h with
  | established _ hopen =>
      cases hhistory
      exact .connect cl hopen
  | notified next stats rest =>
      cases hhistory
      exact .sent cl next stats rest
  | ackTimeout ackTimeout first rest hstate hack _ hqueue hdue hwritten =>
      cases hhistory
      exact .timeout cl ackTimeout first rest hstate hack hqueue hdue hwritten
  | polled hstate =>
      cases hhistory
      exact .poll cl hstate
  | received data hopen =>
      cases hhistory
      exact .recv cl data hopen
  | disconnected hstate =>
      cases hhistory
      exact .disconnect cl hstate
  | attemptFailed | writeFailed | readFailed | unresolved =>
      cases hhistory
      exact .error ..
  | ready | announced | nothingToWrite | touched | notPolled | rxRenewed | nothingToRead | poll |
    nothingDone =>
      -- nothing is delivered
      have hle := hpast.length_le
      rw [hhistory] at hle
      exact absurd hle (Nat.not_succ_le_self _)
  | pass activity io _ _ _ _ =>
      -- a pass ends with a call, or with its own event
      rcases List.eq_nil_or_concat (processQueue io cl.writeQueue).calls with h | ⟨calls, call, h⟩
      · simp [Client.afterPass, h] at hhistory
      · simp [Client.afterPass, h] at hhistory
  | resolved _ hattempt => cases hattempt <;> cases hhistory
  | _ => cases hhistory

/-- `P` is established by the step that delivers a callback, of a client with a run of its own. -/
def Establishes (P : Callback → Time → Client → Prop) : Prop :=
  ∀ {t₀ t : Time} {cl cl' : Client} {φ φ' : Phase} {cb : Callback}, ClientRun t₀ cl φ → t₀ ≤ t →
    ClientRun t cl' φ' → Delivery t cl φ cb cl' → P cb t cl'

/-- `P` is known when a callback of a client is invoked. -/
def DeliveredAt (P : Callback → Time → Client → Prop) : Yield → World → Prop
  | .client c cb _, w => ∃ cl, w.clients c = some cl ∧ P cb w.clock cl
  | .accept .., _ => True

variable {P : Callback → Time → Client → Prop}

/-- The handlers of clients. -/
theorem deliveryClientRule (hP : Establishes P) :
    ClientRule good (DeliveredAt P) (fun _ => AllTracked) AllIdle Tracked :=
  { trackedClientRule with
    yield := fun {c φ w} cb hφ hw hJ hdelivered => by
      obtain ⟨φ₀, w₀, cl₀, cl, past, hJ₀, hmove, hcl₀, hcl, hhistory, hpast⟩ := hdelivered
      obtain ⟨o, hcl₀', ht, hstep, hd⟩ := hmove
      obtain rfl := Option.some.inj (hcl₀.symm.trans hcl₀')
      obtain rfl := Option.some.inj ((World.put_clients_self ..).symm.trans hcl)
      have hrun := hJ₀.run c cl₀ hcl₀
      rw [if_pos rfl] at hrun
      exact ⟨_, hcl, hP hrun ht (hrun.step ht (.handler hstep)) (hstep.delivery hhistory hpast)⟩ }

/-- The handlers of servers deliver no callback of a client. -/
theorem deliveryServerRule : ServerRule good (DeliveredAt P) AllIdle :=
  { (trackedServerRule : ServerRule good _ AllIdle) with yield := fun _ _ => trivial }

/-- Whole cycles. -/
theorem deliveryCycleRule (hP : Establishes P) :
    CycleRule good (DeliveredAt P) (fun _ => AllTracked) AllIdle Tracked :=
  { (trackedCycleRule : CycleRule good _ _ AllIdle Tracked) with
    client := deliveryClientRule hP
    server := deliveryServerRule }

/-- What the delivering step establishes is known whenever a callback of a client is invoked. -/
theorem exists_delivered (hP : Establishes P) {s s' : System} {l : machine.Label} {cb : Callback}
    {last : Bool} (hs : Reachable s) (hstep : machine.step s l = some s') (hl : l.IsInternal)
    (hcallback : s'.control.place = some (.client c cb last)) :
    ∃ cl, s'.state.clients c = some cl ∧ P cb s'.state.clock cl := by
  have h := settles_of_rules (deliveryClientRule hP) deliveryServerRule
    (fun w hw hK => (deliveryCycleRule hP).wp_updateConnectionStates hw hK)
    (fun c cl hcl => by cases hcl) (fun _ _ _ _ hK _ hchange => hK.change hchange) hs hl hstep
  obtain ⟨w, control⟩ := s'
  obtain ⟨k, rfl⟩ := Control.place_eq_some.mp hcallback
  exact h.1

end AsyncTcpSock
