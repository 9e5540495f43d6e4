import AsyncTcpSock.Rounds

/-!
# The schedule of the worker

What the order of the phases means for a client: its handlers are entered in turn
(`handlers_in_turn`), every cycle serves it with all that is due (`cycle_serves`), and it is polled
at most once in a poll interval (`polls_spaced`).
-/

namespace AsyncTcpSock

open Reentrant

/-- The handlers that had been entered for client `c` in world `w`; a client that is constructed
later begins with none. -/
def handlersBefore (w : World) (c : ClientId) : List Handler :=
  (w.clients c).elim [] fun cl => handlersOf cl.history

/-- How often `_sockPoll` has been entered in a history. -/
def polls (history : List Event) : ℕ := (handlersOf history).count .poll

section

variable [Configuration] {w₀ : World} {r s : List ℤ} {c : ClientId} {cl cl' : Client}

/-! ## Order -/

/-- Since world `w₀` the handlers `served` of client `c` have been entered, newest first, each in
its turn. -/
structure TakenTurns (w₀ : World) (c : ClientId) (served : List Handler) (cl : Client) :
    Prop where
  /-- The handlers `served` have been entered since, and no others. -/
  history : handlersOf cl.history = served ++ handlersBefore w₀ c
  /-- Each of them has come in its turn. -/
  inTurn : served.Pairwise fun h h' => h'.rank < h.rank

/-- In a cycle that has begun in world `w₀` a client has `n` phases behind it, and its handlers have
been entered in turn. -/
def TurnsTaken (w₀ : World) (n : ℕ) (c : ClientId) (cl : Client) : Prop :=
  ∃ served, TakenTurns w₀ c served cl ∧ (∀ h ∈ served, h.rank < n) ∧
    (4 < n → (w₀.clients c).isSome = true → .done ∈ served)

namespace TakenTurns

variable {served : List Handler}

omit [Configuration] in
theorem continues (h : TakenTurns w₀ c served cl) (hcontinues : cl.Continues cl') :
    TakenTurns w₀ c served cl' :=
  ⟨hcontinues.handlers.trans h.history, h.inTurn⟩

/-- A client that is constructed in the cycle. -/
theorem constructed {t : Time} (hc : w₀.clients c = none) (h : Client.Constructed t cl) :
    TakenTurns w₀ c [] cl := by
  refine ⟨?_, .nil⟩
  rw [h.history, handlersBefore, hc]
  rfl

omit [Configuration] in
/-- The handler of a later phase is entered. -/
theorem enter {h : Handler} (hcl : TakenTurns w₀ c served cl)
    (hlt : ∀ h' ∈ served, h'.rank < h.rank) : TakenTurns w₀ c (h :: served) (cl.enter h) :=
  ⟨congrArg (h :: ·) hcl.history, List.pairwise_cons.mpr ⟨hlt, hcl.inTurn⟩⟩

end TakenTurns

theorem turnsTakenRule (hw₀ : w₀.Sound) (r s : List ℤ) :
    RoundRule w₀ (fun c cl => ∃ served, TakenTurns w₀ c served cl) r s (TurnsTaken w₀) where
  known := fun ⟨served, h, _⟩ => ⟨served, h⟩
  keptKnown :=
    { constructed := fun hc hnew => ⟨[], .constructed (hw₀.clientsFresh _ hc) hnew⟩
      continues := fun ⟨served, h⟩ hcontinues => ⟨served, h.continues hcontinues⟩ }
  kept := fun n => by
    refine ⟨fun hc hnew => ?_, fun ⟨served, h, hrest⟩ hcontinues =>
      ⟨served, h.continues hcontinues, hrest⟩⟩
    have hnone := hw₀.clientsFresh _ hc
    refine ⟨[], .constructed hnone hnew, by simp, fun _ hsome => ?_⟩
    rw [hnone] at hsome
    cases hsome
  served := by
    rintro h t c cl₀ cl₁ cl - ⟨served, hserved, hlt, -⟩ hchosen hcontinues
    have hcl := (hserved.continues hchosen.continues).continues hcontinues
    refine ⟨h :: served, hcl.enter hlt, fun h' hmem => ?_, fun hn _ => ?_⟩
    · rcases List.mem_cons.mp hmem with rfl | hmem
      · exact Nat.lt_succ_self _
      · exact Nat.lt_succ_of_lt (hlt h' hmem)
    · -- only `_processingDone` belongs to the last phase
      cases h with
      | done => exact List.mem_cons_self
      | _ => exact absurd hn (by decide)
  passed := by
    rintro h t c cl - ⟨served, hserved, hlt, -⟩ hpassed
    refine ⟨served, hserved, fun h' hmem => Nat.lt_succ_of_lt (hlt h' hmem), fun hn _ => ?_⟩
    cases hpassed <;> exact absurd hn (by decide)

/-- In every cycle the handlers of a client are entered in turn: whenever a callback runs and when
the cycle has ended, those that have been entered since it began come in the order of the phases,
each at most once and none after `_processingDone`; and a cycle that has ended has entered
`_processingDone` for every client that was there before and is still there. -/
theorem handlers_in_turn {good : StepCondition} {w : World} {s : System}
    (hw : ReachableIf good ⟨w, .idle⟩) (hs : DuringCycle good w s)
    (hcl : s.state.clients c = some cl) :
    ∃ served, handlersOf cl.history = served ++ handlersBefore w c ∧
      served.Pairwise (fun h h' => h'.rank < h.rank) ∧
      (s.control = .idle → (w.clients c).isSome = true → .done ∈ served) := by
  have hinit : w.Recorded (TurnsTaken w 0) w := hw.recorded fun c cl hcl =>
    ⟨[], ⟨by simp [handlersBefore, hcl], .nil⟩, by simp, by omega⟩
  have hrule := turnsTakenRule hinit.sound
  have hholds := holds_during_round (R := fun _ _ => TurnsTaken w) (fun r s _ => hrule r s)
    (hrule [] []).keptKnown (fun _ _ => hinit) hs
  obtain ⟨w', control⟩ := s
  cases control with
  | idle =>
      obtain ⟨-, -, -, hw'⟩ := hholds
      obtain ⟨served, hserved, -, hdone⟩ := hw'.clients hcl
      exact ⟨served, hserved.history, hserved.inTurn, fun _ => hdone (by decide)⟩
  | _ =>
      obtain ⟨⟨served, hserved⟩, -⟩ := known_of_holds (fun w' ⟨r, s, _, hw'⟩ =>
        hw'.mono fun c cl _ h => (hrule r s).known h) hholds hcl
      exact ⟨served, hserved.history, hserved.inTurn, nofun⟩

/-! ## Service -/

/-- What a client that was `cl₀` when the cycle began has come to with `n` phases behind it, in
which the handlers `served` have been entered, newest first. -/
structure Served (w₀ : World) (r s : List ℤ) (n : ℕ) (served : List Handler) (cl₀ cl : Client) :
    Prop where
  /-- The client is the one that it was. -/
  persists : cl₀.Persists cl
  /-- The handlers `served` have been entered, and no others. -/
  history : handlersOf cl.history = served ++ handlersOf cl₀.history
  /-- Each of them has come in its turn. -/
  inTurn : served.Pairwise (fun h h' => h'.rank < h.rank)
  /-- The handlers to come have not been entered. -/
  bounded : ∀ h ∈ served, h.rank < n
  /-- `_sockIsWriteable` is for the sockets that are ready for writing. -/
  writeable : 0 < n → (.writeable ∈ served ↔ cl₀.socket ∈ s)
  /-- `_sockIsReadable` is for the sockets that are ready for reading. -/
  readable : 1 < n → cl₀.isOpen = true → closuresOf cl.history = closuresOf cl₀.history →
    (.readable ∈ served ↔ cl₀.socket ∈ r)
  /-- An answer is processed, or is still to be. -/
  answered : cl₀.dnsFinished = true →
    .delayedConnect ∈ served ∨ n ≤ 2 ∧ cl.dnsFinished = true
  /-- The client has been active within a poll interval. -/
  polled : 3 < n → w₀.clock ≤ cl.lastActive + milliseconds Configuration.pollInterval
  /-- `_processingDone` comes last. -/
  done : 4 < n → .done ∈ served

namespace Served

variable {n : ℕ} {served : List Handler} {cl₀ cl₁ : Client} {h : Handler} {t : Time}

/-- A cycle begins. -/
theorem refl (hn : n = 0) (cl : Client) : Served w₀ r s n [] cl cl where
  persists := .refl cl
  history := rfl
  inTurn := .nil
  bounded := by simp
  writeable := by omega
  readable := by omega
  answered := fun hdns => .inr ⟨by omega, hdns⟩
  polled := by omega
  done := by omega

theorem continues (hcl : Served w₀ r s n served cl₀ cl) (h : cl.Continues cl') :
    Served w₀ r s n served cl₀ cl' where
  persists := hcl.persists.trans h.toPersists
  history := h.handlers.trans hcl.history
  inTurn := hcl.inTurn
  bounded := hcl.bounded
  writeable := hcl.writeable
  readable := fun hn hopen hclosures =>
    hcl.readable hn hopen (hcl.persists.closures_eq h.toPersists hclosures)
  answered := fun hdns => (hcl.answered hdns).imp_right fun ⟨hn, hdns⟩ => ⟨hn, h.dnsFinished hdns⟩
  polled := fun hn => (hcl.polled hn).trans (Nat.add_le_add_right h.lastActive _)
  done := hcl.done

/-- A handler that the phases so far do not have is not among those entered. -/
theorem not_mem (hcl : Served w₀ r s h.rank served cl₀ cl) : h ∉ served :=
  fun hmem => absurd (hcl.bounded h hmem) (lt_irrefl _)

/-- A phase passes over the client. -/
theorem passed (hcl : Served w₀ r s h.rank served cl₀ cl) (hbegin : h.rank = 0 → cl = cl₀)
    (ht : w₀.clock ≤ t) (hpassed : Passed r s t h cl) :
    Served w₀ r s (h.rank + 1) served cl₀ cl where
  persists := hcl.persists
  history := hcl.history
  inTurn := hcl.inTurn
  bounded := fun h' hmem => Nat.lt_succ_of_lt (hcl.bounded h' hmem)
  writeable := by
    intro _
    cases hpassed with
    | writeable hnot =>
        rw [hbegin rfl] at hnot
        exact iff_of_false hcl.not_mem hnot
    | _ => exact hcl.writeable (by decide)
  readable := by
    intro hn hopen hclosures
    cases hpassed with
    | writeable => exact absurd hn (by decide)
    | readable hnot =>
        rw [hcl.persists.socket hopen hclosures] at hnot
        exact iff_of_false hcl.not_mem hnot
    | _ => exact hcl.readable (by decide) hopen hclosures
  answered := by
    intro hdns
    rcases hcl.answered hdns with hmem | ⟨hn, hdns'⟩
    · exact .inl hmem
    · cases hpassed with
      | delayedConnect hnot => exact absurd (hdns'.symm.trans hnot) nofun
      | poll => exact absurd hn (by decide)
      | _ => exact .inr ⟨by decide, hdns'⟩
  polled := by
    intro hn
    cases hpassed with
    | poll hlt => exact ht.trans hlt.le
    | _ => exact absurd hn (by decide)
  done := by
    intro hn
    cases hpassed <;> exact absurd hn (by decide)

/-- A phase serves the client. -/
theorem enter (hcl : Served w₀ r s h.rank served cl₀ cl) (hbegin : h.rank = 0 → cl = cl₀)
    (ht : w₀.clock ≤ t) (hchosen : Chosen r s t h cl cl₁) (hcontinues : cl₁.Continues cl') :
    Served w₀ r s (h.rank + 1) (h :: served) cl₀ (cl'.enter h) := by
  have hcl' := (hcl.continues hchosen.continues).continues hcontinues
  have hlast := Client.Persists.enter cl' h
  exact
    { persists := hcl'.persists.trans hlast
      history := congrArg (h :: ·) hcl'.history
      inTurn := List.pairwise_cons.mpr ⟨hcl.bounded, hcl.inTurn⟩
      bounded := by
        intro h' hmem
        rcases List.mem_cons.mp hmem with rfl | hmem
        · exact Nat.lt_succ_self _
        · exact Nat.lt_succ_of_lt (hcl.bounded h' hmem)
      writeable := by
        intro _
        cases hchosen with
        | writeable hmem =>
            rw [hbegin rfl] at hmem
            exact iff_of_true List.mem_cons_self hmem
        | _ => simpa using hcl.writeable (by decide)
      readable := by
        intro hn hopen hclosures
        cases hchosen with
        | writeable => exact absurd hn (by decide)
        | readable hmem =>
            have hsame := hcl.persists.closures_eq (hcontinues.toPersists.trans hlast) hclosures
            rw [hcl.persists.socket hopen hsame] at hmem
            exact iff_of_true List.mem_cons_self hmem
        | _ =>
            have hsame := hcl'.persists.closures_eq hlast hclosures
            simpa using hcl'.readable (by decide) hopen hsame
      answered := by
        intro hdns
        rcases hcl'.answered hdns with hmem | ⟨hn, hdns'⟩
        · exact .inl (List.mem_cons_of_mem h hmem)
        · cases hchosen with
          | delayedConnect => exact .inl List.mem_cons_self
          | poll => exact absurd hn (by decide)
          | done => exact absurd hn (by decide)
          | _ => exact .inr ⟨by decide, by simp [Client.enter, hdns']⟩
      polled := by
        intro hn
        cases hchosen with
        | poll _ => exact ht.trans (Nat.le_add_right_of_le hcontinues.lastActive)
        | done => exact hcl'.polled (by decide)
        | _ => exact absurd hn (by decide)
      done := by
        intro hn
        cases hchosen with
        | done => exact List.mem_cons_self
        | _ => exact absurd hn (by decide) }

end Served

/-- The clients that were there when the cycle began have been served by its first `n` phases. -/
def ServedBy (w₀ : World) (r s : List ℤ) (n : ℕ) (c : ClientId) (cl : Client) : Prop :=
  ∀ cl₀, w₀.clients c = some cl₀ →
    (n = 0 → cl = cl₀) ∧ ∃ served, Served w₀ r s n served cl₀ cl

theorem servedRule (hw₀ : w₀.Sound) (r s : List ℤ) :
    RoundRule w₀ (fun _ _ => True) r s (ServedBy w₀ r s) where
  known := fun _ => trivial
  keptKnown := ⟨fun _ _ => trivial, fun _ _ => trivial⟩
  kept := fun n => by
    refine ⟨fun hlt _ cl₀ hcl₀ => ?_, fun h hcontinues cl₀ hcl₀ => ?_⟩
    · -- a client that is constructed in the cycle was not there before
      rw [hw₀.clientsFresh _ hlt] at hcl₀
      cases hcl₀
    · obtain ⟨-, served, hserved⟩ := h cl₀ hcl₀
      exact ⟨nofun, served, hserved.continues hcontinues⟩
  served := by
    intro h t c cl cl₁ cl' ht hcl hchosen hcontinues cl₀ hcl₀
    obtain ⟨hbegin, served, hserved⟩ := hcl cl₀ hcl₀
    exact ⟨nofun, _, hserved.enter hbegin ht hchosen hcontinues⟩
  passed := by
    intro h t c cl ht hcl hpassed cl₀ hcl₀
    obtain ⟨hbegin, served, hserved⟩ := hcl cl₀ hcl₀
    exact ⟨nofun, _, hserved.passed hbegin ht hpassed⟩

/-- A cycle serves a client with everything that is due, in the order of the phases and each handler
at most once: `_sockIsWriteable` if and only if the socket of the client is watched for writing and
found ready, `_sockIsReadable`, for a client that has been open when the cycle began and that the
cycle does not close, if and only if its socket is found ready for reading, `_sockDelayedConnect` if
there is a DNS answer, and `_processingDone` always. No client has been inactive for longer than a
poll interval when the cycle began and is still so when it ends. -/
theorem cycle_serves {good : StepCondition} {w w' : World} (hs : ReachableIf good ⟨w, .idle⟩)
    (hcycle : Cycle good w w') (hcl : w.clients c = some cl) (hcl' : w'.clients c = some cl') :
    ∃ served, handlersOf cl'.history = served ++ handlersOf cl.history ∧
      served.Pairwise (fun h h' => h'.rank < h.rank) ∧ .done ∈ served ∧
      (.writeable ∈ served ↔ w.WatchesWrite cl.socket ∧ cl.socket ∈ w.readiness.2) ∧
      (cl.isOpen = true → closuresOf cl'.history = closuresOf cl.history →
        (.readable ∈ served ↔ cl.socket ∈ w.readiness.1)) ∧
      (cl.dnsFinished = true → .delayedConnect ∈ served) ∧
      w.clock ≤ cl'.lastActive + milliseconds Configuration.pollInterval := by
  have hw (r s : List ℤ) : w.Recorded (ServedBy w r s 0) w :=
    hs.recorded fun c cl hcl cl₀ hcl₀ => by
      obtain rfl := Option.some.inj (hcl.symm.trans hcl₀)
      exact ⟨fun _ => rfl, [], .refl rfl cl⟩
  obtain ⟨r, s, hselects, hw'⟩ :=
    hcycle.of_wp (wp_round (fun r s _ => servedRule (hw r s).sound r s) hw)
  obtain ⟨-, served, hserved⟩ := hw'.clients hcl' cl hcl
  refine ⟨served, hserved.history, hserved.inTurn, hserved.done (by decide), ?_, ?_, ?_,
    hserved.polled (by decide)⟩
  · rw [hserved.writeable (by decide), hselects.write]
  · intro hopen hclosures
    -- an open client has a socket, and every socket is in the read set
    have hwatched : w.WatchesRead cl.socket :=
      ⟨by simpa [Client.isOpen] using hopen, .inl ⟨c, cl, hcl, rfl⟩⟩
    rw [hserved.readable (by decide) hopen hclosures, hselects.read, and_iff_right hwatched]
  · intro hdns
    exact (hserved.answered hdns).resolve_right fun h => absurd h.1 (by decide)

/-! ## Polling -/

/-- Since world `w₀` a poll interval has gone by with every poll of a client. -/
def Spaced (w₀ : World) (c : ClientId) (cl : Client) : Prop :=
  ∀ cl₀, w₀.clients c = some cl₀ → ∃ k, polls cl.history = polls cl₀.history + k ∧
    cl₀.lastActive + k * milliseconds Configuration.pollInterval ≤ cl.lastActive

theorem Spaced.continues (h : Spaced w₀ c cl) (hcontinues : cl.Continues cl') :
    Spaced w₀ c cl' := by
  intro cl₀ hcl₀
  obtain ⟨k, hpolls, hactive⟩ := h cl₀ hcl₀
  exact ⟨k, by rw [polls, hcontinues.handlers, ← polls, hpolls],
    hactive.trans hcontinues.lastActive⟩

theorem spacedRule (hw₀ : w₀.Sound) (r s : List ℤ) :
    RoundRule w₀ (Spaced w₀) r s fun _ => Spaced w₀ := by
  have hkept : KeptClient w₀ (Spaced w₀) := by
    refine ⟨fun hlt _ cl₀ hcl₀ => ?_, fun h hcontinues => h.continues hcontinues⟩
    rw [hw₀.clientsFresh _ hlt] at hcl₀
    cases hcl₀
  refine ⟨id, hkept, fun _ => hkept, ?_, fun _ h _ => h⟩
  intro h t c cl cl₁ cl' _ hcl hchosen hcontinues cl₀ hcl₀
  obtain ⟨k, hpolls, hactive⟩ := hcl cl₀ hcl₀
  have hhandlers : handlersOf cl'.history = handlersOf cl.history :=
    (hchosen.continues.trans hcontinues).handlers
  have hentered : polls (cl'.enter h).history = [h].count .poll + polls cl.history := by
    rw [polls, polls, ← hhandlers, ← List.count_append]
    rfl
  rw [hentered, hpolls]
  cases hchosen with
  | poll hdue =>
      -- the poll has been due, and the client has been marked as active
      refine ⟨k + 1, by simp; omega, ?_⟩
      rw [Nat.succ_mul, ← Nat.add_assoc]
      exact (Nat.add_le_add_right hactive _).trans (hdue.trans hcontinues.lastActive)
  | _ => exact ⟨k, by simp, hactive.trans hcontinues.lastActive⟩

/-- The manager polls a client at most once in a poll interval: when the worker has polled it `k`
times since a state in which no cycle was running, at least `k` intervals have passed since the
client was last active then. -/
theorem polls_spaced {w₀ : World} {good : StepCondition} {s : System} {cl₀ : Client}
    (hw₀ : ReachableIf good ⟨w₀, .idle⟩) (hs : WorkerReachable good w₀ s)
    (hcl₀ : w₀.clients c = some cl₀) (hcl : s.state.clients c = some cl) :
    ∃ k, polls cl.history = polls cl₀.history + k ∧
      cl₀.lastActive + k * milliseconds Configuration.pollInterval ≤ cl.lastActive ∧
      cl.lastActive ≤ s.state.clock := by
  have hinit : w₀.Recorded (Spaced w₀) w₀ := hw₀.recorded fun c cl hcl cl₀ hcl₀ => by
    obtain rfl := Option.some.inj (hcl.symm.trans hcl₀)
    exact ⟨0, rfl, by simp⟩
  have hrule := spacedRule hinit.sound
  have hholds := holds_of_rounds hrule (fun _ _ h => h) (hrule [] []).keptKnown hinit hs
  obtain ⟨hspaced, hactive⟩ :=
    known_of_holds (fun _ hw => hw.mono fun _ _ _ h => h) hholds hcl
  obtain ⟨k, hpolls, hk⟩ := hspaced cl₀ hcl₀
  exact ⟨k, hpolls, hk, hactive⟩

end

section

attribute [local instance] Configuration.esp32

/-- A client asks for a connection; its socket is going to be ready for reading and writing, and a
poll interval is going to pass. -/
def requested : List Ext :=
  [.newClient,
    .outcomes {
      sockets := [48], connects := [none], cycles := [([48], [48])], sockopts := [.socketError 0]
      reads := [.read [1]], ticks := [0, 0, 0, 125000000] },
    .call 0 (.connectIP (.v4 1) 80)]

/-- The handlers of a cycle that begins then. -/
def entered : List Handler := [.done, .poll, .readable, .writeable]

/-- All but one of the handlers are entered in the cycle. -/
theorem handlers_in_turn_requested :
    ∃ w w' cl', Reachable ⟨w, .idle⟩ ∧ DuringCycle anyStep w ⟨w', .idle⟩ ∧
      w'.clients 0 = some cl' ∧ handlersOf cl'.history = entered ∧
      ∃ served, handlersOf cl'.history = served ++ handlersBefore w 0 ∧
        served.Pairwise (fun h h' => h'.rank < h.rank) ∧ .done ∈ served := by
  obtain ⟨w, w', hw, hcycle, hbefore, hafter⟩ := exists_cycle (requested.map .ext)
    (P := fun w w' => (w.clients 0).isSome = true ∧
      (w'.clients 0).any (fun cl => handlersOf cl.history = entered) = true) (by decide +kernel)
  have hduring : DuringCycle anyStep w ⟨w', .idle⟩ := hcycle.within
  obtain ⟨cl', hcl', hentered⟩ := (Option.any_eq_true _ _).mp hafter
  obtain ⟨served, hserved, hturn, hdone⟩ := handlers_in_turn hw hduring hcl'
  exact ⟨w, w', cl', hw, hduring, hcl', of_decide_eq_true hentered, served, hserved, hturn,
    hdone rfl hbefore⟩

/-- The cycle serves the client with what is due. -/
theorem cycle_serves_requested :
    ∃ w w' cl cl', Reachable ⟨w, .idle⟩ ∧ Cycle anyStep w w' ∧ w.clients 0 = some cl ∧
      w'.clients 0 = some cl' ∧ handlersOf cl.history = [] ∧ handlersOf cl'.history = entered ∧
      ∃ served, handlersOf cl'.history = served ++ handlersOf cl.history ∧
        (.writeable ∈ served ↔ w.WatchesWrite cl.socket ∧ cl.socket ∈ w.readiness.2) ∧
        w.clock ≤ cl'.lastActive + milliseconds 125 := by
  obtain ⟨w, w', hs, hcycle, hbefore, hafter⟩ := exists_cycle (requested.map .ext)
    (P := fun w w' => (w.clients 0).any (fun cl => handlersOf cl.history = []) = true ∧
      (w'.clients 0).any (fun cl => handlersOf cl.history = entered) = true) (by decide +kernel)
  obtain ⟨cl, hcl, hnone⟩ := (Option.any_eq_true _ _).mp hbefore
  obtain ⟨cl', hcl', hentered⟩ := (Option.any_eq_true _ _).mp hafter
  obtain ⟨served, hserved, -, -, hwriteable, -, -, hactive⟩ := cycle_serves hs hcycle hcl hcl'
  exact ⟨w, w', cl, cl', hs, hcycle, hcl, hcl', of_decide_eq_true hnone,
    of_decide_eq_true hentered, served, hserved, hwriteable, hactive⟩

/-- The client is polled once, a poll interval after it has been constructed. -/
theorem polls_spaced_requested :
    ∃ w₀ s cl₀ cl, Reachable ⟨w₀, .idle⟩ ∧ WorkerReachable anyStep w₀ s ∧
      w₀.clients 0 = some cl₀ ∧ s.state.clients 0 = some cl ∧ polls cl.history = 1 ∧
      ∃ k, polls cl.history = polls cl₀.history + k ∧
        cl₀.lastActive + k * milliseconds 125 ≤ cl.lastActive ∧
        cl.lastActive ≤ s.state.clock := by
  obtain ⟨w₀, s, hw₀, hs, hbefore, hafter⟩ := exists_workerReachable_from (requested.map .ext)
    [.start (), .resume, .resume, .resume]
    (P := fun w₀ s => (w₀.clients 0).isSome = true ∧
      (s.state.clients 0).any (fun cl => polls cl.history = 1) = true) (by decide +kernel)
  obtain ⟨cl₀, hcl₀⟩ := Option.isSome_iff_exists.mp hbefore
  obtain ⟨cl, hcl, hpolls⟩ := (Option.any_eq_true _ _).mp hafter
  exact ⟨w₀, s, cl₀, cl, hw₀, hs, hcl₀, hcl, of_decide_eq_true hpolls,
    polls_spaced hw₀ hs hcl₀ hcl⟩

end

end AsyncTcpSock
