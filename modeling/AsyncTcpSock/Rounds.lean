import AsyncTcpSock.Continuity
import AsyncTcpSock.Refinement
import AsyncTcpSock.Selecting
import AsyncTcpSock.Worker

/-!
# The rule for rounds

A cycle offers five phases to every client, in a fixed order, and each of them chooses the clients
it is concerned with before it serves the first of them. `RoundRule` says what the choice and the
service of each phase do to an assertion about single clients that is indexed by the number of
phases gone by; everything else that happens to a client in a cycle is `Client.Continues`.
`wp_round` is the rule for a whole cycle, `holds_during_round` the one for a cycle in progress, and
`holds_of_rounds` the one for the runs of the worker.
-/

namespace AsyncTcpSock

open Reentrant Proc Manager

/-! ## Assertions about single clients -/

/-- Since world `w₀` the objects have stayed in order, and `R` holds of every live client. -/
structure World.Recorded (w₀ : World) (R : ClientId → Client → Prop) (w : World) : Prop where
  /-- The world is sound. -/
  sound : w.Sound
  /-- The lists name the objects. -/
  registry : w.Registry
  /-- No name is given up. -/
  nextClient : w₀.nextClient ≤ w.nextClient
  /-- The clock does not go back. -/
  clock : w₀.clock ≤ w.clock
  /-- Activities have passed. -/
  lastActive {c : ClientId} {cl : Client} : w.clients c = some cl → cl.lastActive ≤ w.clock
  /-- `R` holds of the clients. -/
  clients {c : ClientId} {cl : Client} : w.clients c = some cl → R c cl

/-- `R` holds of the clients that are constructed after world `w₀`, and nothing but a handler can
make it false. -/
structure KeptClient [Configuration] (w₀ : World) (R : ClientId → Client → Prop) : Prop where
  /-- `R` holds of a client constructed since. -/
  constructed {c : ClientId} {cl : Client} {t : Time} : w₀.nextClient ≤ c →
    Client.Constructed t cl → R c cl
  /-- `R` is kept while no handler is entered. -/
  continues {c : ClientId} {cl cl' : Client} : R c cl → cl.Continues cl' → R c cl'

namespace World.Recorded

variable {w₀ w w' : World} {R R' : ClientId → Client → Prop} {c : ClientId} {cl cl' : Client}

theorem mono (hw : w₀.Recorded R w)
    (hR : ∀ c cl, w.clients c = some cl → R c cl → R' c cl) : w₀.Recorded R' w where
  sound := hw.sound
  registry := hw.registry
  nextClient := hw.nextClient
  clock := hw.clock
  lastActive := hw.lastActive
  clients hcl := hR _ _ hcl (hw.clients hcl)

/-- What keeps the clients and lets time pass. -/
theorem of_clients (hw : w₀.Recorded R w) (hsound : w'.Sound) (hregistry : w'.Registry)
    (hclients : w'.clients = w.clients) (hnext : w.nextClient ≤ w'.nextClient)
    (hclock : w.clock ≤ w'.clock) : w₀.Recorded R w' where
  sound := hsound
  registry := hregistry
  nextClient := hw.nextClient.trans hnext
  clock := hw.clock.trans hclock
  lastActive hcl := (hw.lastActive (hclients ▸ hcl)).trans hclock
  clients hcl := hw.clients (hclients ▸ hcl)

theorem elapse (hw : w₀.Recorded R w) (o : Outcomes) {t : Time} (ht : w.clock ≤ t) :
    w₀.Recorded R (w.elapse o t) :=
  hw.of_clients (hw.sound.elapse o t) { hw.registry with } rfl le_rfl ht

theorem record (hw : w₀.Recorded R w) (log : List ManagerEvent) :
    w₀.Recorded R { w with log } :=
  hw.of_clients { hw.sound with } { hw.registry with } rfl le_rfl le_rfl

theorem processing (hw : w₀.Recorded R w) (rest : List ClientId) :
    w₀.Recorded R { w with clientsProcessing := rest } :=
  hw.of_clients { hw.sound with } { hw.registry with } rfl le_rfl le_rfl

theorem serversProcessing (hw : w₀.Recorded R w) (rest : List ServerId) :
    w₀.Recorded R { w with serversProcessing := rest } :=
  hw.of_clients { hw.sound with } { hw.registry with } rfl le_rfl le_rfl

theorem setServer (hw : w₀.Recorded R w) {srv : ServerId} {s : Server} (s' : Server)
    (hs : w.servers srv = some s) : w₀.Recorded R (w.setServer srv s') :=
  hw.of_clients (hw.sound.setServer s' hs) (hw.registry.setServer s' hs) rfl le_rfl le_rfl

/-- What is recorded of the clients is true of every world that agrees on them. -/
theorem agrees (hw : w₀.Recorded R w) (h : w.Agrees w') (c : ClientId) (cl : Client)
    (hcl : w'.clients c = some cl) : R c cl ∧ cl.lastActive ≤ w'.clock := by
  rw [h.clients] at hcl
  exact ⟨hw.clients hcl, (hw.lastActive hcl).trans h.clock⟩

/-- Live clients have been constructed. -/
theorem lt_nextClient (hw : w₀.Recorded R w) (hcl : w.clients c = some cl) :
    c < w.nextClient := by
  by_contra hle
  rw [hw.sound.clientsFresh c (not_lt.mp hle)] at hcl
  cases hcl

/-- One client is replaced. -/
theorem put (hw : w₀.Recorded R w) (o : Outcomes) {t : Time} (hcl : w.clients c = some cl)
    (ht : w.clock ≤ t) (hactive : cl'.lastActive ≤ t) (hself : R' c cl')
    (hother : ∀ c' cl', c' ≠ c → R c' cl' → R' c' cl') : w₀.Recorded R' (w.put c cl' o t) := by
  have hmove : Move (fun _ _ _ _ _ => True) c w (w.put c cl' o t) := .of_kept o hcl ht trivial
  have hcase {c' : ClientId} {cl₁ : Client} (hcl₁ : (w.put c cl' o t).clients c' = some cl₁) :
      cl₁.lastActive ≤ t ∧ R' c' cl₁ := by
    by_cases hne : c' = c
    · subst hne
      rw [World.put_clients_self] at hcl₁
      obtain rfl := Option.some.inj hcl₁
      exact ⟨hactive, hself⟩
    · rw [World.put_clients_of_ne _ _ _ _ hne] at hcl₁
      exact ⟨(hw.lastActive hcl₁).trans ht, hother c' cl₁ hne (hw.clients hcl₁)⟩
  exact ⟨hmove.sound hw.sound, hw.registry.move hmove, hw.nextClient, hw.clock.trans ht,
    fun hcl₁ => (hcase hcl₁).1, fun hcl₁ => (hcase hcl₁).2⟩

/-- One client takes a step. -/
theorem move {S : Time → Time → Client → SocketChange → Client → Prop} (hw : w₀.Recorded R w)
    (h : Move S c w w')
    (hself : ∀ cl t ch cl', w.clients c = some cl → w.clock ≤ t → S w.clock t cl ch cl' →
      R c cl' ∧ cl'.lastActive ≤ t) : w₀.Recorded R w' := by
  have hsound := h.sound hw.sound
  have hregistry := hw.registry.move h
  obtain ⟨o, hcl, ht, hstep, hd⟩ := h
  obtain ⟨hR, hactive⟩ := hself _ _ _ _ hcl ht hstep
  obtain ⟨d, e, f, rfl⟩ := hd.frame
  -- the descriptors do not matter
  exact { hw.put o hcl ht hactive hR fun _ _ _ h => h with sound := hsound, registry := hregistry }

variable [Configuration] {e : Ext}

/-- The environment takes a step. -/
theorem change (hw : w₀.Recorded R w) (hconstructed : ∀ cl t, Client.Constructed t cl →
      R w.nextClient cl)
    (hcontinues : ∀ c cl cl', R c cl → cl.Continues cl' → R c cl') (h : Change e w w') :
    w₀.Recorded R w' := by
  have hcases {c : ClientId} {cl' : Client} (hcl' : w'.clients c = some cl') :
      cl'.lastActive ≤ w'.clock ∧ R c cl' := by
    obtain ⟨cl, hcl, hrun⟩ | ⟨rfl, hnew⟩ := h.userRun_or_constructed hcl'
    · obtain ⟨hcontinued, hactive⟩ := hrun.continues (hw.lastActive hcl)
      exact ⟨hactive, hcontinues _ _ _ (hw.clients hcl) hcontinued⟩
    · exact ⟨hnew.lastActive, hconstructed _ _ hnew⟩
  exact ⟨h.sound hw.sound, hw.registry.change hw.sound h, hw.nextClient.trans h.frame.nextClient,
    hw.clock.trans h.frame.clock, fun hcl' => (hcases hcl').1, fun hcl' => (hcases hcl').2⟩

theorem change_of_kept (hw : w₀.Recorded R w) (hR : KeptClient w₀ R) (h : Change e w w') :
    w₀.Recorded R w' :=
  hw.change (fun _ _ hnew => hR.constructed hw.nextClient hnew)
    (fun _ _ _ hcl hcontinues => hR.continues hcl hcontinues) h

end World.Recorded

/-- What a worker may begin with. -/
theorem ReachableIf.recorded [Configuration] {good : StepCondition} {w : World}
    {R : ClientId → Client → Prop} (hs : ReachableIf good ⟨w, .idle⟩)
    (hR : ∀ c cl, w.clients c = some cl → R c cl) :
    w.Recorded R w := by
  obtain ⟨hsound, hregistry⟩ := hs.registry nofun
  refine ⟨hsound, hregistry, le_rfl, le_rfl, fun hcl => ?_, fun hcl => hR _ _ hcl⟩
  obtain ⟨φ, hrun⟩ := hs.clientRun hcl
  exact hrun.lastActive

/-! ## Phases -/

/-- The place of a handler in a cycle. -/
def Handler.rank : Handler → ℕ
  | writeable => 0
  | readable => 1
  | delayedConnect => 2
  | poll => 3
  | done => 4

variable [Configuration]

/-- At time `t` a phase chooses a client for its handler. Only the choice of the poll phase changes
the client. -/
inductive Chosen (r s : List ℤ) (t : Time) : Handler → Client → Client → Prop where
  | writeable {cl : Client} : cl.socket ∈ s → Chosen r s t .writeable cl cl
  | readable {cl : Client} : cl.socket ∈ r → Chosen r s t .readable cl cl
  | delayedConnect {cl : Client} : cl.dnsFinished = true → Chosen r s t .delayedConnect cl cl
  | poll {cl : Client} : cl.lastActive + milliseconds Configuration.pollInterval ≤ t →
      Chosen r s t .poll cl { cl with lastActive := t }
  | done {cl : Client} : Chosen r s t .done cl cl

/-- At time `t` a phase passes over a client. -/
inductive Passed (r s : List ℤ) (t : Time) : Handler → Client → Prop where
  | writeable {cl : Client} : cl.socket ∉ s → Passed r s t .writeable cl
  | readable {cl : Client} : cl.socket ∉ r → Passed r s t .readable cl
  | delayedConnect {cl : Client} : cl.dnsFinished = false → Passed r s t .delayedConnect cl
  | poll {cl : Client} : t < cl.lastActive + milliseconds Configuration.pollInterval →
      Passed r s t .poll cl

/-- What the phases of a cycle that begins in or after world `w₀` do to assertions about single
clients: `R n` is about clients that have `n` phases behind them, and `T` is what follows from it
at every moment. The sets `r` and `s` are what `select` has reported. -/
structure RoundRule (w₀ : World) (T : ClientId → Client → Prop) (r s : List ℤ)
    (R : ℕ → ClientId → Client → Prop) : Prop where
  /-- What is known of a client in turn is known of it at any time. -/
  known {n : ℕ} {c : ClientId} {cl : Client} : R n c cl → T c cl
  /-- The environment keeps what is known at any time. -/
  keptKnown : KeptClient w₀ T
  /-- The environment keeps what is known of a client in turn. -/
  kept (n : ℕ) : KeptClient w₀ (R (n + 1))
  /-- A client has been chosen, and is served some time later. -/
  served {h : Handler} {t : Time} {c : ClientId} {cl₀ cl₁ cl : Client} : w₀.clock ≤ t →
    R h.rank c cl₀ → Chosen r s t h cl₀ cl₁ → cl₁.Continues cl → R (h.rank + 1) c (cl.enter h)
  /-- A client is passed over. -/
  passed {h : Handler} {t : Time} {c : ClientId} {cl : Client} : w₀.clock ≤ t → R h.rank c cl →
    Passed r s t h cl → R (h.rank + 1) c cl

section

variable {w₀ : World} {r s : List ℤ} {T : ClientId → Client → Prop}
  {R : ℕ → ClientId → Client → Prop} {h : Handler} {rest : List ClientId} {c : ClientId}
  {cl cl' : Client}

theorem Chosen.continues {t : Time} (hchosen : Chosen r s t h cl cl') : cl.Continues cl' := by
  cases hchosen with
  | poll ht => exact .touch ((Nat.le_add_right ..).trans ht)
  | _ => exact .refl cl

/-- A client has been chosen for handler `h` and waits for its turn. -/
def Waits (w₀ : World) (r s : List ℤ) (R : ℕ → ClientId → Client → Prop) (h : Handler)
    (c : ClientId) (cl : Client) : Prop :=
  ∃ t cl₀ cl₁, w₀.clock ≤ t ∧ R h.rank c cl₀ ∧ Chosen r s t h cl₀ cl₁ ∧ cl₁.Continues cl

/-- A phase has still to serve the clients `rest`, and no others. -/
def During (w₀ : World) (r s : List ℤ) (R : ℕ → ClientId → Client → Prop) (h : Handler)
    (rest : List ClientId) (c : ClientId) (cl : Client) : Prop :=
  (c ∈ rest → Waits w₀ r s R h c cl) ∧ (c ∉ rest → R (h.rank + 1) c cl)

/-- A phase has chosen the clients `chosen`, and has still to look at the clients `rest`. -/
def Choosing (w₀ : World) (r s : List ℤ) (R : ℕ → ClientId → Client → Prop) (h : Handler)
    (chosen rest : List ClientId) (c : ClientId) (cl : Client) : Prop :=
  (c ∈ rest → R h.rank c cl) ∧ (c ∉ rest → During w₀ r s R h chosen c cl)

/-- The places where a callback gets what a read returns. -/
def Yield.Fits : Yield → Prop
  | client _ cb _ => cb.Fits
  | accept _ _ => True

/-- The contract of rounds: `T` holds of every live client whenever user code runs, and after a
fault as well. -/
def roundContract (good : StepCondition) (w₀ : World) (T : ClientId → Client → Prop) :
    Contract World Yield Fault :=
  systemContract good (fun i w => w₀.Recorded T w ∧ i.Fits)
    fun _ w => ∀ c cl, w.clients c = some cl → T c cl ∧ cl.lastActive ≤ w.clock

theorem Waits.continues (hcl : Waits w₀ r s R h c cl) (hcontinues : cl.Continues cl') :
    Waits w₀ r s R h c cl' := by
  obtain ⟨t, cl₀, cl₁, ht, hR, hchosen, hcl₁⟩ := hcl
  exact ⟨t, cl₀, cl₁, ht, hR, hchosen, hcl₁.trans hcontinues⟩

/-! ## Choices -/

omit [Configuration] in
/-- The choice of a phase, with an invariant that is indexed by the elements chosen so far and by
those still to be looked at. -/
theorem wp_chooseFrom_of {α : Type} {C : Contract World Yield Fault} {choose : α → Proc Bool}
    (Inv : List α → List α → World → Prop)
    (hchoose : ∀ chosen a rest w, Inv chosen (a :: rest) w → wp C (choose a)
      (fun b w' => Inv (if b = true then chosen ++ [a] else chosen) rest w') w)
    {chosen l : List α} {w : World} (hw : Inv chosen l w) :
    wp C (chooseFrom choose l) (fun l' w' => Inv (chosen ++ l') [] w') w := by
  induction l generalizing chosen w with
  | nil =>
      rw [chooseFrom, wp_pure, List.append_nil]
      exact hw
  | cons a rest ih =>
      rw [chooseFrom, wp_bind]
      refine wp_mono (hchoose chosen a rest w hw) fun b w₁ hw₁ => ?_
      rw [wp_ite]
      split
      · rename_i hb
        rw [if_pos hb] at hw₁
        rw [wp_bind]
        refine wp_mono (ih hw₁) fun l' w₂ hw₂ => ?_
        rw [wp_pure]
        simpa using hw₂
      · rename_i hb
        rw [if_neg hb] at hw₁
        exact ih hw₁

/-- What `choose` does with a live client, in a phase with handler `h`. -/
def Chooses (C : Contract World Yield Fault) (r s : List ℤ) (h : Handler)
    (choose : ClientId → Proc Bool) : Prop :=
  ∀ (w : World) c cl, w.clients c = some cl → cl.lastActive ≤ w.clock → wp C (choose c)
    (fun b w' => ∃ cl' o t, w' = (w.put c cl' o t).hold .manager ∧ w.clock ≤ t ∧
      cl'.lastActive ≤ t ∧
      if b = true then Chosen r s t h cl cl' else cl' = cl ∧ Passed r s t h cl)
    (w.hold .manager)

/-- A choice by a test that reads the client. -/
theorem chooses_test {C : Contract World Yield Fault} {test : Client → Bool}
    (hyes : ∀ t cl, test cl = true → Chosen r s t h cl cl)
    (hno : ∀ t cl, test cl = false → Passed r s t h cl) :
    Chooses C r s h fun c => do return test (← this c) := by
  intro w c cl hcl hactive
  rw [wp_bind, wp_this, World.hold_clients, hcl, Option.elim_some, wp_pure]
  refine ⟨cl, w.outcomes, w.clock, ?_, le_rfl, hactive, ?_⟩
  · rw [← World.elapse_eq_put _ _ hcl]
    rfl
  · split
    · exact hyes _ cl ‹_›
    · exact ⟨rfl, hno _ cl (eq_false_of_ne_true ‹_›)⟩

/-- The choice of the poll phase. -/
theorem chooses_pollDue {C : Contract World Yield Fault} : Chooses C r s .poll pollDue := by
  intro w c cl hcl hactive
  rw [pollDue, wp_bind]
  refine wp_now fun o t ht => ?_
  have ht : w.clock ≤ t := ht
  rw [World.hold_elapse, wp_bind, wp_this, World.hold_clients, World.elapse_clients, hcl,
    Option.elim_some, wp_ite]
  split
  · rename_i hdue
    rw [wp_bind, wp_update, World.hold_clients, World.elapse_clients, hcl, Option.elim_some,
      World.hold_put, World.elapse_put, wp_pure]
    refine ⟨_, o, t, rfl, ht, le_rfl, ?_⟩
    rw [if_pos rfl]
    exact .poll (Nat.add_le_of_le_sub' (hactive.trans ht) hdue)
  · rename_i hnotDue
    rw [wp_pure]
    refine ⟨cl, o, t, by rw [World.elapse_eq_put _ _ hcl], ht, hactive.trans ht, ?_⟩
    rw [if_neg Bool.false_ne_true]
    exact ⟨rfl, .poll ((Nat.sub_lt_iff_lt_add' (hactive.trans ht)).mp (not_le.mp hnotDue))⟩

/-- The last phase chooses every client. -/
theorem chooses_all {C : Contract World Yield Fault} :
    Chooses C r s .done fun _ => return true := by
  intro w c cl hcl hactive
  refine ⟨cl, w.outcomes, w.clock, ?_, le_rfl, hactive, ?_⟩
  · rw [← World.elapse_eq_put _ _ hcl]
    rfl
  · rw [if_pos rfl]
    exact .done

namespace RoundRule

variable {good : StepCondition} {w : World} (hrule : RoundRule w₀ T r s R)

include hrule

theorem waits_known (hcl : Waits w₀ r s R h c cl) : T c cl := by
  obtain ⟨t, cl₀, cl₁, -, hR, hchosen, hcl₁⟩ := hcl
  exact hrule.keptKnown.continues (hrule.known hR) (hchosen.continues.trans hcl₁)

theorem during_continues (hcl : During w₀ r s R h rest c cl) (hcontinues : cl.Continues cl') :
    During w₀ r s R h rest c cl' :=
  ⟨fun hc => (hcl.1 hc).continues hcontinues,
    fun hc => (hrule.kept h.rank).continues (hcl.2 hc) hcontinues⟩

theorem during_known (hcl : During w₀ r s R h rest c cl) : T c cl := by
  by_cases hc : c ∈ rest
  · exact hrule.waits_known (hcl.1 hc)
  · exact hrule.known (hcl.2 hc)

/-- The clients that are alive in a phase that has still to serve `rest`. -/
theorem recorded_known (hw : w₀.Recorded (During w₀ r s R h rest) w) : w₀.Recorded T w :=
  hw.mono fun _ _ _ hcl => hrule.during_known hcl

/-- The handlers of a client that has been entered. -/
theorem bodyRule (c : ClientId) :
    BodyRule (roundContract good w₀ T) c fun _ w => w₀.Recorded (During w₀ r s R h rest) w ∧
      w.clientsProcessing = rest ∧ ∀ c' ∈ rest, c' < w.nextClient where
  handler := by
    rintro φ φ' w w' ⟨hw, hrest, hlt⟩ hφ hmove
    refine ⟨hw.move hmove fun cl t ch cl' hcl ht hstep => ?_,
      hmove.frame.clientsProcessing.trans hrest,
      fun c' hc' => (hlt c' hc').trans_le hmove.frame.nextClient⟩
    obtain ⟨hcontinues, hactive⟩ := hstep.continues hφ ((hw.lastActive hcl).trans ht)
    exact ⟨hrule.during_continues (hw.clients hcl) hcontinues, hactive⟩
  unheld := fun ⟨hw, _⟩ => hw.sound.unheld
  stale := fun ⟨hw, _⟩ _ _ hagrees => (hrule.recorded_known hw).agrees hagrees
  yield := fun _ _ hfits ⟨hw, _⟩ _ => ⟨hrule.recorded_known hw, hfits⟩
  env := by
    rintro φ w w' cb - ⟨hw, hrest, hlt⟩ henv
    obtain ⟨e, -, hchange⟩ := exists_change hw.sound henv
    refine ⟨hw.change (fun cl t hnew => ⟨fun hc => ?_, fun _ => ?_⟩)
      (fun _ _ _ => hrule.during_continues) hchange,
      hchange.frame.clientsProcessing.trans hrest,
      fun c' hc' => (hlt c' hc').trans_le hchange.frame.nextClient⟩
    · -- whoever waits has been there before
      exact absurd (hlt _ hc) (lt_irrefl _)
    · exact (hrule.kept h.rank).constructed hw.nextClient hnew

/-- A phase serves the next client. -/
theorem wp_serve (hw : w₀.Recorded (During w₀ r s R h (c :: rest)) w)
    (hprocessing : w.clientsProcessing = rest) (hc : c ∉ rest)
    (hlt : ∀ c' ∈ rest, c' < w.nextClient) :
    wp (roundContract good w₀ T) (handle h c)
      (fun _ w' => w₀.Recorded (During w₀ r s R h rest) w' ∧ w'.clientsProcessing = rest ∧
        ∀ c' ∈ rest, c' < w'.nextClient) w := by
  cases hcl : w.clients c with
  | none =>
      -- the client has been destroyed since it was chosen
      exact wp_handle_gone h hcl fun w' hagrees => (hrule.recorded_known hw).agrees hagrees
  | some cl =>
      refine (hrule.bodyRule c).wp_handle h hcl fun w' hentering => ?_
      obtain ⟨t, cl₀, cl₁, ht, hR, hchosen, hcl₁⟩ := (hw.clients hcl).1 List.mem_cons_self
      have hactive := hw.lastActive hcl
      have hother (c' : ClientId) (cl' : Client) (hne : c' ≠ c)
          (h' : During w₀ r s R h (c :: rest) c' cl') : During w₀ r s R h rest c' cl' :=
        ⟨fun hc' => h'.1 (List.mem_cons_of_mem c hc'),
          fun hc' => h'.2 (List.not_mem_cons_of_ne_of_not_mem hne hc')⟩
      have hself {cl' : Client} (hcontinues : cl.Continues cl') :
          During w₀ r s R h rest c (cl'.enter h) :=
        ⟨fun hmem => absurd hmem hc, fun _ => hrule.served ht hR hchosen (hcl₁.trans hcontinues)⟩
      cases hentering with
      | atOnce _ =>
          exact ⟨hw.put _ hcl le_rfl hactive (hself (.refl cl)) hother, hprocessing, hlt⟩
      | @readable o t' ht' =>
          exact ⟨hw.put _ hcl ht' le_rfl (hself (.touch (hactive.trans ht'))) hother, hprocessing,
            hlt⟩

/-- A phase has looked at client `c`. -/
theorem choosing_self {chosen : List ClientId} {t : Time} {b : Bool} (ht : w₀.clock ≤ t)
    (hc : c ∉ rest) (hc' : c ∉ chosen) (hcl : R h.rank c cl)
    (hchoose : if b = true then Chosen r s t h cl cl' else cl' = cl ∧ Passed r s t h cl) :
    Choosing w₀ r s R h (if b = true then chosen ++ [c] else chosen) rest c cl' := by
  refine ⟨fun hmem => absurd hmem hc, fun _ => ?_⟩
  split at hchoose
  · rename_i hb
    rw [if_pos hb]
    exact ⟨fun _ => ⟨t, cl, cl', ht, hcl, hchoose, .refl cl'⟩, fun hnot => by simp at hnot⟩
  · rename_i hb
    obtain ⟨rfl, hpassed⟩ := hchoose
    rw [if_neg hb]
    exact ⟨fun hmem => absurd hmem hc', fun _ => hrule.passed ht hcl hpassed⟩

omit hrule in
/-- The other clients do not notice. -/
theorem choosing_other {chosen : List ClientId} {c' : ClientId} {b : Bool} (hne : c' ≠ c)
    (hcl : Choosing w₀ r s R h chosen (c :: rest) c' cl) :
    Choosing w₀ r s R h (if b = true then chosen ++ [c] else chosen) rest c' cl := by
  refine ⟨fun hmem => hcl.1 (List.mem_cons_of_mem c hmem), fun hnot => ?_⟩
  have hduring := hcl.2 (List.not_mem_cons_of_ne_of_not_mem hne hnot)
  split
  · simpa [During, hne] using hduring
  · exact hduring

/-- The choice of a phase. -/
theorem wp_choose {C : Contract World Yield Fault} {choose : ClientId → Proc Bool}
    (hchoose : Chooses C r s h choose) (hw : w₀.Recorded (R h.rank) w) :
    wp C (chooseFrom choose w.clientList)
      (fun chosen w' => ∃ w₁ : World, w' = w₁.hold .manager ∧
        w₀.Recorded (During w₀ r s R h chosen) w₁ ∧ chosen.Nodup ∧ ∀ c ∈ chosen, c < w₁.nextClient)
      (w.hold .manager) := by
  -- before the first choice every client is as the last phase left it
  have hinit : w₀.Recorded (Choosing w₀ r s R h [] w.clientList) w :=
    hw.mono fun c cl hcl hR =>
      ⟨fun _ => hR, fun hnot => absurd (hw.registry.clients c (by simp [hcl])) hnot⟩
  refine wp_mono (wp_chooseFrom_of (fun chosen rest w' => ∃ w₁ : World, w' = w₁.hold .manager ∧
    w₀.Recorded (Choosing w₀ r s R h chosen rest) w₁ ∧ (chosen ++ rest).Nodup ∧
    ∀ c ∈ chosen ++ rest, (w₁.clients c).isSome) ?_
    ⟨w, rfl, hinit, hw.sound.clientsNodup, hw.sound.clientsLive⟩) ?_
  · rintro chosen c rest _ ⟨w₁, rfl, hw₁, hnodup, hlive⟩
    obtain ⟨cl, hcl⟩ := Option.isSome_iff_exists.mp (hlive c (by simp))
    refine wp_mono (hchoose w₁ c cl hcl (hw₁.lastActive hcl)) ?_
    rintro b _ ⟨cl', o, t, rfl, ht, hactive, hcl'⟩
    have hR : R h.rank c cl := (hw₁.clients hcl).1 List.mem_cons_self
    -- the list the choice builds never names a client twice
    have hsub : ((if b = true then chosen ++ [c] else chosen) ++ rest).Sublist
        (chosen ++ c :: rest) := by
      split
      · simp
      · simp
    obtain ⟨hrest, hdisjoint⟩ : c ∉ rest ∧ c ∉ chosen := by
      rw [List.nodup_append, List.nodup_cons] at hnodup
      exact ⟨hnodup.2.1.1, fun hmem => hnodup.2.2 c hmem c List.mem_cons_self rfl⟩
    refine ⟨_, rfl, hw₁.put o hcl ht hactive
      (hrule.choosing_self (hw₁.clock.trans ht) hrest hdisjoint hR hcl')
      fun _ _ hne h' => choosing_other hne h', hnodup.sublist hsub, fun c' hc' => ?_⟩
    have hsome := hlive c' (hsub.subset hc')
    by_cases hne : c' = c
    · simp [hne]
    · rwa [World.put_clients_of_ne _ _ _ _ hne]
  · rintro chosen _ ⟨w₁, rfl, hw₁, hnodup, hlive⟩
    rw [List.nil_append, List.append_nil] at hnodup hlive
    refine ⟨w₁, rfl, hw₁.mono fun c cl _ h' => h'.2 List.not_mem_nil, hnodup, fun c hc => ?_⟩
    obtain ⟨cl, hcl⟩ := Option.isSome_iff_exists.mp (hlive c hc)
    exact hw₁.lt_nextClient hcl

/-- A phase over the clients. -/
theorem wp_clientPhase {choose : ClientId → Proc Bool} {body : ClientId → Proc Unit}
    (hchoose : Chooses (roundContract good w₀ T) r s h choose)
    (hbody : ∀ c w Q, (∀ log, wp (roundContract good w₀ T) (handle h c) Q { w with log }) →
      wp (roundContract good w₀ T) (body c) Q w)
    (hw : w₀.Recorded (R h.rank) w) :
    wp (roundContract good w₀ T) (clientPhase choose body)
      (fun _ w' => w₀.Recorded (R (h.rank + 1)) w') w := by
  refine wp_mono (wp_phase (fun rest w => (w₀.Recorded (During w₀ r s R h rest) w ∧
    w.clientsProcessing = rest ∧ ∀ c ∈ rest, c < w.nextClient) ∧ rest.Nodup) ?_ ?_ hw.sound) ?_
  · refine wp_mono (hrule.wp_choose hchoose hw) ?_
    rintro chosen _ ⟨w₁, rfl, hw₁, hnodup, hlt⟩
    exact ⟨w₁, rfl, hw₁.sound, ⟨hw₁.processing chosen, rfl, hlt⟩, hnodup⟩
  · rintro c rest w ⟨⟨hw, hprocessing, hlt⟩, hnodup⟩
    obtain ⟨hc, hnodup⟩ := List.nodup_cons.mp hnodup
    refine ⟨hprocessing, hbody c _ _ fun log => ?_⟩
    refine wp_mono (hrule.wp_serve ((hw.processing rest).record log) rfl hc
      fun c' hc' => hlt c' (List.mem_cons_of_mem c hc')) fun _ w' hw' => ⟨hw', hnodup⟩
  · rintro _ w' ⟨⟨hw', -, -⟩, -⟩
    exact hw'.mono fun c cl _ h' => h'.2 List.not_mem_nil

/-! ## Cycles -/

omit hrule in
/-- A phase that records nothing when it serves a client. -/
theorem wp_plain (c : ClientId) (w : World) (Q : Unit → World → Prop)
    (hhandle : ∀ log, wp (roundContract good w₀ T) (handle h c) Q { w with log }) :
    wp (roundContract good w₀ T) (handle h c) Q w := hhandle w.log

/-- The server phase comes after the two socket phases. -/
theorem serverRule : ServerRule good (fun i w => w₀.Recorded T w ∧ i.Fits) (w₀.Recorded (R 2)) where
  update := fun s' _ hw hs _ => hw.setServer s' hs
  accept := fun _ hw hchange => hw.change_of_kept (hrule.kept 1) hchange
  yield := fun _ hw => ⟨hw.mono fun _ _ _ hcl => hrule.known hcl, trivial⟩
  env := fun _ hw _ hchange => hw.change_of_kept (hrule.kept 1) hchange

theorem wp_serving (hw : w₀.Recorded (R 2) w) :
    wp (roundContract good w₀ T) (serving r) (fun _ w' => w₀.Recorded (R 2) w') w := by
  refine wp_mono (hrule.serverRule.wp_serverPhase (fun _ hw ht => hw.elapse _ ht)
    (fun chosen _ _ hw _ => hw.serversProcessing chosen)
    (fun _ rest _ _ hw _ => hw.serversProcessing rest)
    (fun _ _ w _ _ hw _ _ hagrees => ?_) hw.sound hw) fun _ _ hw' => hw'.2
  exact (hw.mono fun _ _ _ hcl => hrule.known hcl).agrees hagrees

/-- The phases that make use of the descriptor sets. -/
theorem wp_socketPhases (hw : w₀.Recorded (R 0) w) :
    wp (roundContract good w₀ T) (socketPhases r s) (fun _ w' => w₀.Recorded (R 2) w') w := by
  have hlogged {set : FdSet} {h : Handler} (c : ClientId) (w : World) (Q : Unit → World → Prop)
      (hhandle : ∀ log, wp (roundContract good w₀ T) (handle h c) Q { w with log }) :
      wp (roundContract good w₀ T) (do logEntered set c; handle h c) Q w := by
    rw [wp_bind, logEntered, wp_modify]
    cases w.clients c with
    | none => exact hhandle w.log
    | some cl => exact hhandle _
  have hin (l : List ℤ) (h : Handler) (hyes : ∀ t cl, cl.socket ∈ l → Chosen r s t h cl cl)
      (hno : ∀ t cl, cl.socket ∉ l → Passed r s t h cl) :
      Chooses (roundContract good w₀ T) r s h fun c => return (← this c).socket ∈ l :=
    chooses_test (fun t cl htest => hyes t cl (of_decide_eq_true htest))
      fun t cl htest => hno t cl (of_decide_eq_false htest)
  rw [socketPhases_eq, clientSocketPhases, wp_bind, wp_bind, wp_managerLog, wp_bind]
  refine wp_mono (hrule.wp_clientPhase (hin s .writeable (fun _ _ => .writeable)
    fun _ _ => .writeable) hlogged (hw.record _)) fun _ w₁ hw₁ => ?_
  rw [wp_bind, wp_managerLog, wp_bind]
  refine wp_mono (hrule.wp_clientPhase (hin r .readable (fun _ _ => .readable)
    fun _ _ => .readable) hlogged (hw₁.record _)) fun _ w₂ hw₂ => ?_
  rw [wp_managerLog]
  exact hrule.wp_serving (hw₂.record _)

/-- The phases that run in every cycle, up to the last one. -/
theorem wp_laterPhases_of {Q : Unit → World → Prop} (hw : w₀.Recorded (R 2) w)
    (hdone : ∀ w', w₀.Recorded (R 4) w' →
      wp (roundContract good w₀ T) (clientPhase (fun _ => return true) (handle .done)) Q w') :
    wp (roundContract good w₀ T) laterPhases Q w := by
  have hanswered : Chooses (roundContract good w₀ T) r s .delayedConnect fun c =>
      return (← this c).dnsFinished :=
    chooses_test (fun _ _ => .delayedConnect) fun _ _ => .delayedConnect
  rw [laterPhases, wp_bind]
  refine wp_mono (hrule.wp_clientPhase hanswered wp_plain hw) fun _ w₁ hw₁ => ?_
  rw [wp_bind]
  exact wp_mono (hrule.wp_clientPhase chooses_pollDue wp_plain hw₁) fun _ w₂ hw₂ => hdone w₂ hw₂

/-- The last phase. -/
theorem wp_lastPhase (hw : w₀.Recorded (R 4) w) :
    wp (roundContract good w₀ T) (clientPhase (fun _ => return true) (handle .done))
      (fun _ w' => w₀.Recorded (R 5) w') w :=
  hrule.wp_clientPhase chooses_all wp_plain hw

/-- When `select` has found nothing, the socket phases are left out: they would pass over every
client. -/
theorem recorded_skip (hr : r = []) (hs : s = []) (hw : w₀.Recorded (R 0) w) :
    w₀.Recorded (R 2) w := by
  refine hw.mono fun c cl _ hcl => ?_
  have hwriteable : R (Handler.writeable.rank + 1) c cl :=
    hrule.passed (h := .writeable) le_rfl hcl (.writeable (by simp [hs]))
  exact hrule.passed (h := .readable) le_rfl hwriteable (.readable (by simp [hr]))

end RoundRule

/-- The rule for a cycle that begins in world `w`, up to its last phase. What is recorded may depend
on what `select` reports. -/
theorem wp_round_of {good : StepCondition} {w : World}
    {R : List ℤ → List ℤ → ℕ → ClientId → Client → Prop} {Q : Unit → World → Prop}
    (hrule : ∀ r s, w.Selects r s → RoundRule w₀ T r s (R r s))
    (hw : ∀ r s, w₀.Recorded (R r s 0) w)
    (hdone : ∀ r s w', w.Selects r s → w₀.Recorded (R r s 4) w' →
      wp (roundContract good w₀ T) (clientPhase (fun _ => return true) (handle .done)) Q w') :
    wp (roundContract good w₀ T) updateConnectionStates Q w := by
  have hobjects := hw [] []
  rw [updateConnectionStates_eq, wp_bind]
  refine wp_selectReady_eq hobjects.sound hobjects.registry fun log r s o hselects => ?_
  have hround := hrule r s hselects
  have hw₁ := ((hw r s).record log).elapse o le_rfl
  have hlater {w₂ : World} (hw₂ : w₀.Recorded (R r s 2) w₂) :
      wp (roundContract good w₀ T) laterPhases Q w₂ :=
    hround.wp_laterPhases_of hw₂ fun w' hw' => hdone r s w' hselects hw'
  rw [wp_ite]
  split
  · rw [wp_bind]
    exact wp_mono (hround.wp_socketPhases hw₁) fun _ _ hw₂ => hlater hw₂
  · -- nothing was ready, and the worker passes over the socket phases
    rename_i hnothing
    have hempty : r = [] ∧ s = [] := by simpa using hnothing
    exact hlater (hround.recorded_skip hempty.1 hempty.2 hw₁)

/-- The rule for a whole cycle. -/
theorem wp_round {good : StepCondition} {w : World}
    {R : List ℤ → List ℤ → ℕ → ClientId → Client → Prop}
    (hrule : ∀ r s, w.Selects r s → RoundRule w₀ T r s (R r s))
    (hw : ∀ r s, w₀.Recorded (R r s 0) w) :
    wp (roundContract good w₀ T) updateConnectionStates
      (fun _ w' => ∃ r s, w.Selects r s ∧ w₀.Recorded (R r s 5) w') w :=
  wp_round_of hrule hw fun r s _ hselects hw' =>
    wp_mono ((hrule r s hselects).wp_lastPhase hw') fun _ _ hw'' => ⟨r, s, hselects, hw''⟩

/-! ## Runs -/

/-- What the contract of rounds guarantees survives what user code does. -/
theorem roundContract_stable {good : StepCondition} (hT : KeptClient w₀ T) {i : Yield}
    {w w' : World} (hi : (roundContract good w₀ T).atYield i w)
    (henv : (roundContract good w₀ T).env i w w') : (roundContract good w₀ T).atYield i w' := by
  obtain ⟨hw, hfits⟩ := hi
  obtain ⟨e, -, happly⟩ := henv
  exact ⟨hw.change_of_kept hT (Ext.change hw.sound.unheld happly), hfits⟩

/-- The rule for the runs of the worker, where what is recorded does not depend on `select`: after a
cycle a client is where it was before. -/
theorem holds_of_rounds {good : StepCondition} {s : System}
    {R : ℕ → ClientId → Client → Prop} (hrule : ∀ r s, RoundRule w₀ T r s R)
    (hagain : ∀ c cl, R 5 c cl → R 0 c cl) (hidle : KeptClient w₀ (R 0))
    (hw : w₀.Recorded (R 0) w₀) (hs : WorkerReachable good w₀ s) :
    Machine.Holds (roundContract good w₀ T) (w₀.Recorded (R 0)) s := by
  refine Machine.Reachable.holds (M := worker) hw ?_ ?_ (fun _ _ _ henv => henv)
    (fun _ _ _ => roundContract_stable (hrule [] []).keptKnown) hs
  · intro _ w hw
    refine wp_mono (wp_round (R := fun _ _ => R) (fun r s _ => hrule r s) fun _ _ => hw) ?_
    rintro _ w' ⟨-, -, -, hw'⟩
    exact hw'.mono fun c cl _ => hagain c cl
  · intro e w w' hw _ happly
    exact hw.change_of_kept hidle (Ext.change hw.sound.unheld happly)

/-- The rule for a cycle that has not come to its end yet. -/
theorem holds_during_round {good : StepCondition} {w : World} {s : System}
    {R : List ℤ → List ℤ → ℕ → ClientId → Client → Prop}
    (hrule : ∀ r s, w.Selects r s → RoundRule w₀ T r s (R r s)) (hT : KeptClient w₀ T)
    (hw : ∀ r s, w₀.Recorded (R r s 0) w) (hs : DuringCycle good w s) :
    Machine.Holds (roundContract good w₀ T)
      (fun w' => ∃ r s, w.Selects r s ∧ w₀.Recorded (R r s 5) w') s :=
  hs.holds (wp_round hrule hw) (fun _ _ _ henv => henv) fun _ _ _ => roundContract_stable hT

/-- Wherever the contract of rounds holds, `T` holds of every live client. -/
theorem known_of_holds {good : StepCondition} {s : System} {I : World → Prop}
    (hI : ∀ w, I w → w₀.Recorded T w) (hs : Machine.Holds (roundContract good w₀ T) I s)
    (hcl : s.state.clients c = some cl) : T c cl ∧ cl.lastActive ≤ s.state.clock := by
  obtain ⟨w, control⟩ := s
  cases control with
  | idle => exact ⟨(hI w hs).clients hcl, (hI w hs).lastActive hcl⟩
  | suspended i k => exact ⟨hs.1.1.clients hcl, hs.1.1.lastActive hcl⟩
  | faulted f => exact hs c cl hcl

end

end AsyncTcpSock
