import AsyncTcpSock.Reentrant.Routine

/-!
# Machines that run routines

A machine starts routines one at a time. Its environment takes external steps between two
routines, and also while a routine has handed control to it. Runs may be restricted to those whose
external steps all meet a condition `good`, which may look at the place where control is and at the
state before the step.

`Machine.Reachable.resumes` is the invariant rule: check each routine under a contract and each
external step on its own, and the invariant holds whenever no routine is running.
`Machine.Reachable.holds` adds the guarantees of the places where control is with the environment.
-/

namespace Reentrant

/-- The routines a machine may start and the external steps of its environment. -/
structure Machine (σ ι φ : Type) where
  /-- What the machine may start when it is idle. -/
  Op : Type
  /-- What the environment may do. -/
  Ext : Type
  /-- The routine of an operation. -/
  op : Op → Routine σ ι φ Unit
  /-- An external step; `none` when it is not possible. -/
  ext : Ext → σ → Option σ

/-- Where control is. -/
inductive Control (σ ι φ : Type) where
  /-- No routine is running. -/
  | idle
  /-- A routine has yielded at `i` and waits to be resumed. -/
  | suspended (i : ι) (resume : σ → Outcome σ ι φ Unit)
  /-- A routine has faulted. -/
  | faulted (f : φ)

/-- A configuration of a machine. -/
structure Config (σ ι φ : Type) where
  /-- The state that the code and its environment share. -/
  state : σ
  /-- Where the code is. -/
  control : Control σ ι φ

/-- The place where control is with the environment: `none` when the machine is idle. -/
def Control.place {σ ι φ : Type} : Control σ ι φ → Option ι
  | suspended i _ => some i
  | _ => none

theorem Control.place_eq_some {σ ι φ : Type} {control : Control σ ι φ} {i : ι} :
    control.place = some i ↔ ∃ k, control = .suspended i k := by
  cases control <;> simp [place]

/-- Whether no routine is running. -/
def Control.isIdle {σ ι φ : Type} : Control σ ι φ → Bool
  | idle => true
  | _ => false

theorem Control.isIdle_iff {σ ι φ : Type} {control : Control σ ι φ} :
    control.isIdle = true ↔ control = .idle := by
  cases control <;> simp [isIdle]

namespace Machine

variable {σ ι φ : Type}

/-- What can happen to a configuration. -/
inductive Label (M : Machine σ ι φ) where
  /-- The machine starts an operation. -/
  | start (o : M.Op)
  /-- The environment takes a step. -/
  | ext (e : M.Ext)
  /-- The environment gives control back. -/
  | resume

/-- A label of the machine itself, not of its environment. -/
def Label.IsInternal {M : Machine σ ι φ} : M.Label → Prop
  | .ext _ => False
  | _ => True

/-- The configuration in which an outcome leaves the machine. -/
def settle : Outcome σ ι φ Unit → Config σ ι φ
  | .done _ s => ⟨s, .idle⟩
  | .yield i s k => ⟨s, .suspended i k⟩
  | .fault f s => ⟨s, .faulted f⟩

/-- One step of a machine; `none` when the label is not enabled. -/
def step (M : Machine σ ι φ) (c : Config σ ι φ) : M.Label → Option (Config σ ι φ)
  | .start o =>
      match c.control with
      | .idle => some (settle (M.op o c.state))
      | _ => none
  | .ext e =>
      match c.control with
      | .faulted _ => none
      | control => (M.ext e c.state).map fun s => ⟨s, control⟩
  | .resume =>
      match c.control with
      | .suspended _ k => some (settle (k c.state))
      | _ => none

/-- Take the steps of a list of labels, from the front. -/
def run (M : Machine σ ι φ) (c : Config σ ι φ) : List M.Label → Option (Config σ ι φ)
  | [] => some c
  | l :: ls => (M.step c l).bind fun c' => M.run c' ls

/-- A step respects `good` when its external step, if it is one, does. -/
def Respects (M : Machine σ ι φ) (good : Option ι → σ → M.Ext → Prop) (c : Config σ ι φ) :
    M.Label → Prop
  | .ext e => good c.control.place c.state e
  | _ => True

instance Respects.decidable (M : Machine σ ι φ) (good : Option ι → σ → M.Ext → Prop)
    [∀ i s e, Decidable (good i s e)] (c : Config σ ι φ) :
    (l : M.Label) → Decidable (M.Respects good c l)
  | .start _ => .isTrue trivial
  | .ext e => inferInstanceAs (Decidable (good c.control.place c.state e))
  | .resume => .isTrue trivial

/-- Take the steps of a list of labels, from the front, as long as they respect `good`. -/
def runIf (M : Machine σ ι φ) (good : Option ι → σ → M.Ext → Prop)
    [∀ i s e, Decidable (good i s e)] (c : Config σ ι φ) : List M.Label → Option (Config σ ι φ)
  | [] => some c
  | l :: ls =>
      if M.Respects good c l then (M.step c l).bind fun c' => M.runIf good c' ls else none

/-- The configurations of the runs from state `s₀` whose external steps all meet `good`. -/
inductive Reachable (M : Machine σ ι φ) (good : Option ι → σ → M.Ext → Prop) (s₀ : σ) :
    Config σ ι φ → Prop where
  | init : Reachable M good s₀ ⟨s₀, .idle⟩
  | step {c c' : Config σ ι φ} {l : M.Label} :
      Reachable M good s₀ c → M.Respects good c l → M.step c l = some c' →
        Reachable M good s₀ c'

variable {M : Machine σ ι φ} {good : Option ι → σ → M.Ext → Prop} {s₀ : σ}

/-- The environment relation of a machine whose external steps meet `good`. -/
def envOf (M : Machine σ ι φ) (good : Option ι → σ → M.Ext → Prop) (i : ι) (s s' : σ) : Prop :=
  ∃ e, good (some i) s e ∧ M.ext e s = some s'

/-- What an invariant `I` and a contract `C` say of a configuration: `I` of an idle one; of a
suspended one the guarantee of its place, and that resuming it after more environment steps
meets `C` and ends in `I`. -/
def Holds (C : Contract σ ι φ) (I : σ → Prop) (c : Config σ ι φ) : Prop :=
  match c.control with
  | .idle => I c.state
  | .suspended i k =>
      C.atYield i c.state ∧
        ∀ s', Relation.ReflTransGen (C.env i) c.state s' → (k s').Meets C fun _ => I
  | .faulted f => C.atFault f c.state

/-- An outcome that meets a contract settles in a configuration where it holds. -/
theorem holds_settle {C : Contract σ ι φ} {I : σ → Prop} {o : Outcome σ ι φ Unit}
    (h : o.Meets C fun _ => I) : Holds C I (settle o) := by
  cases o with
  | done a s => exact h
  | yield i s k => exact h
  | fault f s => exact h

/-- What is kept of a configuration when the guarantees of `C` need not outlast the steps of the
environment: resuming it after more environment steps meets `C` and ends in `I`. -/
def Resumes (C : Contract σ ι φ) (I : σ → Prop) (c : Config σ ι φ) : Prop :=
  match c.control with
  | .idle => I c.state
  | .suspended i k =>
      ∀ s', Relation.ReflTransGen (C.env i) c.state s' → (k s').Meets C fun _ => I
  | .faulted f => C.atFault f c.state

theorem Holds.resumes {C : Contract σ ι φ} {I : σ → Prop} {c : Config σ ι φ} (h : Holds C I c) :
    Resumes C I c := by
  obtain ⟨s, control⟩ := c
  cases control with
  | idle => exact h
  | suspended i k => exact h.2
  | faulted f => exact h

section

variable {C : Contract σ ι φ} {I : σ → Prop} {c c' : Config σ ι φ} {l : M.Label}

/-- Where a routine settles, the invariant and the guarantees of its contract hold. -/
theorem Resumes.settles (hop : ∀ o s, I s → wp C (M.op o) (fun _ => I) s) (hc : Resumes C I c)
    (hstep : M.step c l = some c') (hl : l.IsInternal) : Holds C I c' := by
  obtain ⟨s, control⟩ := c
  cases l with
  | start o =>
      cases control with
      | idle =>
          obtain rfl := Option.some.inj hstep
          exact holds_settle (hop o s hc)
      | suspended i k => cases hstep
      | faulted f => cases hstep
  | ext e => exact hl.elim
  | resume =>
      cases control with
      | idle => cases hstep
      | suspended i k =>
          obtain rfl := Option.some.inj hstep
          exact holds_settle (hc s .refl)
      | faulted f => cases hstep

/-- The invariant rule. Every operation keeps the invariant under the contract, every external
step keeps it when the machine is idle, and at a place the external steps are steps the contract
allows: then the invariant holds in every run whenever the machine is idle. -/
theorem Reachable.resumes (hinit : I s₀) (hop : ∀ o s, I s → wp C (M.op o) (fun _ => I) s)
    (hidle : ∀ e s s', I s → good none s e → M.ext e s = some s' → I s')
    (henv : ∀ i s s', M.envOf good i s s' → C.env i s s') (hc : M.Reachable good s₀ c) :
    Resumes C I c := by
  induction hc with
  | init => exact hinit
  | @step c c' l _ hgood hstep ih =>
      cases l with
      | ext e =>
          obtain ⟨s, control⟩ := c
          cases control with
          | idle =>
              obtain ⟨s', hs', rfl⟩ := Option.map_eq_some_iff.mp hstep
              exact hidle e s s' ih hgood hs'
          | suspended i k =>
              obtain ⟨s', hs', rfl⟩ := Option.map_eq_some_iff.mp hstep
              exact fun s'' hs'' => ih s'' (hs''.head (henv i s s' ⟨e, hgood, hs'⟩))
          | faulted f => cases hstep
      | start o => exact (ih.settles hop hstep trivial).resumes
      | resume => exact (ih.settles hop hstep trivial).resumes

/-- When the external steps keep the guarantees as well, these hold whenever control is with the
environment. -/
theorem Reachable.holds (hinit : I s₀) (hop : ∀ o s, I s → wp C (M.op o) (fun _ => I) s)
    (hidle : ∀ e s s', I s → good none s e → M.ext e s = some s' → I s')
    (henv : ∀ i s s', M.envOf good i s s' → C.env i s s')
    (hyield : ∀ i s s', C.atYield i s → C.env i s s' → C.atYield i s')
    (hc : M.Reachable good s₀ c) : Holds C I c := by
  induction hc with
  | init => exact hinit
  | @step c c' l hc hgood hstep ih =>
      cases l with
      | ext e =>
          have hresumes := Reachable.resumes hinit hop hidle henv (hc.step hgood hstep)
          obtain ⟨s, control⟩ := c
          cases control with
          | idle =>
              obtain ⟨s', hs', rfl⟩ := Option.map_eq_some_iff.mp hstep
              exact hresumes
          | suspended i k =>
              obtain ⟨s', hs', rfl⟩ := Option.map_eq_some_iff.mp hstep
              exact ⟨hyield i s s' ih.1 (henv i s s' ⟨e, hgood, hs'⟩), hresumes⟩
          | faulted f => cases hstep
      | start o => exact ih.resumes.settles hop hstep trivial
      | resume => exact ih.resumes.settles hop hstep trivial

end

/-- Fewer runs meet a stronger condition. -/
theorem Reachable.mono {good' : Option ι → σ → M.Ext → Prop} {c : Config σ ι φ}
    (hc : M.Reachable good s₀ c) (hgood : ∀ i s e, good i s e → good' i s e) :
    M.Reachable good' s₀ c := by
  induction hc with
  | init => exact .init
  | @step c c' l _ hl hstep ih =>
      refine ih.step ?_ hstep
      cases l with
      | ext e => exact hgood _ _ _ hl
      | _ => trivial

/-- A list of labels that respects `good` leads to a reachable configuration. -/
theorem Reachable.of_runIf [∀ i s e, Decidable (good i s e)] {ls : List M.Label}
    {c c' : Config σ ι φ} (hc : M.Reachable good s₀ c) (hrun : M.runIf good c ls = some c') :
    M.Reachable good s₀ c' := by
  induction ls generalizing c with
  | nil => exact Option.some.inj hrun ▸ hc
  | cons l ls ih =>
      rw [runIf] at hrun
      split at hrun
      · obtain ⟨c₁, hstep, hrest⟩ := Option.bind_eq_some_iff.mp hrun
        exact ih (hc.step ‹_› hstep) hrest
      · cases hrun

theorem run_eq_runIf (M : Machine σ ι φ) (c : Config σ ι φ) (ls : List M.Label) :
    M.run c ls = M.runIf (fun _ _ _ => True) c ls := by
  induction ls generalizing c with
  | nil => rfl
  | cons l ls ih =>
      have hgood : M.Respects (fun _ _ _ => True) c l := by cases l <;> trivial
      simp only [run, runIf, if_pos hgood, ih]

/-- Every list of labels leads to a reachable configuration when nothing is asked of a run. -/
theorem Reachable.of_run {ls : List M.Label} {c c' : Config σ ι φ}
    (hc : M.Reachable (fun _ _ _ => True) s₀ c) (hrun : M.run c ls = some c') :
    M.Reachable (fun _ _ _ => True) s₀ c' :=
  hc.of_runIf ((run_eq_runIf M c ls).symm.trans hrun)

/-! ## Machines with fewer operations -/

/-- What a machine does is done by every machine that has its operations and its external steps. -/
theorem Reachable.embed {M' : Machine σ ι φ} {good' : Option ι → σ → M'.Ext → Prop}
    {f : M.Op → M'.Op} {g : M.Ext → M'.Ext} (hop : ∀ o, M.op o = M'.op (f o))
    (hext : ∀ e, M.ext e = M'.ext (g e)) (hgood : ∀ i s e, good i s e → good' i s (g e))
    {c : Config σ ι φ} (hc : M.Reachable good s₀ c) : M'.Reachable good' s₀ c := by
  induction hc with
  | init => exact .init
  | @step c c' l _ hl hstep ih =>
      cases l with
      | start o =>
          refine ih.step (l := .start (f o)) trivial ?_
          simpa only [Machine.step, hop] using hstep
      | ext e =>
          refine ih.step (l := .ext (g e)) (hgood _ _ _ hl) ?_
          simpa only [Machine.step, hext] using hstep
      | resume => exact ih.step (l := .resume) trivial hstep

/-! ## Whole operations -/

/-- Operation `o`, started in state `s`, may return in state `s'` when the environment takes steps
that meet `good` in between. -/
def Completes (M : Machine σ ι φ) (good : Option ι → σ → M.Ext → Prop) (o : M.Op) (s s' : σ) :
    Prop :=
  (M.op o s).CanReach (M.envOf good) fun _ t => t = s'

section

variable {o : M.Op} {s s' : σ}

/-- What an operation establishes under a contract holds when it returns. -/
theorem Completes.of_wp {G : ι → σ → Prop} {F : φ → σ → Prop} {Q : σ → Prop}
    (h : M.Completes good o s s')
    (hwp : wp ⟨M.envOf good, G, F⟩ (M.op o) (fun _ => Q) s) : Q s' := by
  obtain ⟨_, t, hQ, rfl⟩ := exists_of_canReach hwp h
  exact hQ

/-- An operation may return as it does when the environment does nothing. -/
theorem Completes.of_undisturbed (h : (M.op o).undisturbed s = some ((), s')) :
    M.Completes good o s s' := by
  have hreach : ∀ out : Outcome σ ι φ Unit, out.undisturbed = some ((), s') →
      out.CanReach (M.envOf good) fun _ t => t = s' := by
    intro out hout
    induction out with
    | done a t => exact congrArg Prod.snd (Option.some.inj hout)
    | yield i t k ih => exact ⟨t, .refl, ih t hout⟩
    | fault f t => cases hout
  exact hreach _ h

end

/-! ## Operations in progress -/

/-- The configurations that operation `o`, started in state `s`, goes through up to the one in which
it has returned or faulted. -/
inductive Within (M : Machine σ ι φ) (good : Option ι → σ → M.Ext → Prop) (o : M.Op) (s : σ) :
    Config σ ι φ → Prop where
  | start : Within M good o s (settle (M.op o s))
  | step {c c' : Config σ ι φ} {l : M.Label} : Within M good o s c → c.control ≠ .idle →
      M.Respects good c l → M.step c l = some c' → Within M good o s c'

section

variable {o : M.Op} {s s' : σ} {c : Config σ ι φ}

/-- An operation in progress is in a reachable configuration. -/
theorem Within.reachable (hc : M.Within good o s c) (hs : M.Reachable good s₀ ⟨s, .idle⟩) :
    M.Reachable good s₀ c := by
  induction hc with
  | start => exact hs.step (l := .start o) trivial rfl
  | step _ _ hgood hstep ih => exact ih.step hgood hstep

/-- The rule for an operation in progress: what it establishes under a contract holds when it has
returned, and until then so do the guarantees of the places where control is with the
environment. -/
theorem Within.holds {C : Contract σ ι φ} {Q : σ → Prop} (hc : M.Within good o s c)
    (hop : wp C (M.op o) (fun _ => Q) s) (henv : ∀ i s s', M.envOf good i s s' → C.env i s s')
    (hyield : ∀ i s s', C.atYield i s → C.env i s s' → C.atYield i s') : Holds C Q c := by
  induction hc with
  | start => exact holds_settle hop
  | @step c c' l _ hcontrol hgood hstep ih =>
      obtain ⟨s, control⟩ := c
      cases control with
      | idle => exact absurd rfl hcontrol
      | suspended i k =>
          obtain ⟨hi, hk⟩ := ih
          cases l with
          | start o => cases hstep
          | ext e =>
              obtain ⟨s', hs', rfl⟩ := Option.map_eq_some_iff.mp hstep
              have hs : C.env i s s' := henv i s s' ⟨e, hgood, hs'⟩
              exact ⟨hyield i s s' hi hs, fun s'' hs'' => hk s'' (hs''.head hs)⟩
          | resume =>
              obtain rfl := Option.some.inj hstep
              exact holds_settle (hk s .refl)
      | faulted f => cases l <;> cases hstep

/-- The steps of the environment are part of the operation that waits for them. -/
theorem Within.envs {i : ι} {k : σ → Outcome σ ι φ Unit} {t t' : σ}
    (hc : M.Within good o s ⟨t, .suspended i k⟩)
    (henv : Relation.ReflTransGen (M.envOf good i) t t') :
    M.Within good o s ⟨t', .suspended i k⟩ := by
  induction henv with
  | refl => exact hc
  | tail _ hstep ih =>
      obtain ⟨e, hgood, happly⟩ := hstep
      refine ih.step (l := .ext e) nofun hgood ?_
      simp only [Machine.step, happly, Option.map_some]

/-- An operation that returns has come to its end. -/
theorem Completes.within (h : M.Completes good o s s') : M.Within good o s ⟨s', .idle⟩ := by
  have hsettle : ∀ out : Outcome σ ι φ Unit, M.Within good o s (settle out) →
      (out.CanReach (M.envOf good) fun _ t => t = s') → M.Within good o s ⟨s', .idle⟩ := by
    intro out hout hreach
    induction out with
    | done a t => exact hreach ▸ hout
    | yield i t k ih =>
        obtain ⟨t', henv, hk⟩ := hreach
        exact ih t' ((hout.envs henv).step (l := .resume) nofun trivial rfl) hk
    | fault f t => exact hreach.elim
  exact hsettle _ .start h

/-- An operation that returns leaves the machine in a reachable configuration. -/
theorem Completes.reachable (h : M.Completes good o s s') (hs : M.Reachable good s₀ ⟨s, .idle⟩) :
    M.Reachable good s₀ ⟨s', .idle⟩ :=
  h.within.reachable hs

end

end Machine

end Reentrant
