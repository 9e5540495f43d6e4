import Mathlib.Logic.Relation

/-!
# Routines that hand control to their environment

A routine is a state transformer that may stop in the middle, name the place where it stopped and
hand the state to its environment. The environment changes the state in any way it likes and then
resumes the routine, which goes on from whatever it finds. This is the shape of code that invokes
user callbacks: the callback may call back into the code that invoked it.

* `Outcome`, `Routine`: the resumption monad, with faults for undefined behaviour.
* `Contract`: what the environment may do while it has control, and what must hold when it gets it.
* `wp`: the weakest precondition of a routine under a contract, with one rule for each construct.
* `Outcome.CanReach`: what a routine may come to when the environment helps.
* `Routine.undisturbed`: the run of a routine in an environment that does nothing.

Nothing here depends on what the state or the places are.
-/

namespace Reentrant

/-- What a run of a routine from a given state comes to: it returns, it hands control to the
environment at place `i`, or it faults. -/
inductive Outcome (σ ι φ α : Type) where
  /-- The routine returned `a` in state `s`. -/
  | done (a : α) (s : σ)
  /-- Control is with the environment at place `i`; `resume` goes on from the state it leaves. -/
  | yield (i : ι) (s : σ) (resume : σ → Outcome σ ι φ α)
  /-- The routine did something that has no meaning, such as using a destroyed object. -/
  | fault (f : φ) (s : σ)

/-- A routine over state `σ`, with places `ι` at which it yields and faults `φ`. -/
def Routine (σ ι φ α : Type) : Type := σ → Outcome σ ι φ α

variable {σ ι φ α β : Type}

namespace Outcome

/-- Continue every returning branch of an outcome with a routine. -/
def bind : Outcome σ ι φ α → (α → Routine σ ι φ β) → Outcome σ ι φ β
  | done a s, g => g a s
  | yield i s k, g => yield i s fun s' => (k s').bind g
  | fault f s, _ => fault f s

end Outcome

namespace Routine

instance : Monad (Routine σ ι φ) where
  pure a := fun s => .done a s
  bind m g := fun s => (m s).bind g

/-- The current state. -/
def get : Routine σ ι φ σ := fun s => .done s s

/-- Change the state. -/
def modify (f : σ → σ) : Routine σ ι φ Unit := fun s => .done () (f s)

/-- Hand control to the environment at place `i`. -/
def yield (i : ι) : Routine σ ι φ Unit := fun s => .yield i s fun s' => .done () s'

/-- Give up: what the code does next has no meaning. -/
def fault (f : φ) : Routine σ ι φ α := fun s => .fault f s

/-- Run `body` on every element of a list, from the front. -/
def forEach (body : α → Routine σ ι φ Unit) : List α → Routine σ ι φ Unit
  | [] => pure ()
  | a :: as => do
      body a
      forEach body as

/-- Routines are run one after the other, in whatever way they are bracketed. -/
theorem bind_assoc {γ : Type} (m : Routine σ ι φ α) (g : α → Routine σ ι φ β)
    (k : β → Routine σ ι φ γ) : m >>= g >>= k = m >>= fun a => g a >>= k := by
  have hbind : ∀ o : Outcome σ ι φ α,
      (o.bind g).bind k = o.bind fun a s => (g a s).bind k := by
    intro o
    induction o with
    | done a s => rfl
    | yield i s resume ih => exact congrArg (Outcome.yield i s) (funext ih)
    | fault f s => rfl
  exact funext fun s => hbind (m s)

/-- A sequence that returns without having yielded does so in both parts. -/
theorem bind_eq_done {m : Routine σ ι φ α} {g : α → Routine σ ι φ β} {s s' : σ} {b : β} :
    (m >>= g) s = .done b s' ↔ ∃ a s₁, m s = .done a s₁ ∧ g a s₁ = .done b s' := by
  change (m s).bind g = _ ↔ _
  cases m s with
  | done a s₁ =>
      constructor
      · exact fun h => ⟨a, s₁, rfl, h⟩
      · rintro ⟨_, _, ⟨⟩, h⟩
        exact h
  | yield i s₁ k => simp [Outcome.bind]
  | fault f s₁ => simp [Outcome.bind]

end Routine

/-! ## Contracts and weakest preconditions -/

/-- The terms between a routine and its environment. -/
structure Contract (σ ι φ : Type) where
  /-- One step the environment may take while it has control at a place. -/
  env : ι → σ → σ → Prop
  /-- What the routine guarantees whenever the environment has control at a place. -/
  atYield : ι → σ → Prop
  /-- The faults the routine may end in. -/
  atFault : φ → σ → Prop

/-- An outcome meets contract `C` with postcondition `Q`: every returning branch satisfies `Q`,
every yield satisfies its guarantee, and every resumption after any number of environment steps
meets the contract again. -/
def Outcome.Meets (C : Contract σ ι φ) (Q : α → σ → Prop) : Outcome σ ι φ α → Prop
  | .done a s => Q a s
  | .yield i s k =>
      C.atYield i s ∧ ∀ s', Relation.ReflTransGen (C.env i) s s' → (k s').Meets C Q
  | .fault f s => C.atFault f s

/-- The weakest precondition of routine `m` for postcondition `Q` under contract `C`. -/
def wp (C : Contract σ ι φ) (m : Routine σ ι φ α) (Q : α → σ → Prop) (s : σ) : Prop :=
  (m s).Meets C Q

variable {C : Contract σ ι φ} {Q R : α → σ → Prop} {s : σ}

namespace Outcome

/-- A weaker postcondition is met as well. -/
theorem Meets.mono {o : Outcome σ ι φ α} (h : o.Meets C Q) (hQR : ∀ a s, Q a s → R a s) :
    o.Meets C R := by
  induction o with
  | done a s => exact hQR a s h
  | yield i s k ih => exact ⟨h.1, fun s' hs' => ih s' (h.2 s' hs')⟩
  | fault f s => exact h

/-- Sequencing: the continuation's precondition is the postcondition of the first part. -/
theorem meets_bind {o : Outcome σ ι φ α} {g : α → Routine σ ι φ β} {Q : β → σ → Prop} :
    (o.bind g).Meets C Q ↔ o.Meets C fun a s => wp C (g a) Q s := by
  induction o with
  | done a s => exact Iff.rfl
  | yield i s k ih => exact and_congr_right fun _ => forall₂_congr fun s' _ => ih s'
  | fault f s => exact Iff.rfl

end Outcome

/-- Rule of consequence. -/
theorem wp_mono {m : Routine σ ι φ α} (h : wp C m Q s) (hQR : ∀ a s, Q a s → R a s) :
    wp C m R s :=
  Outcome.Meets.mono h hQR

/-- A routine that returns at once. -/
@[simp]
theorem wp_pure {a : α} : wp C (pure a) Q s ↔ Q a s := Iff.rfl

/-- The second routine begins where the first one has ended. -/
@[simp]
theorem wp_bind {m : Routine σ ι φ α} {g : α → Routine σ ι φ β} {Q : β → σ → Prop} :
    wp C (m >>= g) Q s ↔ wp C m (fun a s => wp C (g a) Q s) s :=
  Outcome.meets_bind

/-- The state is read. -/
@[simp]
theorem wp_get {Q : σ → σ → Prop} : wp C Routine.get Q s ↔ Q s s := Iff.rfl

/-- The state is changed. -/
@[simp]
theorem wp_modify {f : σ → σ} {Q : Unit → σ → Prop} :
    wp C (Routine.modify f) Q s ↔ Q () (f s) := Iff.rfl

/-- A fault ends the routine. -/
@[simp]
theorem wp_fault {f : φ} : wp C (Routine.fault f : Routine σ ι φ α) Q s ↔ C.atFault f s := Iff.rfl

/-- A property that every environment step keeps survives any number of them. -/
theorem stable_env {i : ι} {J : σ → Prop} (hJ : ∀ s s', J s → C.env i s s' → J s') {s s' : σ}
    (hs : J s) (hss' : Relation.ReflTransGen (C.env i) s s') : J s' := by
  induction hss' with
  | refl => exact hs
  | tail _ hstep ih => exact hJ _ _ ih hstep

/-- To yield, establish a property the environment keeps: it is all that is known afterwards. -/
theorem wp_yield_of_stable {i : ι} {Q : Unit → σ → Prop} (J : σ → Prop) (hs : J s)
    (hJ : ∀ s s', J s → C.env i s s' → J s') (hyield : C.atYield i s)
    (hQ : ∀ s, J s → Q () s) : wp C (Routine.yield i) Q s :=
  ⟨hyield, fun _ hss' => hQ _ (stable_env hJ hs hss')⟩

/-- Loop rule: an invariant indexed by the elements still to come. -/
theorem wp_forEach {body : α → Routine σ ι φ Unit} (Inv : List α → σ → Prop)
    (hbody : ∀ a as s, Inv (a :: as) s → wp C (body a) (fun _ s => Inv as s) s)
    {as : List α} (hs : Inv as s) : wp C (Routine.forEach body as) (fun _ s => Inv [] s) s := by
  induction as generalizing s with
  | nil => exact hs
  | cons a as ih =>
      rw [Routine.forEach, wp_bind]
      exact wp_mono (hbody a as s hs) fun _ s' hs' => ih hs'

/-- The contract that asks for nothing. -/
def Contract.lax : Contract σ ι φ where
  env _ _ _ := True
  atYield _ _ := True
  atFault _ _ := True

/-- Under this contract only the postcondition matters. -/
theorem wp_lax {m : Routine σ ι φ α} (hQ : ∀ a s, Q a s) : wp Contract.lax m Q s := by
  have hmeets : ∀ o : Outcome σ ι φ α, o.Meets Contract.lax Q := by
    intro o
    induction o with
    | done a s => exact hQ a s
    | yield i s k ih => exact ⟨trivial, fun s' _ => ih s'⟩
    | fault f s => trivial
  exact hmeets (m s)

/-! ## What may happen -/

/-- With a suitable environment, an outcome returns in a state where `Q` holds. -/
def Outcome.CanReach (env : ι → σ → σ → Prop) (Q : α → σ → Prop) : Outcome σ ι φ α → Prop
  | .done a s => Q a s
  | .yield i s k => ∃ s', Relation.ReflTransGen (env i) s s' ∧ (k s').CanReach env Q
  | .fault _ _ => False

section

variable {env : ι → σ → σ → Prop}

/-- What can be reached satisfies what follows. -/
theorem Outcome.CanReach.mono {o : Outcome σ ι φ α} (h : o.CanReach env Q)
    (hQR : ∀ a s, Q a s → R a s) : o.CanReach env R := by
  induction o with
  | done a s => exact hQR a s h
  | yield i s k ih =>
      obtain ⟨s', hs', hk⟩ := h
      exact ⟨s', hs', ih s' hk⟩
  | fault f s => exact h

/-- Sequencing. -/
theorem canReach_bind {m : Routine σ ι φ α} {g : α → Routine σ ι φ β} {Q : β → σ → Prop}
    (h : (m s).CanReach env fun a s => (g a s).CanReach env Q) :
    ((m >>= g) s).CanReach env Q := by
  have hbind : ∀ o : Outcome σ ι φ α, (o.CanReach env fun a s => (g a s).CanReach env Q) →
      (o.bind g).CanReach env Q := by
    intro o ho
    induction o with
    | done a s => exact ho
    | yield i s k ih =>
        obtain ⟨s', hs', hk⟩ := ho
        exact ⟨s', hs', ih s' hk⟩
    | fault f s => exact ho
  exact hbind (m s) h

/-- What may happen under a contract meets its postcondition. -/
theorem exists_of_canReach {m : Routine σ ι φ α} (h : wp C m Q s)
    (hreach : (m s).CanReach C.env R) : ∃ a s', Q a s' ∧ R a s' := by
  have hmeets : ∀ o : Outcome σ ι φ α, o.Meets C Q → o.CanReach C.env R →
      ∃ a s', Q a s' ∧ R a s' := by
    intro o ho hreach
    induction o with
    | done a s => exact ⟨a, s, ho, hreach⟩
    | yield i s k ih =>
        obtain ⟨s', hs', hk⟩ := hreach
        exact ih s' (ho.2 s' hs') hk
    | fault f s => exact hreach.elim
  exact hmeets (m s) h hreach

end

/-! ## Environments that do nothing -/

/-- What an outcome comes to when the environment always resumes at once and changes nothing; `none`
when it faults. -/
def Outcome.undisturbed : Outcome σ ι φ α → Option (α × σ)
  | .done a s => some (a, s)
  | .yield _ s k => (k s).undisturbed
  | .fault _ _ => none

/-- The run of a routine in an environment that changes nothing. -/
def Routine.undisturbed (m : Routine σ ι φ α) (s : σ) : Option (α × σ) := (m s).undisturbed

/-- A routine that returns at once, undisturbed. -/
@[simp]
theorem Routine.undisturbed_pure (a : α) (s : σ) :
    (pure a : Routine σ ι φ α).undisturbed s = some (a, s) := rfl

/-- Routines that are run undisturbed one after the other. -/
@[simp]
theorem Routine.undisturbed_bind (m : Routine σ ι φ α) (g : α → Routine σ ι φ β) (s : σ) :
    (m >>= g).undisturbed s = (m.undisturbed s).bind fun p => (g p.1).undisturbed p.2 := by
  have hbind : ∀ o : Outcome σ ι φ α, (o.bind g).undisturbed =
      o.undisturbed.bind fun p => (g p.1).undisturbed p.2 := by
    intro o
    induction o with
    | done a s => rfl
    | yield i s k ih => exact ih s
    | fault f s => rfl
  exact hbind (m s)

/-- The contract of an environment that changes nothing. -/
def Contract.idle : Contract σ ι φ where
  env _ _ _ := False
  atYield _ _ := True
  atFault _ _ := False

/-- An idle environment leaves the state alone. -/
theorem wp_idle_yield {i : ι} {Q : Unit → σ → Prop} (h : Q () s) :
    wp Contract.idle (Routine.yield i : Routine σ ι φ Unit) Q s :=
  wp_yield_of_stable (· = s) rfl (fun _ _ _ henv => henv.elim) trivial fun _ hs => hs ▸ h

/-- What a routine comes to under this contract is its undisturbed run. -/
theorem undisturbed_of_wp {m : Routine σ ι φ α} {p : α × σ}
    (h : wp Contract.idle m (fun a s' => (a, s') = p) s) : m.undisturbed s = some p := by
  have hmeets : ∀ o : Outcome σ ι φ α, o.Meets Contract.idle (fun a s' => (a, s') = p) →
      o.undisturbed = some p := by
    intro o ho
    induction o with
    | done a t => exact congrArg some ho
    | yield i t k ih => exact ih t (ho.2 t .refl)
    | fault f t => exact ho.elim
  exact hmeets (m s) h

end Reentrant
