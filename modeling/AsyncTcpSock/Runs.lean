import AsyncTcpSock.System

/-!
# Concrete runs

A list of labels is a run of the system from its initial state. What a run comes to can be computed,
so that a reachable state with a given property is exhibited by evaluating a run.
-/

namespace AsyncTcpSock

open Reentrant

variable [Configuration]

/-- A step of the system. -/
abbrev Label : Type := machine.Label

/-- What a list of labels leads to. -/
def runOf (ls : List Label) : Option System := machine.run System.initial ls

/-- A run that leads to a state in which `P` holds shows that there is a reachable one. -/
theorem exists_reachable (ls : List Label) {P : System → Prop} [DecidablePred P]
    (h : (runOf ls).any (fun s => P s) = true) : ∃ s, Reachable s ∧ P s := by
  obtain ⟨s, hs, hP⟩ := (Option.any_eq_true _ _).mp h
  exact ⟨s, .of_run .init hs, of_decide_eq_true hP⟩

/-- The same for runs that meet `good`. -/
theorem exists_reachableIf (good : StepCondition) [∀ i w e, Decidable (good i w e)]
    (ls : List Label) {P : System → Prop} [DecidablePred P]
    (h : (machine.runIf good System.initial ls).any (fun s => P s) = true) :
    ∃ s, ReachableIf good s ∧ P s := by
  obtain ⟨s, hs, hP⟩ := (Option.any_eq_true _ _).mp h
  exact ⟨s, .of_runIf .init hs, of_decide_eq_true hP⟩

/-- A run that leads to a state in which `P` holds of client `c` shows that there is a reachable
one. -/
theorem exists_reachable_client (ls : List Label) (c : ClientId) {P : Client → Prop}
    [DecidablePred P] (h : (runOf ls).any (fun s => (s.state.clients c).any (P ·)) = true) :
    ∃ s cl, Reachable s ∧ s.state.clients c = some cl ∧ P cl := by
  obtain ⟨s, hs, hP⟩ := exists_reachable (P := fun s => (s.state.clients c).any (P ·) = true) ls
    (by simpa using h)
  obtain ⟨cl, hcl, hP⟩ := (Option.any_eq_true _ _).mp hP
  exact ⟨s, cl, hs, hcl, of_decide_eq_true hP⟩

/-- The same for a state in which no code of the manager is running. -/
theorem exists_idle_client (ls : List Label) (c : ClientId) {P : Client → Prop} [DecidablePred P]
    (h : (runOf ls).any
      (fun s => s.control.isIdle && (s.state.clients c).any (P ·)) = true) :
    ∃ s cl, Reachable s ∧ s.control = .idle ∧ s.state.clients c = some cl ∧ P cl := by
  obtain ⟨s, hs, hP⟩ := exists_reachable
    (P := fun s => s.control.isIdle = true ∧ (s.state.clients c).any (P ·) = true) ls
    (by simpa using h)
  obtain ⟨cl, hcl, hP'⟩ := (Option.any_eq_true _ _).mp hP.2
  exact ⟨s, cl, hs, Control.isIdle_iff.mp hP.1, hcl, of_decide_eq_true hP'⟩

/-- The same for a step that leads from a reachable state to place `i`. -/
theorem exists_step_client (ls : List Label) (l : Label) (i : Yield) (c : ClientId)
    {P : Client → Prop} [DecidablePred P]
    (h : (runOf ls).any (fun s => (machine.step s l).any fun s' =>
      decide (s'.control.place = some i) && (s'.state.clients c).any (P ·)) = true) :
    ∃ s s' cl, Reachable s ∧ machine.step s l = some s' ∧ s'.control.place = some i ∧
      s'.state.clients c = some cl ∧ P cl := by
  obtain ⟨s, hs, hP⟩ := exists_reachable
    (P := fun s => (machine.step s l).any (fun s' =>
      decide (s'.control.place = some i) && (s'.state.clients c).any (P ·)) = true) ls
    (by simpa only [Bool.decide_eq_true] using h)
  obtain ⟨s', hstep, hP'⟩ := (Option.any_eq_true _ _).mp hP
  obtain ⟨hplace, hclient⟩ := Bool.and_eq_true_iff.mp hP'
  obtain ⟨cl, hcl, hP''⟩ := (Option.any_eq_true _ _).mp hclient
  exact ⟨s, s', cl, hs, hstep, of_decide_eq_true hplace, hcl, of_decide_eq_true hP''⟩

end AsyncTcpSock
