import AsyncTcpSock.Runs

/-!
# The worker task

The task in which the manager runs goes round `updateConnectionStates` for ever and calls nothing
else. Its runs are those runs of the system in which the manager runs whole cycles only.
-/

namespace AsyncTcpSock

open Reentrant

variable [Configuration]

/-- The `while (true)` loop of `SocketConnectionManager::updateConnectionStates`, together with user
code and the operating system. -/
@[reducible]
def worker : Machine World Yield Fault where
  Op := Unit
  Ext := Ext
  op := fun _ => Manager.updateConnectionStates
  ext := Ext.apply

/-- A condition that every external step meets. -/
abbrev anyStep : StepCondition := fun _ _ _ => True

/-- The states of the runs of the task from world `w₀` whose external steps all meet `good`. -/
abbrev WorkerReachable (good : StepCondition) (w₀ : World) (s : System) : Prop :=
  worker.Reachable good w₀ s

/-- A cycle that begins in world `w` may end in world `w'`. -/
abbrev Cycle (good : StepCondition) (w w' : World) : Prop := worker.Completes good () w w'

/-- What a cycle that begins in world `w` goes through, in callbacks as well. -/
abbrev DuringCycle (good : StepCondition) (w : World) (s : System) : Prop :=
  worker.Within good () w s

variable {good : StepCondition} {w₀ w w' : World} {s : System}

/-- The runs of the task are runs of the system. -/
theorem WorkerReachable.reachable (hs : WorkerReachable good w₀ s) :
    machine.Reachable good w₀ s :=
  @Machine.Reachable.embed _ _ _ worker good w₀ machine good (fun _ => .cycle) id (fun _ => rfl)
    (fun _ => rfl) (fun _ _ _ h => h) _ hs

/-- A cycle that begins where a run of the system may come to ends where one may come to. -/
theorem Cycle.reachable (hs : ReachableIf good ⟨w, .idle⟩) (h : Cycle good w w') :
    ReachableIf good ⟨w', .idle⟩ := by
  -- a cycle is one of the operations of the system
  have hcycle : machine.Completes good .cycle w w' := h
  exact hcycle.reachable hs

/-- A list of labels that leads the system to an idle state, and one that leads the task on from
there to a state in which `P` holds, show that the task may come to one. -/
theorem exists_workerReachable_from (ls₀ : List Label) (ls : List worker.Label)
    {P : World → System → Prop} [∀ w s, Decidable (P w s)]
    (h : (runOf ls₀).any (fun s₀ =>
      s₀.control.isIdle && (worker.run s₀ ls).any fun s => P s₀.state s) = true) :
    ∃ w₀ s, Reachable ⟨w₀, .idle⟩ ∧ WorkerReachable anyStep w₀ s ∧ P w₀ s := by
  obtain ⟨⟨w₀, control⟩, hs₀, h⟩ := (Option.any_eq_true _ _).mp h
  obtain ⟨hidle, h⟩ := Bool.and_eq_true_iff.mp h
  obtain rfl : control = .idle := Control.isIdle_iff.mp hidle
  obtain ⟨s, hs, hP⟩ := (Option.any_eq_true _ _).mp h
  exact ⟨w₀, s, .of_run .init hs₀, .of_run .init hs, of_decide_eq_true hP⟩

/-- A cycle in which user code does nothing, begun where a run of the system has come to. It meets
every condition. -/
theorem exists_cycle (ls : List Label) {P : World → World → Prop} [∀ w w', Decidable (P w w')]
    (h : (runOf ls).any (fun s => s.control.isIdle &&
      (Manager.updateConnectionStates.undisturbed s.state).any fun p => P s.state p.2) = true) :
    ∃ w w', Reachable ⟨w, .idle⟩ ∧ Cycle good w w' ∧ P w w' := by
  obtain ⟨⟨w, control⟩, hs, h⟩ := (Option.any_eq_true _ _).mp h
  obtain ⟨hidle, h⟩ := Bool.and_eq_true_iff.mp h
  obtain rfl : control = .idle := Control.isIdle_iff.mp hidle
  obtain ⟨⟨⟨⟩, w'⟩, hw', hP⟩ := (Option.any_eq_true _ _).mp h
  exact ⟨w, w', .of_run .init hs, .of_undisturbed hw', of_decide_eq_true hP⟩

end AsyncTcpSock
