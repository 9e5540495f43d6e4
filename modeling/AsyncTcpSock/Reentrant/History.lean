import Mathlib.Data.List.Infix

/-!
# Properties of the past

A history is a list of events, newest first, so the suffixes of a history are what it was at
earlier moments. `Always P h` says that `P` held at every moment of the history `h`.
-/

namespace Reentrant

variable {α : Type} {P Q : List α → Prop} {e : α} {h past : List α}

/-- `P` held of the history at every moment up to now. -/
def Always (P : List α → Prop) (h : List α) : Prop := ∀ past, past <:+ h → P past

/-- At the beginning there is one moment. -/
@[simp]
theorem always_nil : Always P [] ↔ P [] := by
  simp [Always]

/-- An event makes one more moment. -/
@[simp]
theorem always_cons : Always P (e :: h) ↔ P (e :: h) ∧ Always P h := by
  simp only [Always, List.suffix_cons_iff, forall_eq_or_imp]

instance Always.decidable [DecidablePred P] : (h : List α) → Decidable (Always P h)
  | [] => decidable_of_iff _ always_nil.symm
  | _ :: h =>
      have := Always.decidable h
      decidable_of_iff _ always_cons.symm

/-- What always held holds now. -/
theorem Always.now (hP : Always P h) : P h := hP h List.suffix_rfl

/-- What always held had always held at every earlier moment. -/
theorem Always.before (hP : Always P h) (hpast : past <:+ h) : Always P past :=
  fun p hp => hP p (hp.trans hpast)

end Reentrant
