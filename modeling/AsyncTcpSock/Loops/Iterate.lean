import Mathlib.Order.Basic

/-!
# Loops that are left early

A loop is its body: from the values of its variables at the beginning of a round it comes to their
values at the beginning of the next round, or it leaves the loop with a result. `iterate` runs a
loop for a bounded number of rounds. `iterate_terminates` is the rule of total correctness: an
invariant, a measure that every round decreases, and a postcondition wherever the loop is left.
-/

namespace Loops

variable {σ ρ : Type} {body : σ → σ ⊕ ρ}

/-- Run a loop for at most `fuel` rounds; `none` when they are not enough. -/
def iterate (body : σ → σ ⊕ ρ) : ℕ → σ → Option ρ
  | 0, _ => none
  | fuel + 1, s =>
      match body s with
      | .inl s' => iterate body fuel s'
      | .inr r => some r

/-- A round that does not leave the loop. -/
theorem iterate_succ_of_inl {s s' : σ} (h : body s = .inl s') (fuel : ℕ) :
    iterate body (fuel + 1) s = iterate body fuel s' := by
  rw [iterate, h]

/-- A round that leaves the loop. -/
theorem iterate_succ_of_inr {s : σ} {r : ρ} (h : body s = .inr r) (fuel : ℕ) :
    iterate body (fuel + 1) s = some r := by
  rw [iterate, h]

/-- A loop that keeps `Inv` and decreases `measure` in every round is left, where `Post` holds. It
is left in the same way however many rounds it is given, as long as they are enough. -/
theorem iterate_terminates (Inv : σ → Prop) (measure : σ → ℕ) (Post : ρ → Prop)
    (hnext : ∀ s s', Inv s → body s = .inl s' → Inv s' ∧ measure s' < measure s)
    (hexit : ∀ s r, Inv s → body s = .inr r → Post r) {s : σ} (hs : Inv s) :
    ∃ r, Post r ∧ ∀ fuel, measure s < fuel → iterate body fuel s = some r := by
  induction hn : measure s using Nat.strongRecOn generalizing s with
  | ind n ih =>
    subst hn
    cases hbody : body s with
    | inr r =>
        refine ⟨r, hexit s r hs hbody, ?_⟩
        rintro (_ | fuel) hfuel
        · exact absurd hfuel (Nat.not_lt_zero _)
        · exact iterate_succ_of_inr hbody fuel
    | inl s' =>
        obtain ⟨hs', hlt⟩ := hnext s s' hs hbody
        obtain ⟨r, hr, hreturns⟩ := ih _ hlt hs' rfl
        refine ⟨r, hr, ?_⟩
        rintro (_ | fuel) hfuel
        · exact absurd hfuel (Nat.not_lt_zero _)
        · rw [iterate_succ_of_inl hbody]
          -- a round is spent, and the measure has gone down by at least one
          exact hreturns fuel (Nat.lt_of_lt_of_le hlt (Nat.le_of_lt_succ hfuel))

end Loops
