import Mathlib.Data.Nat.Notation
import Mathlib.Data.List.Basic

/-!
# Hexadecimal text

Bytes written as two digits each, the high half first, with every digit in either case.
`Encodes text bytes` is the relation of all the ways to write `bytes`; `exists_encodes` says which
texts it reaches and `Encodes.unique` that a text stands for one list of bytes.
-/

namespace Hex

/-- The digits in the order of their values. -/
def upper : List UInt8 :=
  ['0', '1', '2', '3', '4', '5', '6', '7', '8', '9', 'A', 'B', 'C', 'D', 'E', 'F'].map Char.toUInt8

@[inherit_doc upper]
def lower : List UInt8 :=
  ['0', '1', '2', '3', '4', '5', '6', '7', '8', '9', 'a', 'b', 'c', 'd', 'e', 'f'].map Char.toUInt8

/-- The value of a digit. -/
def value (c : UInt8) : Option ℕ := (upper.idxOf? c).or (lower.idxOf? c)

/-- What holds of each of the 256 characters holds of all characters. -/
theorem forall_char {P : UInt8 → Prop} (h : ∀ n : Fin 256, P (UInt8.ofNat n)) (c : UInt8) :
    P c := by
  have hc := h ⟨c.toNat, c.toNat_lt⟩
  rwa [UInt8.ofNat_toNat] at hc

theorem value_lt (c : UInt8) : ∀ v ∈ value c, v < 16 :=
  forall_char (P := fun c => ∀ v ∈ value c, v < 16) (by decide +kernel) c

/-- A text for a list of bytes. -/
inductive Encodes : List UInt8 → List UInt8 → Prop
  | nil : Encodes [] []
  | cons {c₁ c₂ b : UInt8} {text bytes : List UInt8} (high : value c₁ = some (b.toNat / 16))
      (low : value c₂ = some (b.toNat % 16)) (rest : Encodes text bytes) :
      Encodes (c₁ :: c₂ :: text) (b :: bytes)

namespace Encodes

variable {text bytes : List UInt8}

theorem length_eq (h : Encodes text bytes) : text.length = 2 * bytes.length := by
  induction h with
  | nil => rfl
  | cons _ _ _ ih =>
      rw [List.length_cons, List.length_cons, List.length_cons, ih]
      omega

/-- One more byte. -/
theorem concat (h : Encodes text bytes) {c₁ c₂ b : UInt8} (high : value c₁ = some (b.toNat / 16))
    (low : value c₂ = some (b.toNat % 16)) : Encodes (text ++ [c₁, c₂]) (bytes ++ [b]) := by
  induction h with
  | nil => exact .cons high low .nil
  | cons high' low' _ ih => exact .cons high' low' ih

/-- Every character is a digit. -/
theorem isSome (h : Encodes text bytes) : ∀ c ∈ text, (value c).isSome := by
  induction h with
  | nil => nofun
  | cons high low _ ih =>
      intro c hc
      rcases List.mem_cons.mp hc with rfl | hc
      · rw [high, Option.isSome_some]
      · rcases List.mem_cons.mp hc with rfl | hc
        · rw [low, Option.isSome_some]
        · exact ih c hc

/-- The two digits of byte `k`. -/
theorem getElem (h : Encodes text bytes) {k : ℕ} {b : UInt8} (hk : bytes[k]? = some b) :
    ∃ c₁ c₂ high low, text[2 * k]? = some c₁ ∧ text[2 * k + 1]? = some c₂ ∧
      value c₁ = some high ∧ value c₂ = some low ∧ b.toNat = 16 * high + low := by
  induction h generalizing k with
  | nil => simp at hk
  | @cons c₁ c₂ b' text bytes high low _ ih =>
      rcases k with _ | k
      · have hb : b' = b := by simpa using hk
        subst hb
        exact ⟨c₁, c₂, _, _, rfl, rfl, high, low, by omega⟩
      · rw [show 2 * (k + 1) = 2 * k + 1 + 1 by omega]
        simpa using ih (by simpa using hk)

/-- A text stands for one list of bytes. -/
theorem unique (h : Encodes text bytes) {bytes' : List UInt8} (h' : Encodes text bytes') :
    bytes' = bytes := by
  induction h generalizing bytes' with
  | nil => cases h'; rfl
  | @cons c₁ c₂ b text bytes high low _ ih =>
      cases h' with
      | @cons _ _ b' _ _ high' low' rest' =>
          rw [high, Option.some.injEq] at high'
          rw [low, Option.some.injEq] at low'
          have hb : b' = b := UInt8.toNat_inj.mp (by omega)
          rw [hb, ih rest']

end Encodes

/-- The texts that stand for a list of bytes. -/
theorem exists_encodes {text : List UInt8} (heven : text.length % 2 = 0)
    (hdigits : ∀ c ∈ text, (value c).isSome) : ∃ bytes, Encodes text bytes := by
  match text with
  | [] => exact ⟨[], .nil⟩
  | [_] => simp at heven
  | c₁ :: c₂ :: rest =>
      have hrest : rest.length % 2 = 0 := by
        rw [List.length_cons, List.length_cons] at heven
        omega
      obtain ⟨bytes, hbytes⟩ :=
        exists_encodes hrest fun c hc => hdigits c (.tail _ (.tail _ hc))
      obtain ⟨high, hhigh⟩ := Option.isSome_iff_exists.mp (hdigits c₁ (.head _))
      obtain ⟨low, hlow⟩ := Option.isSome_iff_exists.mp (hdigits c₂ (.tail _ (.head _)))
      have hhigh_lt := value_lt c₁ high hhigh
      have hlow_lt := value_lt c₂ low hlow
      -- the byte with these halves
      have hb : (UInt8.ofNat (16 * high + low)).toNat = 16 * high + low := by
        rw [UInt8.toNat_ofNat', Nat.mod_eq_of_lt (by omega)]
      refine ⟨UInt8.ofNat (16 * high + low) :: bytes, .cons ?_ ?_ hbytes⟩
      · rw [hb, hhigh, show (16 * high + low) / 16 = high by omega]
      · rw [hb, hlow, show (16 * high + low) % 16 = low by omega]

end Hex
