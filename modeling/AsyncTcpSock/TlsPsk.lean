import AsyncTcpSock.TlsRules
import AsyncTcpSock.Loops.Iterate
import AsyncTcpSock.Memory.Hex

/-!
# Pre-shared keys

`_startSSLClient` decodes a pre-shared key from hexadecimal text into a local array, with a test of
each character. `decodePsk` of the model works on lists; `pskLoop` is the loop as it stands in the
source, with its index, its array and every access to memory checked.

- `pskLoop_eq_decodePsk`: the loop stays within its memory and is `decodePsk`.
- `psk_decoding`: which keys are accepted, and which bytes are passed on.
-/

namespace AsyncTcpSock

open Reentrant Tls

namespace TlsContext

/-! ## The loop -/

/-- Why the loop is left early. -/
inductive PskError where
  /-- `return -1` -/
  | notHex
  /-- An access past the terminator of `psKey` or past the end of `psk`. -/
  | outOfBounds
  deriving DecidableEq, Repr

/-- The variables of the loop. -/
structure PskLoop where
  /-- The next character to read. -/
  j : ℕ
  /-- The buffer of the bytes. -/
  psk : List UInt8
  deriving DecidableEq, Repr

/-- Read a byte of memory. -/
def load (mem : List UInt8) (i : ℕ) : Except PskError UInt8 :=
  match mem[i]? with
  | some b => .ok b
  | none => .error .outOfBounds

/-- Write a byte of memory. -/
def store (mem : List UInt8) (i : ℕ) (b : UInt8) : Except PskError (List UInt8) :=
  if i < mem.length then .ok (mem.set i b) else .error .outOfBounds

/-- The conversion of a character. -/
def convert (c : UInt8) : Except PskError UInt8 :=
  match hexDigit c with
  | some d => .ok d
  | none => .error .notHex

/-- One round of the loop, over the string `psKey` with its terminator. -/
def pskRound (psKey : List UInt8) (st : PskLoop) : Except PskError PskLoop := do
  let c ← convert (← load (psKey ++ [0]) st.j)
  let psk ← store st.psk (st.j / 2) (c <<< 4)
  let c ← convert (← load (psKey ++ [0]) (st.j + 1))
  let psk ← store psk (st.j / 2) ((← load psk (st.j / 2)) ||| c)
  return ⟨st.j + 2, psk⟩

/-- The loop head, and one round. -/
def pskBody (psKey : List UInt8) (st : PskLoop) : PskLoop ⊕ Except PskError (List UInt8) :=
  if st.j < psKey.length then
    match pskRound psKey st with
    | .ok st' => .inl st'
    | .error e => .inr (.error e)
  else .inr (.ok st.psk)

/-- The loop on an array whose contents are `psk`, for at most `fuel` rounds. What it returns is the
array, of which the first half of `psKey.length` bytes are used. -/
def pskLoop (fuel : ℕ) (psKey psk : List UInt8) : Option (Except PskError (List UInt8)) :=
  Loops.iterate (pskBody psKey) fuel ⟨0, psk⟩

/-! ## Characters and bytes -/

/-- The three ranges are the digits. -/
theorem hexDigit_eq (c : UInt8) : hexDigit c = (Hex.value c).map UInt8.ofNat :=
  Hex.forall_char (P := fun c => hexDigit c = (Hex.value c).map UInt8.ofNat) (by decide +kernel) c

/-- The halves of a byte do not overlap. -/
theorem toNat_shift_or : ∀ high low : Fin 16,
    (UInt8.ofNat high <<< 4 ||| UInt8.ofNat low).toNat = 16 * high + low := by
  decide +kernel

theorem convert_of_value {c : UInt8} {v : ℕ} (h : Hex.value c = some v) :
    convert c = .ok (UInt8.ofNat v) := by
  rw [convert, hexDigit_eq, h, Option.map_some]

theorem convert_of_not_digit {c : UInt8} (h : Hex.value c = none) : convert c = .error .notHex := by
  rw [convert, hexDigit_eq, h, Option.map_none]

/-- Two digits make the byte of which they are the halves. -/
theorem encodes_halves {c₁ c₂ : UInt8} {high low : ℕ} (hhigh : Hex.value c₁ = some high)
    (hlow : Hex.value c₂ = some low) :
    Hex.value c₁ = some ((UInt8.ofNat high <<< 4 ||| UInt8.ofNat low).toNat / 16) ∧
      Hex.value c₂ = some ((UInt8.ofNat high <<< 4 ||| UInt8.ofNat low).toNat % 16) := by
  have hbyte := toNat_shift_or ⟨high, Hex.value_lt c₁ high hhigh⟩ ⟨low, Hex.value_lt c₂ low hlow⟩
  have hlow_lt := Hex.value_lt c₂ low hlow
  simp only at hbyte
  rw [hbyte, hhigh, hlow, Option.some.injEq, Option.some.injEq]
  omega

/-- `decodePsk` reverses every way to write bytes. -/
theorem decodePsk_of_encodes {psKey psk : List UInt8} (h : Hex.Encodes psKey psk) :
    decodePsk psKey = some psk := by
  induction h with
  | nil => rfl
  | @cons c₁ c₂ b text bytes high low _ ih =>
      have hbyte : UInt8.ofNat (b.toNat / 16) <<< 4 ||| UInt8.ofNat (b.toNat % 16) = b := by
        have hlt := b.toNat_lt
        have hbyte := toNat_shift_or ⟨b.toNat / 16, by omega⟩ ⟨b.toNat % 16, by omega⟩
        simp only at hbyte
        rw [← UInt8.toNat_inj, hbyte]
        omega
      simp only [decodePsk, hexDigit_eq, high, low, Option.map_some, Option.bind_eq_bind,
        Option.bind_some, ih, hbyte, Option.pure_def]

/-- `decodePsk` finds every character that is no digit. -/
theorem decodePsk_eq_none {psKey : List UInt8} (heven : psKey.length % 2 = 0) {c : UInt8}
    (hc : c ∈ psKey) (hdigit : Hex.value c = none) : decodePsk psKey = none := by
  match psKey with
  | [_] => simp at heven
  | c₁ :: c₂ :: rest =>
      have hrest : rest.length % 2 = 0 := by
        rw [List.length_cons, List.length_cons] at heven
        omega
      rcases List.mem_cons.mp hc with rfl | hc
      · simp [decodePsk, hexDigit_eq, hdigit]
      · rcases List.mem_cons.mp hc with rfl | hc
        · simp [decodePsk, hexDigit_eq, hdigit]
        · simp [decodePsk, decodePsk_eq_none hrest hc hdigit]

/-! ## The run of the loop -/

/-- What `decodePsk` returns, as a result of the loop. -/
def decoded (psKey : List UInt8) : Except PskError (List UInt8) :=
  match decodePsk psKey with
  | some psk => .ok psk
  | none => .error .notHex

/-- The loop invariant: the text read so far stands for the bytes written so far. -/
structure Decoding (psKey : List UInt8) (n : ℕ) (st : PskLoop) : Prop where
  /-- The characters are read in pairs. -/
  even : st.j % 2 = 0
  /-- The loop stays within the text. -/
  le : st.j ≤ psKey.length
  /-- The buffer keeps its length. -/
  length_eq : st.psk.length = n
  /-- The characters read stand for the bytes written. -/
  encodes : Hex.Encodes (psKey.take st.j) (st.psk.take (st.j / 2))

variable {psKey : List UInt8} {n : ℕ} {st : PskLoop}

/-- A round whose accesses are within bounds. -/
theorem pskRound_cases {c₁ c₂ : UInt8} (h₁ : (psKey ++ [0])[st.j]? = some c₁)
    (h₂ : (psKey ++ [0])[st.j + 1]? = some c₂) (hpsk : st.j / 2 < st.psk.length) :
    (Hex.value c₁ = none ∨ Hex.value c₂ = none) ∧ pskRound psKey st = .error .notHex ∨
      ∃ high low, Hex.value c₁ = some high ∧ Hex.value c₂ = some low ∧
        pskRound psKey st = .ok ⟨st.j + 2,
          st.psk.set (st.j / 2) (UInt8.ofNat high <<< 4 ||| UInt8.ofNat low)⟩ := by
  have hload₁ : load (psKey ++ [0]) st.j = .ok c₁ := by rw [load, h₁]
  have hload₂ : load (psKey ++ [0]) (st.j + 1) = .ok c₂ := by rw [load, h₂]
  have hstore {mem : List UInt8} (b : UInt8) (hmem : mem.length = st.psk.length) :
      store mem (st.j / 2) b = .ok (mem.set (st.j / 2) b) := by
    rw [store, if_pos (hmem.symm ▸ hpsk)]
  rw [pskRound]
  cases hhigh : Hex.value c₁ with
  | none =>
      refine .inl ⟨.inl rfl, ?_⟩
      simp only [hload₁, convert_of_not_digit hhigh, bind, Except.bind]
  | some high =>
      -- the high half is stored before the second character is looked at
      have hfirst : store st.psk (st.j / 2) (UInt8.ofNat high <<< 4) =
          .ok (st.psk.set (st.j / 2) (UInt8.ofNat high <<< 4)) := hstore _ rfl
      cases hlow : Hex.value c₂ with
      | none =>
          refine .inl ⟨.inr rfl, ?_⟩
          simp only [hload₁, hload₂, convert_of_value hhigh, convert_of_not_digit hlow, hfirst,
            bind, Except.bind]
      | some low =>
          refine .inr ⟨high, low, rfl, rfl, ?_⟩
          have hback : load (st.psk.set (st.j / 2) (UInt8.ofNat high <<< 4)) (st.j / 2) =
              .ok (UInt8.ofNat high <<< 4) := by
            rw [load, List.getElem?_set_self hpsk]
          simp only [hload₁, hload₂, convert_of_value hhigh, convert_of_value hlow, hfirst, hback,
            hstore _ (List.length_set ..), bind, Except.bind, pure, Except.pure, List.set_set]

/-- The characters of a round. -/
theorem Decoding.chars (h : Decoding psKey n st) (heven : psKey.length % 2 = 0)
    (hlt : st.j < psKey.length) :
    ∃ c₁ c₂, psKey[st.j]? = some c₁ ∧ psKey[st.j + 1]? = some c₂ := by
  have hj := h.even
  have hlt' : st.j + 1 < psKey.length := by omega
  exact ⟨psKey[st.j], psKey[st.j + 1], List.getElem?_eq_getElem hlt, List.getElem?_eq_getElem hlt'⟩

/-- A round that is not left. -/
theorem Decoding.next (h : Decoding psKey n st) {c₁ c₂ : UInt8} {high low : ℕ}
    (h₁ : psKey[st.j]? = some c₁) (h₂ : psKey[st.j + 1]? = some c₂)
    (hhigh : Hex.value c₁ = some high) (hlow : Hex.value c₂ = some low)
    (hpsk : st.j / 2 < st.psk.length) :
    Decoding psKey n ⟨st.j + 2,
      st.psk.set (st.j / 2) (UInt8.ofNat high <<< 4 ||| UInt8.ofNat low)⟩ where
  even := by
    have hj := h.even
    simp only
    omega
  le := by
    obtain ⟨hlt, -⟩ := List.getElem?_eq_some_iff.mp h₂
    exact hlt
  length_eq := by rw [List.length_set, h.length_eq]
  encodes := by
    obtain ⟨hhalf₁, hhalf₂⟩ := encodes_halves hhigh hlow
    have htext : psKey.take (st.j + 2) = psKey.take st.j ++ [c₁, c₂] := by
      rw [List.take_add_one, List.take_add_one, h₁, h₂, List.append_assoc]
      rfl
    -- two characters of the text have become one byte of the key
    have hbytes (b : UInt8) : (st.psk.set (st.j / 2) b).take ((st.j + 2) / 2) =
        st.psk.take (st.j / 2) ++ [b] := by
      rw [show (st.j + 2) / 2 = st.j / 2 + 1 by omega, List.take_add_one,
        List.take_set_of_le (Nat.le_refl _), List.getElem?_set_self hpsk]
      rfl
    simp only [htext, hbytes]
    exact h.encodes.concat hhalf₁ hhalf₂

/-- On a key of even length that fits into the array, the loop stays within the key with its
terminator and within the array, and is `decodePsk`. -/
theorem pskLoop_eq_decodePsk {psk : List UInt8} (heven : psKey.length % 2 = 0)
    (hlength : psKey.length ≤ 2 * psk.length) :
    ∃ r, r.map (·.take (psKey.length / 2)) = decoded psKey ∧
      ∀ fuel, psKey.length < fuel → pskLoop fuel psKey psk = some r := by
  have hstart : Decoding psKey psk.length ⟨0, psk⟩ :=
    ⟨rfl, Nat.zero_le _, rfl, by simpa using Hex.Encodes.nil⟩
  have hround (st : PskLoop) (h : Decoding psKey psk.length st) (hlt : st.j < psKey.length) :
      (∃ c ∈ psKey, Hex.value c = none) ∧ pskRound psKey st = .error .notHex ∨
        ∃ st', pskRound psKey st = .ok st' ∧ Decoding psKey psk.length st' ∧ st'.j = st.j + 2 := by
    obtain ⟨c₁, c₂, h₁, h₂⟩ := h.chars heven hlt
    have hpsk : st.j / 2 < st.psk.length := by
      rw [h.length_eq]
      omega
    have hmem {i : ℕ} {c : UInt8} (hi : psKey[i]? = some c) : (psKey ++ [0])[i]? = some c := by
      obtain ⟨hlt, -⟩ := List.getElem?_eq_some_iff.mp hi
      rw [List.getElem?_append_left hlt, hi]
    rcases pskRound_cases (hmem h₁) (hmem h₂) hpsk with
      ⟨hnone | hnone, herror⟩ | ⟨high, low, hhigh, hlow, hok⟩
    · exact .inl ⟨⟨c₁, List.mem_of_getElem? h₁, hnone⟩, herror⟩
    · exact .inl ⟨⟨c₂, List.mem_of_getElem? h₂, hnone⟩, herror⟩
    · exact .inr ⟨_, hok, h.next h₁ h₂ hhigh hlow hpsk, rfl⟩
  -- the loop reads two characters a round, and leaves at the first that is no digit
  refine Loops.iterate_terminates (Decoding psKey psk.length) (fun st => psKey.length - st.j) _
    ?_ ?_ hstart
  · intro st st' h hbody
    rw [pskBody] at hbody
    split at hbody
    · rename_i hlt
      rcases hround st h hlt with ⟨-, herror⟩ | ⟨st₁, hok, hst₁, hj⟩
      · rw [herror] at hbody
        cases hbody
      · rw [hok] at hbody
        cases hbody
        exact ⟨hst₁, by omega⟩
    · cases hbody
  · intro st r h hbody
    rw [pskBody] at hbody
    split at hbody
    · rename_i hlt
      rcases hround st h hlt with ⟨⟨c, hc, hnone⟩, herror⟩ | ⟨st₁, hok, -, -⟩
      · rw [herror] at hbody
        cases hbody
        rw [decoded, decodePsk_eq_none heven hc hnone]
        rfl
      · rw [hok] at hbody
        cases hbody
    · rename_i hge
      cases hbody
      -- the whole text has been read
      have hencodes := h.encodes
      rw [show st.j = psKey.length from Nat.le_antisymm h.le (Nat.le_of_not_lt hge),
        List.take_length] at hencodes
      rw [decoded, decodePsk_of_encodes hencodes]
      rfl

/-! ## The branch -/

/-- The keys and identities that have been passed to `mbedtls_ssl_conf_psk`, newest first. -/
def pskCalls (s : TlsContext) : List (List UInt8 × List UInt8) :=
  s.calls.filterMap fun
    | .sslConfPsk psk pskIdent => some (psk, pskIdent)
    | _ => none

variable [TlsConfiguration]

/-- The text of a key that fits into the array: an even number of digits. -/
def ValidPsk (psKey : List UInt8) : Prop :=
  psKey.length % 2 = 0 ∧ psKey.length ≤ 2 * TlsConfiguration.pskMaxLen ∧
    ∀ c ∈ psKey, (Hex.value c).isSome

end TlsContext

open TlsContext

/-- No call of `_startSSLClient` other than `mbedtls_ssl_conf_psk` reports an error, when it is
given no root certificate. -/
structure StartOutcomes.OthersSucceed (o : StartOutcomes) : Prop where
  noDelay : 0 ≤ o.noDelay
  keepAlive : 0 ≤ o.keepAlive
  ctrDrbgSeed : 0 ≤ o.ctrDrbgSeed
  sslConfigDefaults : o.sslConfigDefaults = 0
  certParse : 0 ≤ o.certParse
  keyParse : o.keyParse = 0
  sslSetHostname : o.sslSetHostname = 0
  sslSetup : o.sslSetup = 0

namespace TlsContext

section

variable [TlsConfiguration] {C : Contract TlsContext Empty ℤ} {s : TlsContext}
  {Q : Unit → TlsContext → Prop} {a : StartArgs} {o : StartOutcomes}

omit [TlsConfiguration] in
/-- The certificate and the key of the client are loaded without an error. -/
theorem wp_loadOwnCert_succeed (ho : o.OthersSucceed)
    (hQ : ∀ s', s'.pskCalls = s.pskCalls → Q () s') :
    wp C (loadOwnCert a o) Q s := by
  have hcert := ho.certParse
  rw [loadOwnCert, wp_ite]
  split
  · simp only [wp_bind, wp_call, wp_modify, wp_failIf]
    refine ⟨fun h => by omega, fun _ => ⟨fun h => absurd ho.keyParse h, fun _ => hQ _ rfl⟩⟩
  · exact hQ _ rfl

/-- What `_startSSLClient` does before and after it sets up the verification of the peer does not
show in `pskCalls`, if none of its calls fails. -/
theorem wp_startSSLClient_ (ho : o.OthersSucceed)
    (hcred : a.insecure = true ∨ a.rootCABuff.isSome ∨ a.pskIdent.isSome ∨ a.psKey.isSome)
    (hload : ∀ s₁, s₁.pskCalls = s.pskCalls →
      wp C (loadCredentials a o) (fun _ s₂ => ∀ s₃, s₃.pskCalls = s₂.pskCalls → Q () s₃) s₁) :
    wp C (startSSLClient_ a o) Q s := by
  have hnoDelay := ho.noDelay
  have hkeepAlive := ho.keepAlive
  have hseed := ho.ctrDrbgSeed
  simp only [startSSLClient_, wp_bind, wp_returnIf, wp_call]
  refine ⟨fun h => ?_, fun _ => ⟨fun _ => by omega, fun _ => ⟨fun _ => by omega, fun _ =>
    ⟨fun _ => by omega, fun _ => ⟨fun h => absurd ho.sslConfigDefaults h, fun _ => ?_⟩⟩⟩⟩⟩
  · obtain ⟨h₁, h₂, h₃, h₄⟩ := h
    rw [Bool.not_eq_true'] at h₄
    simp [h₁, h₂, h₃, h₄] at hcred
  · refine wp_mono (hload _ ?_) fun _ s₂ hs₂ => ?_
    · rfl
    refine wp_loadOwnCert_succeed ho fun s₃ hs₃ => ?_
    simp only [wp_failIf, wp_modify]
    exact ⟨fun h => absurd ho.sslSetHostname h, fun _ => ⟨fun h => absurd ho.sslSetup h, fun _ =>
      hs₂ _ hs₃⟩⟩

/-- The branch for a pre-shared key. -/
theorem wp_loadPsk {pskIdent psKey : List UInt8} (hreject : ¬ ValidPsk psKey → C.atFault (-1) s)
    (hfail : ∀ psk, Hex.Encodes psKey psk → ValidPsk psKey → o.sslConfPsk ≠ 0 →
      C.atFault o.sslConfPsk (s.log (.sslConfPsk psk pskIdent)))
    (haccept : ∀ psk, Hex.Encodes psKey psk → ValidPsk psKey → o.sslConfPsk = 0 →
      Q () (s.log (.sslConfPsk psk pskIdent))) :
    wp C (loadPsk o pskIdent psKey) Q s := by
  simp only [loadPsk, wp_bind, wp_returnIf]
  refine ⟨fun hlength => hreject ?_, fun hlength => ?_⟩
  · rintro ⟨heven, hle, -⟩
    omega
  · have heven : psKey.length % 2 = 0 := by omega
    -- the length is right, so that the digits decide
    by_cases hdigits : ∀ c ∈ psKey, (Hex.value c).isSome
    · obtain ⟨psk, hpsk⟩ := Hex.exists_encodes heven hdigits
      rw [decodePsk_of_encodes hpsk]
      have hvalid : ValidPsk psKey := ⟨heven, by omega, hdigits⟩
      simp only [wp_bind, wp_call, wp_returnIf, handleError_eq]
      exact ⟨hfail psk hpsk hvalid, fun h => haccept psk hpsk hvalid (by simpa using h)⟩
    · have hreject := hreject fun hvalid => hdigits hvalid.2.2
      obtain ⟨c, hc, hnone⟩ : ∃ c ∈ psKey, Hex.value c = none := by simpa using hdigits
      rw [decodePsk_eq_none heven hc hnone]
      exact hreject

/-- Which pre-shared keys `_startSSLClient` accepts, when none of its other calls fails, and which
bytes it passes on: the ones that the text stands for. Then it returns what `mbedtls_ssl_conf_psk`
does. Every text of the bytes gives them back, and the loop that decodes it keeps to its memory. -/
theorem psk_decoding (a : StartArgs) (o : StartOutcomes) (s : TlsContext)
    (pskIdent psKey : List UInt8) (hinsecure : a.insecure = false) (hca : a.rootCABuff = none)
    (hident : a.pskIdent = some pskIdent) (hkey : a.psKey = some psKey) (ho : o.OthersSucceed) :
    let r := (startSSLClient_ a o).exec s
    (¬ ValidPsk psKey → r.1 = -1 ∧ r.2.pskCalls = s.pskCalls) ∧
      (ValidPsk psKey → ∃ psk, r.1 = o.sslConfPsk ∧ r.2.pskCalls = (psk, pskIdent) :: s.pskCalls ∧
        psk.length = psKey.length / 2 ∧
        ∀ k b, psk[k]? = some b → ∃ c₁ c₂ high low, psKey[2 * k]? = some c₁ ∧
          psKey[2 * k + 1]? = some c₂ ∧ Hex.value c₁ = some high ∧ Hex.value c₂ = some low ∧
          b.toNat = 16 * high + low) ∧
      (∀ psk, Hex.Encodes psKey psk → psk.length ≤ TlsConfiguration.pskMaxLen →
        r.1 = o.sslConfPsk ∧ r.2.pskCalls = (psk, pskIdent) :: s.pskCalls) ∧
      (psKey.length % 2 = 0 → psKey.length ≤ 2 * TlsConfiguration.pskMaxLen →
        ∀ mem : List UInt8, mem.length = TlsConfiguration.pskMaxLen →
          ∃ e, (∀ fuel, psKey.length < fuel → pskLoop fuel psKey mem = some e) ∧
            e ≠ .error .outOfBounds ∧ e.map (·.take (psKey.length / 2)) = decoded psKey) := by
  intro r
  -- what the call does with the key, whichever of its exits it leaves by
  have hrun : (¬ ValidPsk psKey → r.1 = -1 ∧ r.2.pskCalls = s.pskCalls) ∧
      ∀ psk, Hex.Encodes psKey psk → ValidPsk psKey →
        r.1 = o.sslConfPsk ∧ r.2.pskCalls = (psk, pskIdent) :: s.pskCalls := by
    refine exec_of_wp (R := fun code s' =>
      (¬ ValidPsk psKey → code = -1 ∧ s'.pskCalls = s.pskCalls) ∧
        ∀ psk, Hex.Encodes psKey psk → ValidPsk psKey →
          code = o.sslConfPsk ∧ s'.pskCalls = (psk, pskIdent) :: s.pskCalls) ?_
    refine wp_startSSLClient_ ho (.inr (.inr (.inr (by rw [hkey]; rfl)))) fun s₁ hs₁ => ?_
    rw [loadCredentials, hinsecure, hca, hident, hkey]
    have hlog (psk : List UInt8) :
        (s₁.log (.sslConfPsk psk pskIdent)).pskCalls = (psk, pskIdent) :: s.pskCalls := by
      rw [← hs₁]
      rfl
    refine wp_loadPsk (fun hreject => ?_) (fun psk hpsk hvalid _ => ?_)
      fun psk hpsk hvalid hzero => ?_
    · -- the key is rejected before the library sees it
      exact ⟨fun _ => ⟨rfl, hs₁⟩, fun _ _ hvalid => absurd hvalid hreject⟩
    · -- the library refuses the key
      refine ⟨fun hreject => absurd hvalid hreject, fun psk' hpsk' _ => ⟨rfl, ?_⟩⟩
      rw [hlog, hpsk.unique hpsk']
    · -- the library takes the key, and what follows does not set another
      intro s₃ hs₃
      refine ⟨fun hreject => absurd hvalid hreject, fun psk' hpsk' _ => ⟨hzero.symm, ?_⟩⟩
      rw [hs₃, hlog, hpsk.unique hpsk']
  obtain ⟨hreject, haccept⟩ := hrun
  refine ⟨hreject, fun hvalid => ?_, fun psk hpsk hle => ?_, fun heven hle mem hmem => ?_⟩
  · obtain ⟨psk, hpsk⟩ := Hex.exists_encodes hvalid.1 hvalid.2.2
    obtain ⟨hzero, hcalls⟩ := haccept psk hpsk hvalid
    have hlength := hpsk.length_eq
    exact ⟨psk, hzero, hcalls, by omega, fun k b hk => hpsk.getElem hk⟩
  · have hlength := hpsk.length_eq
    exact haccept psk hpsk ⟨by omega, by omega, hpsk.isSome⟩
  · -- the loop stays within the buffer, whatever this holds when it begins
    obtain ⟨e, he, hloop⟩ := pskLoop_eq_decodePsk heven (hmem ▸ hle)
    refine ⟨e, hloop, ?_, he⟩
    rintro rfl
    rw [decoded] at he
    split at he <;> cases he

end

section

attribute [local instance] TlsConfiguration.esp32

/-- The key `0aFf` is passed on as two bytes. -/
theorem psk_decoding_mixed_case :
    ∃ s, (startSSLClient_
        (TlsStart.psk 3 none (some [105]) (some [48, 97, 70, 102])).args {}).exec new = (0, s) ∧
      s.pskCalls = [([10, 255], [105])] := by
  have h := (psk_decoding (TlsStart.psk 3 none (some [105]) (some [48, 97, 70, 102])).args {} new
    [105] [48, 97, 70, 102] rfl rfl rfl rfl (by constructor <;> decide)).2.2.1 [10, 255]
    (.cons (by decide) (by decide) (.cons (by decide) (by decide) .nil)) (by decide)
  exact ⟨_, Prod.ext h.1 rfl, h.2⟩

end

end TlsContext

end AsyncTcpSock
