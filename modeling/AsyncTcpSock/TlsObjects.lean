import AsyncTcpSock.Reentrant.History
import AsyncTcpSock.TlsRules

/-!
# Objects of a TLS context

The mbedTLS objects of a context are initialised at different points: four by the time
`_startSSLClient` has passed its first checks, three only if the caller gave a certificate. The
destructor frees the first four without asking, and `entropy_ctx` is one of them.
-/

namespace AsyncTcpSock

open Reentrant Tls

/-! ## Lives of a context -/

/-- A call of a member function other than the ones that start. -/
inductive TlsUse where
  | handshake (o : HandshakeOutcomes)
  | write (ret : ℤ)
  | read (ret : ℤ)
  deriving Repr

/-- What a context is used for between its constructor and its destructor: it is started at most
once. -/
structure TlsLife where
  /-- The calls before the start. -/
  early : List TlsUse := []
  /-- The start, with what the library answers. -/
  start : Option (TlsStart × StartOutcomes) := none
  /-- The calls after the start. -/
  late : List TlsUse := []
  deriving Repr

namespace TlsContext

/-- A call of a member function. -/
def use (s : TlsContext) : TlsUse → TlsContext
  | .handshake o => ((runSSLHandshake o).exec s).2
  | .write ret => ((write ret).exec s).2
  | .read ret => ((read ret).exec s).2

variable [TlsConfiguration]

/-- The start, if there is one. -/
def started (s : TlsContext) : Option (TlsStart × StartOutcomes) → TlsContext
  | none => s
  | some (e, o) => ((startSSLClient_ e.args o).exec s).2

end TlsContext

open TlsContext

/-- The context at the end of its destructor. -/
def TlsLife.final [TlsConfiguration] (life : TlsLife) : TlsContext :=
  (destroy.exec (life.late.foldl use ((life.early.foldl use new).started life.start))).2

/-! ## The property -/

/-- If the newest call frees an object, then the object has been initialised. -/
def FreesInitialised : List TlsCall → Prop
  | .free x :: past => .init x ∈ past
  | _ => True

/-- The objects `_deleteHandshakeCerts` takes care of. -/
def handshakeCerts : List TlsObject := [.caCert, .clientCert, .clientKey]

/-- The calls of a context free no object that has not been initialised, and the certificates and
the key exactly once if they have been parsed. -/
structure Tidy (calls : List TlsCall) : Prop where
  /-- No object is freed before it has been initialised. -/
  initialised : Always FreesInitialised calls
  freed {x : TlsObject} (hx : x ∈ handshakeCerts) (hparse : .parse x ∈ calls) :
    calls.count (.free x) = 1
  once {x : TlsObject} (hx : x ∈ handshakeCerts) : calls.count (.free x) ≤ 1

/-- `_startSSLClient` gets as far as `mbedtls_entropy_init`. -/
def StartArgs.InitsEntropy (a : StartArgs) (o : StartOutcomes) : Prop :=
  (a.rootCABuff.isSome ∨ a.pskIdent.isSome ∨ a.psKey.isSome ∨ a.insecure) ∧
    0 ≤ o.noDelay ∧ 0 ≤ o.keepAlive

/-! ## The accounts of a context -/

/-- A call that is not on the accounts. -/
def TlsCall.Neutral : TlsCall → Prop
  | .init .entropy => False
  | .parse _ => False
  | .free _ => False
  | _ => True

/-- What the calls of a context and its flags have to do with each other before the destructor runs.
The objects in `unparsed` have not been parsed, and `entropy` says whether `entropy_ctx` has been
initialised. -/
structure Accounts (unparsed : List TlsObject) (entropy : Prop) (s : TlsContext) : Prop where
  /-- No object has been freed before it was initialised. -/
  initialised : Always FreesInitialised s.calls
  constructed {x : TlsObject} (hx : x ∈ [.ssl, .conf, .drbg]) : .init x ∈ s.calls
  /-- `entropy_ctx` has been initialised if and only if `entropy` holds. -/
  entropy : .init .entropy ∈ s.calls ↔ entropy
  /-- A flag is set for an initialised object. -/
  flagged {x : TlsObject} (hx : s.has x = true) : .init x ∈ s.calls
  /-- A parsed object has been freed unless its flag is set. -/
  balance (x : TlsObject) : s.calls.count (.free x) + (s.has x).toNat = s.calls.count (.parse x)
  /-- No object has been parsed twice. -/
  once (x : TlsObject) : s.calls.count (.parse x) ≤ 1
  unparsed {x : TlsObject} (hx : x ∈ unparsed) : .parse x ∉ s.calls

namespace Accounts

variable {s s' : TlsContext} {unparsed : List TlsObject} {entropy : Prop}
  {x : TlsObject}

/-- The constructor. -/
theorem new : Accounts handshakeCerts False new where
  initialised := by simp [TlsContext.new, FreesInitialised]
  constructed := by simp [TlsContext.new]
  entropy := by simp [TlsContext.new]
  flagged {x} hx := by cases x <;> simp [TlsContext.new, has] at hx
  balance x := by cases x <;> decide
  once x := by cases x <;> decide
  unparsed hx := by simp [TlsContext.new]

/-- Only the calls and the flags matter. -/
theorem congr (h : Accounts unparsed entropy s) (hcalls : s'.calls = s.calls)
    (hhas : s'.has = s.has) : Accounts unparsed entropy s' := by
  obtain ⟨h₁, h₂, h₃, h₄, h₅, h₆, h₇⟩ := h
  rw [← hcalls] at h₁ h₃
  simp only [← hcalls, ← hhas] at h₂ h₄ h₅ h₆ h₇
  exact ⟨h₁, h₂, h₃, h₄, h₅, h₆, h₇⟩

/-- A call that is not on the accounts. -/
theorem log (h : Accounts unparsed entropy s) (e : TlsCall) (he : e.Neutral) :
    Accounts unparsed entropy (s.log e) := by
  have hfree (x : TlsObject) : e ≠ .free x := by
    rintro rfl
    exact he
  have hparse (x : TlsObject) : e ≠ .parse x := by
    rintro rfl
    exact he
  have hentropy : e ≠ .init .entropy := by
    rintro rfl
    exact he
  refine ⟨?_, fun hx => .tail _ (h.constructed hx), ?_, fun hx => .tail _ (h.flagged hx),
    fun x => ?_, fun x => ?_, fun {x} hx => ?_⟩
  · refine always_cons.mpr ⟨?_, h.initialised⟩
    cases e <;> simp_all [FreesInitialised]
  · simpa [hentropy.symm] using h.entropy
  · simpa [List.count_cons, hfree, hparse] using h.balance x
  · simpa [List.count_cons, hparse] using h.once x
  · simpa [(hparse x).symm] using h.unparsed hx

/-- An object is initialised. -/
theorem init (h : Accounts unparsed entropy s) (x : TlsObject) (hx : x ≠ .entropy) :
    Accounts unparsed entropy (s.log (.init x)) :=
  h.log _ (by cases x <;> simp_all [TlsCall.Neutral])

/-- `entropy_ctx` is initialised. -/
theorem initEntropy (h : Accounts unparsed entropy s) :
    Accounts unparsed True (s.log (.init .entropy)) where
  initialised := always_cons.mpr ⟨trivial, h.initialised⟩
  constructed hx := .tail _ (h.constructed hx)
  entropy := by simp
  flagged hx := .tail _ (h.flagged (by simpa using hx))
  balance x := by simpa using h.balance x
  once x := by simpa using h.once x
  unparsed hx := by simpa using h.unparsed hx

/-- An object is parsed for the first time, and its flag set. -/
theorem parse (h : Accounts (x :: unparsed) entropy s) (hinit : .init x ∈ s.calls)
    (hx : x ∉ unparsed) (hcalls : s'.calls = .parse x :: s.calls)
    (hhas : s'.has = Function.update s.has x true) : Accounts unparsed entropy s' := by
  have hparse : s.calls.count (.parse x) = 0 := List.count_eq_zero.mpr (h.unparsed (.head _))
  -- it has not been freed, and its flag is not set
  have hbalance := h.balance x
  refine ⟨?_, fun hx => ?_, ?_, fun {y} hy => ?_, fun y => ?_, fun y => ?_, fun {y} hy => ?_⟩
  · rw [hcalls]
    exact always_cons.mpr ⟨trivial, h.initialised⟩
  · rw [hcalls]
    exact .tail _ (h.constructed hx)
  · rw [hcalls]
    simpa using h.entropy
  · rw [hcalls]
    by_cases hyx : y = x
    · subst hyx
      exact .tail _ hinit
    · rw [hhas, Function.update_of_ne hyx] at hy
      exact .tail _ (h.flagged hy)
  · rw [hcalls, hhas]
    by_cases hyx : y = x
    · subst hyx
      have hfree : s.calls.count (.free y) = 0 := by omega
      simp [hfree, hparse]
    · have hne : TlsCall.parse x ≠ .parse y := by simpa using Ne.symm hyx
      rw [Function.update_of_ne hyx, List.count_cons_of_ne hne]
      simpa using h.balance y
  · rw [hcalls]
    by_cases hyx : y = x
    · subst hyx
      simp [hparse]
    · rw [List.count_cons_of_ne (by simpa using Ne.symm hyx)]
      exact h.once y
  · rw [hcalls]
    have hyx : y ≠ x := fun hyx => hx (hyx ▸ hy)
    simpa [hyx] using h.unparsed (.tail _ hy)

/-- An object whose flag is set is freed. -/
theorem release (h : Accounts unparsed entropy s) (x : TlsObject) :
    Accounts unparsed entropy (s.release x) := by
  -- `release` frees an object once, and an object that is not there not at all
  by_cases hx : s.has x = true
  · have hcalls : (s.release x).calls = .free x :: s.calls := by rw [release_calls, if_pos hx]
    have hhas (y : TlsObject) (hy : (s.release x).has y = true) : s.has y = true := by
      rw [release_has] at hy
      by_cases hyx : y = x
      · rw [hyx, hx]
      · rwa [Function.update_of_ne hyx] at hy
    refine ⟨?_, fun hx => ?_, ?_, fun {y} hy => ?_, fun y => ?_, fun y => ?_, fun {y} hy => ?_⟩
    · rw [hcalls]
      exact always_cons.mpr ⟨h.flagged hx, h.initialised⟩
    · rw [hcalls]
      exact .tail _ (h.constructed hx)
    · rw [hcalls]
      simpa using h.entropy
    · rw [hcalls]
      exact .tail _ (h.flagged (hhas y hy))
    · have hbalance := h.balance y
      rw [hcalls, release_has]
      by_cases hyx : y = x
      · subst hyx
        simpa [hx] using hbalance
      · have hne : TlsCall.free x ≠ .free y := by simpa using Ne.symm hyx
        rw [Function.update_of_ne hyx, List.count_cons_of_ne hne]
        simpa using hbalance
    · rw [hcalls]
      simpa using h.once y
    · rw [hcalls]
      simpa using h.unparsed hy
  · have hsame : s.release x = s := if_neg hx
    rwa [hsame]

/-- `_deleteHandshakeCerts` -/
theorem deleted (h : Accounts unparsed entropy s) : Accounts unparsed entropy s.deleted :=
  ((h.release .caCert).release .clientCert).release .clientKey

/-- Fewer objects are known not to have been parsed. -/
theorem mono {unparsed' : List TlsObject} (h : Accounts unparsed entropy s)
    (hsub : unparsed' ⊆ unparsed) : Accounts unparsed' entropy s :=
  { h with unparsed := fun hx => h.unparsed (hsub hx) }

/-! ### Member functions -/

/-- The accounts are in order wherever a member function returns. -/
def returning (unparsed : List TlsObject) (entropy : Prop) : Contract TlsContext Empty ℤ :=
  Tls.returning fun _ s' => Accounts unparsed entropy s'

variable {Q : Unit → TlsContext → Prop}

/-- An exit that deletes the certificates. -/
theorem failIf {p : Prop} [Decidable p] {err : ℤ} (h : Accounts unparsed entropy s)
    (hQ : Q () s) : wp (returning unparsed entropy) (TlsContext.failIf p err) Q s := by
  rw [wp_failIf]
  exact ⟨fun _ => h.deleted, fun _ => hQ⟩

/-- `runSSLHandshake` -/
theorem runSSLHandshake (h : Accounts unparsed entropy s) (o : HandshakeOutcomes) :
    Accounts unparsed entropy ((TlsContext.runSSLHandshake o).exec s).2 := by
  refine exec_of_wp (R := fun _ s' => Accounts unparsed entropy s') ?_
  simp only [TlsContext.runSSLHandshake, startTimer, wp_bind, wp_get, wp_returnIf, wp_ite,
    wp_modify, wp_pure, wp_call]
  -- after the call of the library, with or without the timer started
  have hrest (s₁ : TlsContext) (h₁ : Accounts unparsed entropy s₁) :
      if o.sslHandshake ≠ 0 then
        wp (returning unparsed entropy) (handshakePending o)
          (fun _ s' => Accounts unparsed entropy s') (s₁.log .sslHandshake)
      else wp (returning unparsed entropy) (verifyPeer o)
          (fun _ s' => Accounts unparsed entropy s') (s₁.log .sslHandshake) := by
    have h₂ : Accounts unparsed entropy (s₁.log .sslHandshake) := h₁.log _ trivial
    split
    · simp only [handshakePending, wp_bind, wp_get, wp_returnIf]
      exact ⟨fun _ => h₂, fun _ => ⟨fun _ => h₂, fun _ => h₂⟩⟩
    · simp only [verifyPeer, retBeforeVerify, wp_bind, wp_get, wp_ite, wp_call, wp_pure]
      split
      · have h₃ := (h₂.log .sslGetRecordExpansion trivial).log .sslGetVerifyResult trivial
        exact h₃.failIf (by simpa using h₃.deleted)
      · have h₃ := h₂.log .sslGetVerifyResult trivial
        exact h₃.failIf (by simpa using h₃.deleted)
  refine ⟨fun _ => h, fun _ => ?_⟩
  split
  · exact hrest _ (h.congr rfl rfl)
  · exact hrest _ h

/-- A member function other than the ones that start. -/
theorem use (h : Accounts unparsed entropy s) (u : TlsUse) :
    Accounts unparsed entropy (s.use u) := by
  cases u with
  | handshake o => exact h.runSSLHandshake o
  | write ret =>
      refine exec_of_wp (m := write ret) (R := fun _ s' => Accounts unparsed entropy s') ?_
      simp only [write, wp_bind, wp_get, wp_returnIf, wp_call]
      exact ⟨fun _ => h, fun _ => h.log _ trivial⟩
  | read ret => exact h.log _ trivial

theorem uses (h : Accounts unparsed entropy s) (us : List TlsUse) :
    Accounts unparsed entropy (us.foldl TlsContext.use s) := by
  induction us generalizing s with
  | nil => exact h
  | cons u us ih => exact ih (h.use u)

section

variable [TlsConfiguration] {a : StartArgs} {o : StartOutcomes}

/-- The verification of the peer is set up. -/
theorem loadCredentials (h : Accounts handshakeCerts True s)
    (hQ : ∀ s', Accounts [.clientCert, .clientKey] True s' → Q () s') :
    wp (returning [] True) (TlsContext.loadCredentials a o) Q s := by
  have hfault : Accounts [] True s := h.mono (List.nil_subset _)
  have hrest : Accounts [.clientCert, .clientKey] True s := h.mono (List.subset_cons_self _ _)
  rw [TlsContext.loadCredentials, wp_ite]
  split
  · exact hQ _ (hrest.log _ trivial)
  · split
    · have hinit := (h.init .caCert (by decide)).log (.sslConfAuthmode true) trivial
      -- the certificate is held from here on, and freed with the rest when it did not parse
      have hparsed : Accounts [.clientCert, .clientKey] True
          { ((s.log (.init .caCert)).log (.sslConfAuthmode true)).log (.parse .caCert) with
            haveCaCert := true } := by
        refine hinit.parse (by simp) (by decide) rfl ?_
        funext x
        cases x <;> rfl
      simp only [loadCaCert, wp_bind, wp_call, wp_modify, wp_failIf]
      have hchain := hparsed.log .sslConfCaChain trivial
      exact ⟨fun _ => (hchain.mono (List.nil_subset _)).deleted, fun _ => hQ _ hchain⟩
    · simp only [loadPsk, wp_bind, wp_returnIf]
      refine ⟨fun _ => hfault, fun _ => ?_⟩
      split
      · exact hfault
      · simp only [wp_bind, wp_call, wp_returnIf]
        exact ⟨fun _ => hfault.log _ trivial, fun _ => hQ _ (hrest.log _ trivial)⟩
    · exact hfault

omit [TlsConfiguration] in
/-- The certificate and the key of the client are loaded. -/
theorem loadOwnCert (h : Accounts [.clientCert, .clientKey] True s)
    (hQ : ∀ s', Accounts [] True s' → Q () s') :
    wp (returning [] True) (TlsContext.loadOwnCert a o) Q s := by
  rw [TlsContext.loadOwnCert, wp_ite]
  split
  · have hinit := (h.init .clientCert (by decide)).init .clientKey (by decide)
    have hcert : Accounts [.clientKey] True
        { ((s.log (.init .clientCert)).log (.init .clientKey)).log (.parse .clientCert) with
          haveClientCert := true } := by
      refine hinit.parse (by simp) (by decide) rfl ?_
      funext x
      cases x <;> rfl
    have hkey : Accounts [] True
        { { ((s.log (.init .clientCert)).log (.init .clientKey)).log (.parse .clientCert) with
            haveClientCert := true }.log (.parse .clientKey) with haveClientKey := true } := by
      refine hcert.parse (by simp) (by decide) rfl ?_
      funext x
      cases x <;> rfl
    simp only [wp_bind, wp_call, wp_modify, wp_failIf]
    exact ⟨fun _ => (hcert.mono (List.nil_subset _)).deleted,
      fun _ => ⟨fun _ => hkey.deleted, fun _ => hQ _ (hkey.log _ trivial)⟩⟩
  · exact hQ _ (h.mono (List.nil_subset _))

/-- `_startSSLClient`, on a context that has not been started. -/
theorem startSSLClient_ (h : Accounts handshakeCerts False s) (a : StartArgs) (o : StartOutcomes) :
    Accounts [] (a.InitsEntropy o) ((TlsContext.startSSLClient_ a o).exec s).2 := by
  refine exec_of_wp (R := fun _ s' => Accounts [] (a.InitsEntropy o) s') ?_
  -- the exits ahead of `mbedtls_entropy_init`
  have hearly (hnot : ¬ a.InitsEntropy o) : Accounts [] (a.InitsEntropy o) s := by
    rw [eq_false hnot]
    exact h.mono (List.nil_subset _)
  simp only [TlsContext.startSSLClient_, wp_bind, wp_returnIf, wp_call]
  refine ⟨fun hnone => hearly ?_, fun hsome => ⟨fun hnoDelay => hearly ?_, fun hnoDelay =>
    ⟨fun hkeepAlive => hearly ?_, fun hkeepAlive => ?_⟩⟩⟩
  · rintro ⟨hcred, -⟩
    simp_all
  · rintro ⟨-, hle, -⟩
    omega
  · rintro ⟨-, -, hle⟩
    omega
  · have hcred : a.rootCABuff.isSome ∨ a.pskIdent.isSome ∨ a.psKey.isSome ∨ a.insecure := by
      by_contra hcred
      simp_all
    have hreached : a.InitsEntropy o := ⟨hcred, by omega, by omega⟩
    rw [eq_true hreached]
    have hseed := h.initEntropy.log .ctrDrbgSeed trivial
    have hdefaults := hseed.log .sslConfigDefaults trivial
    refine ⟨fun _ => hseed.mono (List.nil_subset _), fun _ =>
      ⟨fun _ => hdefaults.mono (List.nil_subset _), fun _ => ?_⟩⟩
    refine hdefaults.loadCredentials fun s₁ h₁ => ?_
    refine h₁.loadOwnCert fun s₂ h₂ => ?_
    have hhostname := h₂.log (.sslSetHostname a.hostOrIp) trivial
    refine hhostname.failIf ?_
    have hsetup := (hhostname.log .sslConfRng trivial).log .sslSetup trivial
    refine hsetup.failIf ?_
    have hsocket : Accounts [] True { ((s₂.log (.sslSetHostname a.hostOrIp)).log
        .sslConfRng).log .sslSetup with socket := a.sck } := hsetup.congr rfl rfl
    exact (hsocket.log .sslSetBio trivial).congr rfl rfl

/-- Whatever the context is used for, its accounts are in order before the destructor. -/
theorem life (life : TlsLife) :
    Accounts [] (∃ p, life.start = some p ∧ p.1.args.InitsEntropy p.2)
      (life.late.foldl TlsContext.use
        ((life.early.foldl TlsContext.use .new).started life.start)) := by
  refine Accounts.uses ?_ _
  have hearly := Accounts.new.uses life.early
  cases hstart : life.start with
  | none => simpa [started] using hearly.mono (List.nil_subset _)
  | some p => simpa [started] using hearly.startSSLClient_ p.1.args p.2

end

/-! ### The destructor -/

/-- The destructor takes care of the certificates and frees the other four objects. -/
theorem calls_destroy (s : TlsContext) : (destroy.exec s).2.calls =
    .free .entropy :: .free .drbg :: .free .conf :: .free .ssl :: s.deleted.calls := by
  refine exec_of_wp (m := destroy) (R := fun _ s' => s'.calls =
    .free .entropy :: .free .drbg :: .free .conf :: .free .ssl :: s.deleted.calls) ?_
  simp [destroy]

/-- The calls of a context are in order if and only if `entropy_ctx` has been initialised. -/
theorem tidy_destroy (h : Accounts unparsed entropy s) :
    Tidy (destroy.exec s).2.calls ↔ entropy := by
  have hdeleted := h.deleted
  rw [calls_destroy]
  have hcount (x : TlsObject) (hx : x ∈ handshakeCerts) :
      (TlsCall.free .entropy :: .free .drbg :: .free .conf :: .free .ssl ::
        s.deleted.calls).count (.free x) = s.deleted.calls.count (.parse x) := by
    have hbalance := hdeleted.balance x
    rw [deleted_has] at hbalance
    rw [← hbalance]
    cases x <;> simp_all [handshakeCerts]
  constructor
  · intro htidy
    -- the destructor frees the entropy, whether or not it has been initialised
    have hfree : TlsCall.init .entropy ∈ TlsCall.free .drbg :: .free .conf :: .free .ssl ::
        s.deleted.calls := htidy.initialised.now
    exact hdeleted.entropy.mp (by simpa using hfree)
  · intro hentropy
    have hinit := hdeleted.entropy.mpr hentropy
    have hssl := hdeleted.constructed (x := .ssl) (by decide)
    have hconf := hdeleted.constructed (x := .conf) (by decide)
    have hdrbg := hdeleted.constructed (x := .drbg) (by decide)
    refine ⟨?_, fun {x} hx hparse => ?_, fun {x} hx => ?_⟩
    · simp [FreesInitialised, hinit, hssl, hconf, hdrbg, hdeleted.initialised]
    · rw [hcount x hx]
      have hpos := List.count_pos_iff.mpr (show .parse x ∈ s.deleted.calls by simpa using hparse)
      exact le_antisymm (hdeleted.once x) hpos
    · rw [hcount x hx]
      exact hdeleted.once x

end Accounts

/-! ## Every life -/

/-- The calls of a context, from its constructor to the end of its destructor, are in order if and
only if it was started and `_startSSLClient` got as far as `mbedtls_entropy_init`. -/
theorem TlsLife.tidy_iff [TlsConfiguration] (life : TlsLife) :
    Tidy life.final.calls ↔ ∃ p, life.start = some p ∧ p.1.args.InitsEntropy p.2 :=
  (Accounts.life life).tidy_destroy

section

attribute [local instance] TlsConfiguration.esp32

/-- A context that is destroyed before it was started. -/
theorem TlsLife.not_tidy : ¬ ∀ life : TlsLife, Tidy life.final.calls := by
  intro h
  have hinit : TlsCall.init .entropy ∈ [TlsCall.free .drbg, .free .conf, .free .ssl, .init .drbg,
    .init .conf, .init .ssl] := (h {}).initialised.now
  exact absurd hinit (by decide)

end

end AsyncTcpSock
