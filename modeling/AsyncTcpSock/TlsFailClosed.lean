import AsyncTcpSock.TlsObjects

/-!
# A start that fails

`_startSSLClient` has an error exit after nearly every call. Whichever it takes, it leaves a context
without a socket and without certificates, on which `runSSLHandshake` and `write` do nothing. A
start that succeeds without the insecure flag has set up the verification of the peer.
-/

namespace AsyncTcpSock

open Reentrant Tls

namespace TlsContext

/-! ## The property -/

/-- The verification of the peer is set up: by a chain of certificates that is required, or by a
pre-shared key that mbedTLS has accepted. -/
def Authenticated (o : StartOutcomes) (s : TlsContext) : Prop :=
  (.sslConfCaChain ∈ s.calls ∧ .sslConfAuthmode true ∈ s.calls ∧ .sslConfAuthmode false ∉ s.calls ∧
      0 ≤ o.caParse) ∨
    ∃ psk pskIdent, .sslConfPsk psk pskIdent ∈ s.calls ∧ o.sslConfPsk = 0

/-- There is no socket, and no certificate or key is loaded. -/
structure Inert (s : TlsContext) : Prop where
  /-- There is no socket. -/
  socket : s.socket = -1
  /-- Nothing is loaded. -/
  has (x : TlsObject) : s.has x = false

variable {s : TlsContext} {o : StartOutcomes} {C : Contract TlsContext Empty ℤ}
  {Q : Unit → TlsContext → Prop}

theorem Authenticated.log (h : Authenticated o s) (e : TlsCall) (he : e ≠ .sslConfAuthmode false) :
    Authenticated o (s.log e) := by
  rcases h with ⟨hchain, hmode, hnone, hparse⟩ | ⟨psk, pskIdent, hpsk, hzero⟩
  · refine .inl ⟨.tail _ hchain, .tail _ hmode, ?_, hparse⟩
    rw [log_calls, List.mem_cons, not_or]
    exact ⟨he.symm, hnone⟩
  · exact .inr ⟨psk, pskIdent, .tail _ hpsk, hzero⟩

/-! ## Contexts without a socket -/

namespace Inert

theorem new : Inert new := ⟨rfl, fun x => by cases x <;> rfl⟩

theorem log (h : Inert s) (e : TlsCall) : Inert (s.log e) :=
  ⟨h.socket, fun x => by rw [log_has, h.has]⟩

/-- What `_deleteHandshakeCerts` leaves. -/
theorem deleted (h : s.socket = -1) : Inert s.deleted :=
  ⟨by rw [deleted_socket, h], deleted_has⟩

/-- `runSSLHandshake` returns before it calls mbedTLS. -/
theorem runSSLHandshake (h : Inert s) (o : HandshakeOutcomes) :
    (TlsContext.runSSLHandshake o).exec s = (-1, s) := by
  refine exec_of_wp (R := fun code s' => (code, s') = (-1, s)) ?_
  simp only [TlsContext.runSSLHandshake, wp_bind, wp_get, wp_returnIf]
  exact ⟨fun _ => rfl, fun hopen => absurd h.socket (by omega)⟩

/-- `write` returns before it calls mbedTLS. -/
theorem write (h : Inert s) (ret : ℤ) : (TlsContext.write ret).exec s = (-1, s) := by
  refine exec_of_wp (R := fun code s' => (code, s') = (-1, s)) ?_
  simp only [TlsContext.write, wp_bind, wp_get, wp_returnIf]
  exact ⟨fun _ => rfl, fun hopen => absurd h.socket (by omega)⟩

/-- A context without a socket stays as it is, but for the calls of `read`. -/
theorem use (h : Inert s) (u : TlsUse) : Inert (s.use u) := by
  cases u with
  | handshake o =>
      rw [TlsContext.use, h.runSSLHandshake]
      exact h
  | write ret =>
      rw [TlsContext.use, h.write]
      exact h
  | read ret => exact h.log .sslRead

theorem uses (h : Inert s) (us : List TlsUse) : Inert (us.foldl TlsContext.use s) := by
  induction us generalizing s with
  | nil => exact h
  | cons u us ih => exact ih (h.use u)

end Inert

/-! ## Starting -/

section

variable [TlsConfiguration] {a : StartArgs}

/-- The verification of the peer is set up, unless the caller does not want it. -/
theorem wp_loadCredentials_inert (hs : Inert s) (hmode : .sslConfAuthmode false ∉ s.calls)
    (hQ : ∀ s', s'.socket = -1 → (a.insecure = false → Authenticated o s') → Q () s')
    (hfault : ∀ code s', code ≠ 0 → Inert s' → C.atFault code s') :
    wp C (loadCredentials a o) Q s := by
  rw [loadCredentials, wp_ite]
  split
  · rename_i hinsecure
    -- without authentication there is nothing to show
    exact hQ _ hs.socket fun h => absurd hinsecure (by simp [h])
  · split
    · simp only [loadCaCert, wp_bind, wp_call, wp_modify, wp_failIf]
      refine ⟨fun h => hfault _ _ (by omega) (.deleted hs.socket), fun h => ?_⟩
      refine hQ _ hs.socket fun _ => .inl ⟨.head _, ?_, ?_, by omega⟩
      · exact .tail _ (.tail _ (.head _))
      · simpa using hmode
    · simp only [loadPsk, wp_bind, wp_returnIf]
      refine ⟨fun _ => hfault _ _ (by decide) hs, fun _ => ?_⟩
      split
      · exact hfault _ _ (by decide) hs
      · simp only [wp_bind, wp_call, wp_returnIf, handleError_eq]
        refine ⟨fun h => hfault _ _ h (hs.log _), fun h => ?_⟩
        exact hQ _ hs.socket fun _ => .inr ⟨_, _, .head _, by simpa using h⟩
    · exact hfault _ _ (by decide) hs

omit [TlsConfiguration] in
/-- The certificate and the key of the client make no difference to the verification of the peer. -/
theorem wp_loadOwnCert_inert (hsocket : s.socket = -1)
    (hs : a.insecure = false → Authenticated o s)
    (hQ : ∀ s', s'.socket = -1 → (a.insecure = false → Authenticated o s') → Q () s')
    (hfault : ∀ code s', code ≠ 0 → Inert s' → C.atFault code s') :
    wp C (loadOwnCert a o) Q s := by
  rw [loadOwnCert, wp_ite]
  split
  · simp only [wp_bind, wp_call, wp_modify, wp_failIf]
    refine ⟨fun h => hfault _ _ (by omega) (.deleted hsocket), fun _ =>
      ⟨fun h => hfault _ _ h (.deleted hsocket), fun _ => hQ _ hsocket fun hsecure => ?_⟩⟩
    -- five calls, none of which is `mbedtls_ssl_conf_authmode`
    have h₁ := ((hs hsecure).log (.init .clientCert) (by simp)).log (.init .clientKey) (by simp)
    have h₂ := (h₁.log (.parse .clientCert) (by simp)).log (.parse .clientKey) (by simp)
    exact h₂.log .sslConfOwnCert (by simp)
  · exact hQ _ hsocket hs

/-- `_startSSLClient` on a new context, with any arguments. -/
theorem start_authenticated_or_inert (a : StartArgs) (o : StartOutcomes) :
    (((startSSLClient_ a o).exec new).1 = 0 → a.insecure = false →
        Authenticated o ((startSSLClient_ a o).exec new).2) ∧
      (((startSSLClient_ a o).exec new).1 ≠ 0 → Inert ((startSSLClient_ a o).exec new).2) := by
  refine exec_of_wp (R := fun code s' =>
    (code = 0 → a.insecure = false → Authenticated o s') ∧ (code ≠ 0 → Inert s')) ?_
  have hfault (code : ℤ) (s' : TlsContext) (hcode : code ≠ 0) (hs' : Inert s') :
      (code = 0 → a.insecure = false → Authenticated o s') ∧ (code ≠ 0 → Inert s') :=
    ⟨fun h => absurd h hcode, fun _ => hs'⟩
  have hnew : Inert new := .new
  simp only [startSSLClient_, wp_bind, wp_returnIf, wp_call, handleError_eq]
  refine ⟨fun _ => hfault _ _ (by decide) hnew, fun _ => ⟨fun _ => hfault _ _ (by decide) hnew,
    fun _ => ⟨fun _ => hfault _ _ (by decide) hnew, fun _ => ?_⟩⟩⟩
  have hseeded : Inert ((new.log (.init .entropy)).log .ctrDrbgSeed) := (hnew.log _).log _
  refine ⟨fun h => hfault _ _ (by omega) hseeded, fun _ =>
    ⟨fun h => hfault _ _ h (hseeded.log _), fun _ => ?_⟩⟩
  -- the socket is set at the very end, so that a start that fails leaves none
  refine wp_loadCredentials_inert (hseeded.log _) (by simp [new]) (fun s₁ hsocket₁ hs₁ => ?_) hfault
  refine wp_loadOwnCert_inert hsocket₁ hs₁ (fun s₂ hsocket₂ hs₂ => ?_) hfault
  simp only [wp_failIf, wp_modify]
  refine ⟨fun h => hfault _ _ h (.deleted hsocket₂), fun _ =>
    ⟨fun h => hfault _ _ h (.deleted hsocket₂), fun _ => ⟨fun _ hsecure => ?_, by simp⟩⟩⟩
  -- the calls that end a start that succeeds
  have h₁ := ((hs₂ hsecure).log (.sslSetHostname a.hostOrIp) (by simp)).log .sslConfRng (by simp)
  exact (h₁.log .sslSetup (by simp)).log .sslSetBio (by simp)

/-- The start of a new context fails closed. If it succeeds and is not insecure, then the
verification of the peer is set up. If it fails, then there is no socket and no flag is set; and
however the context is used afterwards, `runSSLHandshake` and `write` return -1 without a call of
mbedTLS. -/
theorem start_fails_closed (e : TlsStart) (o : StartOutcomes) :
    let r := (startSSLClient_ e.args o).exec new
    (r.1 = 0 → e.args.insecure = false → Authenticated o r.2) ∧
      (r.1 ≠ 0 → Inert r.2 ∧ ∀ us : List TlsUse,
        let s := us.foldl use r.2
        (∀ o', (runSSLHandshake o').exec s = (-1, s)) ∧ ∀ ret, (write ret).exec s = (-1, s)) := by
  obtain ⟨hsuccess, hfailure⟩ := start_authenticated_or_inert e.args o
  refine ⟨hsuccess, fun hne => ⟨hfailure hne, fun us => ?_⟩⟩
  have hinert := (hfailure hne).uses us
  exact ⟨hinert.runSSLHandshake, hinert.write⟩

end

section

attribute [local instance] TlsConfiguration.esp32

/-- A start with a root certificate succeeds, and so does one with the pre-shared key `a0`; each has
set up the verification of the peer. -/
theorem start_fails_closed_secure :
    (∃ s, (startSSLClient_ (TlsStart.pem 3 none (some [1]) none none).args {}).exec new = (0, s) ∧
      Authenticated {} s) ∧
      ∃ s, (startSSLClient_ (TlsStart.psk 3 none (some [105]) (some [97, 48])).args {}).exec new =
        (0, s) ∧ Authenticated {} s :=
  ⟨⟨_, rfl, (start_fails_closed (.pem 3 none (some [1]) none none) {}).1 rfl rfl⟩,
    ⟨_, rfl, (start_fails_closed (.psk 3 none (some [105]) (some [97, 48])) {}).1 rfl rfl⟩⟩

end

end TlsContext

end AsyncTcpSock
