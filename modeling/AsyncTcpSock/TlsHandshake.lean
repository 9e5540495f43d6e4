import AsyncTcpSock.TlsRules

/-!
# Verification of the peer

`runSSLHandshake` keeps the result of the handshake, the record expansion and the value it returns
in one variable. When the peer cannot be verified it returns what the variable happens to hold: 0
after a handshake without a certificate of the client, the record expansion after one with it.
-/

namespace AsyncTcpSock

open Reentrant Tls

/-! ## The property -/

/-- What a call of `runSSLHandshake` with outcomes `o` returns tells whether the peer has been
verified. -/
structure Verified (o : HandshakeOutcomes) (r : ℤ) : Prop where
  /-- Success means a completed handshake and a verified peer. -/
  success : r = 0 → o.sslHandshake = 0 ∧ o.sslGetVerifyResult = 0
  /-- A peer that cannot be verified is an error, and no reason to try again. -/
  failure : o.sslHandshake = 0 → o.sslGetVerifyResult ≠ 0 → r ≠ 0 ∧ canRetry r = false

/-- Both a certificate and a key of the client are loaded. -/
def StartArgs.hasOwnCert (a : StartArgs) : Bool :=
  !a.insecure && a.cliCert.isSome && a.cliKey.isSome

/-- The record expansion happens to be an error code that is no reason to try again. -/
def HandshakeOutcomes.expansionFails (o : HandshakeOutcomes) : Prop :=
  o.sslGetRecordExpansion ≠ 0 ∧ canRetry o.sslGetRecordExpansion = false

namespace TlsContext

variable {C : Contract TlsContext Empty ℤ} {s s' : TlsContext} {Q : Unit → TlsContext → Prop}

/-- The context after calls of `runSSLHandshake`. -/
def afterHandshakes (s : TlsContext) (calls : List HandshakeOutcomes) : TlsContext :=
  calls.foldl (fun s o => ((runSSLHandshake o).exec s).2) s

/-- The socket, and the flags for the certificate and the key of the client. -/
def view (s : TlsContext) : ℤ × Bool × Bool := (s.socket, s.haveClientCert, s.haveClientKey)

/-- `_deleteHandshakeCerts` clears the flags. -/
theorem view_deleted : s.deleted.view = (s.socket, false, false) :=
  Prod.ext deleted_socket (Prod.ext (deleted_has .clientCert) (deleted_has .clientKey))

/-! ## Starting -/

section

variable [TlsConfiguration]

/-- To set up the verification of the peer leaves the client's own certificate alone. -/
theorem wp_loadCredentials (a : StartArgs) (o : StartOutcomes)
    (hQ : ∀ s', s'.view = s.view → Q () s') (hfault : ∀ code s', code ≠ 0 → C.atFault code s') :
    wp C (loadCredentials a o) Q s := by
  rw [loadCredentials, wp_ite]
  split
  · exact hQ _ rfl
  · split
    · simp only [loadCaCert, wp_bind, wp_call, wp_modify, wp_failIf]
      exact ⟨fun h => hfault _ _ (by omega), fun _ => hQ _ rfl⟩
    · simp only [loadPsk, wp_bind, wp_returnIf]
      refine ⟨fun _ => hfault _ _ (by decide), fun _ => ?_⟩
      split
      · exact hfault _ _ (by decide)
      · simp only [wp_bind, wp_call, wp_returnIf, handleError_eq]
        exact ⟨fun h => hfault _ _ h, fun _ => hQ _ rfl⟩
    · exact hfault _ _ (by decide)

omit [TlsConfiguration] in
/-- The client's own certificate and key are loaded when both are given. -/
theorem wp_loadOwnCert (a : StartArgs) (o : StartOutcomes) {sck : ℤ}
    (hs : s.view = (sck, false, false))
    (hQ : ∀ s', s'.view = (sck, a.hasOwnCert, a.hasOwnCert) → Q () s')
    (hfault : ∀ code s', code ≠ 0 → C.atFault code s') : wp C (loadOwnCert a o) Q s := by
  rw [loadOwnCert, wp_ite]
  split
  · rename_i h
    have hown : a.hasOwnCert = true := by simpa [StartArgs.hasOwnCert, and_assoc] using h
    simp only [wp_bind, wp_call, wp_modify, wp_failIf]
    refine ⟨fun h => hfault _ _ (by omega), fun _ => ⟨fun h => hfault _ _ h, fun _ => hQ _ ?_⟩⟩
    rw [hown]
    exact congrArg (fun v => (v.1, true, true)) hs
  · rename_i h
    have hown : a.hasOwnCert = false := by
      simpa [StartArgs.hasOwnCert, and_assoc] using h
    refine hQ _ ?_
    rw [hown]
    exact hs

/-- A start that succeeds. -/
theorem view_start {a : StartArgs} {o : StartOutcomes}
    (hstart : (startSSLClient_ a o).exec new = (0, s)) :
    s.view = (a.sck, a.hasOwnCert, a.hasOwnCert) := by
  have hwp : wp (returning fun code s' => code = 0 → s'.view = (a.sck, a.hasOwnCert, a.hasOwnCert))
      (startSSLClient_ a o)
      (fun _ s' => (0 : ℤ) = 0 → s'.view = (a.sck, a.hasOwnCert, a.hasOwnCert)) new := by
    have hfault (code : ℤ) (s' : TlsContext) (hcode : code ≠ 0) :
        code = 0 → s'.view = (a.sck, a.hasOwnCert, a.hasOwnCert) := fun h => absurd h hcode
    simp only [startSSLClient_, wp_bind, wp_returnIf, wp_call, handleError_eq]
    refine ⟨fun _ => hfault _ _ (by decide), fun _ => ⟨fun _ => hfault _ _ (by decide), fun _ =>
      ⟨fun _ => hfault _ _ (by decide), fun _ => ⟨fun h => hfault _ _ (by omega), fun _ =>
      ⟨fun h => hfault _ _ h, fun _ => ?_⟩⟩⟩⟩⟩
    refine wp_loadCredentials a o (fun s₁ hs₁ => ?_) hfault
    refine wp_loadOwnCert a o hs₁ (fun s₂ hs₂ => ?_) hfault
    simp only [wp_failIf, wp_modify]
    refine ⟨fun h => hfault _ _ h, fun _ => ⟨fun h => hfault _ _ h, fun _ _ => ?_⟩⟩
    exact congrArg (fun v => (a.sck, v.2)) hs₂
  have hview := exec_of_wp hwp
  rw [hstart] at hview
  exact hview rfl

end

/-! ## Handshakes -/

/-- The value `runSSLHandshake` returns. -/
def handshakeCode (s : TlsContext) (o : HandshakeOutcomes) : ℤ := ((runSSLHandshake o).exec s).1

theorem wp_startTimer {o : HandshakeOutcomes} (hQ : ∀ s', s'.view = s.view → Q () s') :
    wp C (startTimer o) Q s := by
  simp only [startTimer, wp_bind, wp_get, wp_ite, wp_modify, wp_pure]
  split
  · exact hQ _ rfl
  · exact hQ _ rfl

/-- A call of `runSSLHandshake` on a socket: it does not change what later calls depend on, unless
the handshake is completed; then the flags are cleared. -/
theorem wp_runSSLHandshake {o : HandshakeOutcomes} {R : ℤ → TlsContext → Prop}
    (hclosed : s.socket < 0 → R (-1) s)
    (hpending : 0 ≤ s.socket → o.sslHandshake ≠ 0 → ∀ r s', r ≠ 0 → s'.view = s.view → R r s')
    (hcompleted : 0 ≤ s.socket → o.sslHandshake = 0 → ∀ s', s'.view = (s.socket, false, false) →
      R (if o.sslGetVerifyResult = 0 then 0
        else if s.haveClientCert = true ∧ s.haveClientKey = true then o.sslGetRecordExpansion
        else 0) s') :
    R ((runSSLHandshake o).exec s).1 ((runSSLHandshake o).exec s).2 := by
  refine exec_of_wp ?_
  simp only [runSSLHandshake, wp_bind, wp_get, wp_returnIf]
  refine ⟨hclosed, fun hopen => ?_⟩
  replace hopen : 0 ≤ s.socket := by omega
  refine wp_startTimer fun s₁ hs₁ => ?_
  rw [wp_call, wp_ite]
  split
  · rename_i hne
    simp only [handshakePending, wp_bind, wp_get, wp_returnIf, handleError_eq]
    exact ⟨fun _ => hpending hopen hne _ _ hne hs₁, fun _ =>
      ⟨fun _ => hpending hopen hne _ _ (by decide) hs₁, fun _ => hpending hopen hne _ _ hne hs₁⟩⟩
  · rename_i hzero
    have hzero : o.sslHandshake = 0 := by simpa using hzero
    obtain ⟨hsocket, hcert, hkey⟩ : s₁.socket = s.socket ∧ s₁.haveClientCert = s.haveClientCert ∧
        s₁.haveClientKey = s.haveClientKey := by simpa [view] using hs₁
    have hreturn (r : ℤ) (s₂ : TlsContext) (hs₂ : s₂.socket = s₁.socket)
        (hr : r = if o.sslGetVerifyResult = 0 then 0
          else if s.haveClientCert = true ∧ s.haveClientKey = true then o.sslGetRecordExpansion
          else 0) : R r s₂.deleted := by
      rw [hr]
      refine hcompleted hopen hzero _ ?_
      rw [view_deleted, hs₂, hsocket]
    -- a client with a certificate of its own overwrites the code of the handshake
    simp only [verifyPeer, retBeforeVerify, wp_bind, wp_get, wp_ite, wp_call, wp_pure, wp_failIf,
      wp_deleteHandshakeCerts, log_haveClientCert, log_haveClientKey, hcert, hkey]
    split
    · rename_i hown
      exact ⟨fun hbad => hreturn _ _ rfl (by rw [if_neg hbad, if_pos hown]),
        fun hgood => hreturn _ _ rfl (by rw [if_pos (by simpa using hgood)])⟩
    · rename_i hown
      exact ⟨fun hbad => hreturn _ _ rfl (by rw [if_neg hbad, if_neg hown, hzero]),
        fun hgood => hreturn _ _ rfl (by rw [if_pos (by simpa using hgood)])⟩

/-- What a call of `runSSLHandshake` leaves for later ones. -/
theorem view_runSSLHandshake (s : TlsContext) (o : HandshakeOutcomes) :
    ((runSSLHandshake o).exec s).2.view =
      if 0 ≤ s.socket ∧ o.sslHandshake = 0 then (s.socket, false, false) else s.view := by
  refine wp_runSSLHandshake (R := fun _ s' => s'.view =
    if 0 ≤ s.socket ∧ o.sslHandshake = 0 then (s.socket, false, false) else s.view) ?_ ?_ ?_
  · intro hclosed
    rw [if_neg (by omega)]
  · intro _ hne r s' _ hs'
    rw [if_neg (fun h => hne h.2), hs']
  · intro hopen hzero s' hs'
    rw [if_pos ⟨hopen, hzero⟩, hs']

/-- The client's own certificate and key survive the calls that do not complete the handshake. -/
theorem view_afterHandshakes {sck : ℤ} {own : Bool} (hsck : 0 ≤ sck)
    (hs : s.view = (sck, own, own)) (calls : List HandshakeOutcomes) :
    (s.afterHandshakes calls).view =
      (sck, own && calls.all (·.sslHandshake ≠ 0), own && calls.all (·.sslHandshake ≠ 0)) := by
  induction calls generalizing s own with
  | nil => simpa [afterHandshakes] using hs
  | cons o calls ih =>
      have hsocket : s.socket = sck := congrArg Prod.fst hs
      have hstep := view_runSSLHandshake s o
      rw [hsocket] at hstep
      rw [afterHandshakes, List.foldl_cons, ← afterHandshakes]
      by_cases hzero : o.sslHandshake = 0
      · rw [if_pos ⟨hsck, hzero⟩] at hstep
        rw [ih hstep]
        simp [hzero]
      · rw [if_neg (fun h => hzero h.2), hs] at hstep
        rw [ih hstep]
        simp [hzero]

/-- No call of `runSSLHandshake` opens or closes the socket. -/
theorem socket_afterHandshakes (calls : List HandshakeOutcomes) :
    (s.afterHandshakes calls).socket = s.socket := by
  induction calls generalizing s with
  | nil => rfl
  | cons o calls ih =>
      rw [afterHandshakes, List.foldl_cons, ← afterHandshakes, ih]
      have hstep := congrArg Prod.fst (view_runSSLHandshake s o)
      rwa [apply_ite Prod.fst, view, view, ite_self] at hstep

/-- When what a call of `runSSLHandshake` returns tells whether the peer has been verified. -/
theorem verified_handshakeCode (s : TlsContext) (o : HandshakeOutcomes) :
    Verified o (s.handshakeCode o) ↔
      (0 ≤ s.socket → o.sslHandshake = 0 → o.sslGetVerifyResult ≠ 0 →
        (s.haveClientCert = true ∧ s.haveClientKey = true) ∧ o.expansionFails) := by
  -- the call ends without a socket, with the code of the handshake, or with a verification
  refine wp_runSSLHandshake (R := fun r _ => Verified o r ↔
    (0 ≤ s.socket → o.sslHandshake = 0 → o.sslGetVerifyResult ≠ 0 →
      (s.haveClientCert = true ∧ s.haveClientKey = true) ∧ o.expansionFails)) ?_ ?_ ?_
  · intro hclosed
    exact iff_of_true ⟨fun h => absurd h (by decide), fun _ _ => by decide⟩
      (fun hopen => absurd hclosed (by omega))
  · intro _ hne r _ hr _
    exact iff_of_true ⟨fun h => absurd h hr, fun hzero => absurd hzero hne⟩
      (fun _ hzero => absurd hzero hne)
  · intro hopen hzero _ _
    split
    · rename_i hgood
      exact iff_of_true ⟨fun _ => ⟨hzero, hgood⟩, fun _ hbad => absurd hgood hbad⟩
        (fun _ _ hbad => absurd hgood hbad)
    · rename_i hbad
      split
      · -- the code is that of `mbedtls_ssl_get_record_expansion`, whatever the verification says
        rename_i hown
        exact ⟨fun h _ _ _ => ⟨hown, h.failure hzero hbad⟩,
          fun h => ⟨fun hr => absurd hr (h hopen hzero hbad).2.1,
            fun _ _ => (h hopen hzero hbad).2⟩⟩
      · rename_i hown
        exact iff_of_false (fun h => hbad (h.success rfl).2)
          (fun h => hown (h hopen hzero hbad).1)

/-! ## After a start that succeeds -/

section

variable [TlsConfiguration]

/-- After a secure start that succeeds and any calls of `runSSLHandshake`, a call tells whether the
peer has been verified if and only if it does not complete a handshake with a peer that cannot be
verified, or it is the first one to complete a handshake, with a certificate of the client, and the
record expansion happens to be an error. -/
theorem handshake_verifies_iff (e : TlsStart) (os : StartOutcomes)
    (hsecure : e.args.insecure = false) (hstart : (startSSLClient_ e.args os).exec new = (0, s))
    (calls : List HandshakeOutcomes) (o : HandshakeOutcomes) :
    Verified o ((s.afterHandshakes calls).handshakeCode o) ↔
      (0 ≤ e.args.sck → o.sslHandshake = 0 → o.sslGetVerifyResult ≠ 0 →
        (e.args.cliCert.isSome ∧ e.args.cliKey.isSome) ∧ (∀ c ∈ calls, c.sslHandshake ≠ 0) ∧
          o.expansionFails) := by
  have hview := view_start hstart
  have hsocket : s.socket = e.args.sck := congrArg Prod.fst hview
  have hown : e.args.hasOwnCert = true ↔ e.args.cliCert.isSome ∧ e.args.cliKey.isSome := by
    simp [StartArgs.hasOwnCert, hsecure]
  rw [verified_handshakeCode, socket_afterHandshakes, hsocket]
  refine forall_congr' fun hsck => forall_congr' fun _ => forall_congr' fun _ => ?_
  have hcalls := view_afterHandshakes hsck hview calls
  have hcert : (s.afterHandshakes calls).haveClientCert =
      (e.args.hasOwnCert && calls.all (·.sslHandshake ≠ 0)) := congrArg (·.2.1) hcalls
  have hkey : (s.afterHandshakes calls).haveClientKey =
      (e.args.hasOwnCert && calls.all (·.sslHandshake ≠ 0)) := congrArg (·.2.2) hcalls
  rw [hcert, hkey, and_self, Bool.and_eq_true, hown, and_assoc, List.all_eq_true]
  simp only [decide_eq_true_eq]

end

section

attribute [local instance] TlsConfiguration.esp32

/-- With a certificate of the client and a record expansion that is unknown, an unverified peer is
an error. -/
theorem handshake_verifies_own_cert :
    ∃ s, (startSSLClient_
        (TlsStart.buffers 3 none (some [1]) (some [2]) (some [3])).args {}).exec new = (0, s) ∧
      Verified { sslGetVerifyResult := 8, sslGetRecordExpansion := -0x6C00 }
        (s.handshakeCode { sslGetVerifyResult := 8, sslGetRecordExpansion := -0x6C00 }) :=
  ⟨_, rfl, (handshake_verifies_iff (.buffers 3 none (some [1]) (some [2]) (some [3])) {} rfl rfl []
    { sslGetVerifyResult := 8, sslGetRecordExpansion := -0x6C00 }).mpr
      fun _ _ _ => ⟨by decide, by simp, ⟨by decide, by decide⟩⟩⟩

/-- With a root certificate alone, an unverified peer is a success. -/
theorem not_handshake_verifies :
    ¬ ∀ (e : TlsStart) (os : StartOutcomes) (s : TlsContext), e.args.insecure = false →
      (startSSLClient_ e.args os).exec new = (0, s) →
      ∀ (calls : List HandshakeOutcomes) (o : HandshakeOutcomes),
        Verified o ((s.afterHandshakes calls).handshakeCode o) := by
  intro h
  have hverified := h (.pem 3 none (some [1]) none none) {} _ rfl rfl [] { sslGetVerifyResult := 8 }
  exact absurd (hverified.success (by decide)).2 (by decide)

end

end TlsContext

end AsyncTcpSock
