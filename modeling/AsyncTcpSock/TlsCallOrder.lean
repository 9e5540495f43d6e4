import AsyncTcpSock.TlsFailClosed

/-!
# The order of the mbedTLS calls

mbedTLS wants its functions called in a certain order: an object is initialised before it is
parsed, the configuration is complete before the context is set up, and a session needs a context
that has been set up and given its callbacks. The member functions that end in a session look at
`_socket` first, and a start that fails leaves none. `read` is the one that does not look.
-/

namespace AsyncTcpSock

open Reentrant Tls

/-! ## The order -/

/-- The calls that must have been made before. -/
def TlsCall.requires : TlsCall → List TlsCall
  | .init _ => []
  | .free _ => []
  | .parse x => [.init x]
  | .ctrDrbgSeed => [.init .drbg, .init .entropy]
  | .sslConfigDefaults => [.init .conf]
  | .sslConfAuthmode _ => [.sslConfigDefaults]
  | .sslConfCaChain => [.sslConfigDefaults, .parse .caCert]
  | .sslConfPsk _ _ => [.sslConfigDefaults]
  | .sslConfOwnCert => [.sslConfigDefaults, .parse .clientCert, .parse .clientKey]
  | .sslSetHostname _ => [.init .ssl]
  | .sslConfRng => [.sslConfigDefaults, .ctrDrbgSeed]
  | .sslSetup => [.init .ssl, .sslConfRng]
  | .sslSetBio => [.sslSetup]
  | .sslHandshake => [.sslSetBio]
  | .sslGetRecordExpansion => [.sslHandshake]
  | .sslGetVerifyResult => [.sslHandshake]
  | .sslWrite => [.sslSetBio]
  | .sslRead => [.sslSetBio]

/-- The calls that must not come after `mbedtls_ssl_setup`, itself among them. -/
def TlsCall.configures : TlsCall → Bool
  | .sslConfigDefaults | .sslConfAuthmode _ | .sslConfCaChain | .sslConfPsk _ _ | .sslConfOwnCert
  | .sslConfRng | .sslSetup => true
  | _ => false

/-- The newest call comes in its turn. -/
def CallInTurn : List TlsCall → Prop
  | e :: past => (∀ r ∈ e.requires, r ∈ past) ∧ (e.configures = true → .sslSetup ∉ past)
  | [] => True

/-- A call of `read`. -/
def TlsUse.IsRead (u : TlsUse) : Prop := ∃ ret, u = .read ret

/-- `_startSSLClient` has returned 0. -/
def TlsLife.Started [TlsConfiguration] (life : TlsLife) : Prop :=
  ∃ p, life.start = some p ∧
    ((TlsContext.startSSLClient_ p.1.args p.2).exec (life.early.foldl TlsContext.use .new)).1 = 0

/-! ## Before the destructor -/

/-- The calls of a context come in turn if and only if `inTurn` holds, and it is ready for a session
if and only if `ready` holds. -/
structure CallOrder (ready inTurn : Prop) (s : TlsContext) : Prop where
  constructed {x : TlsObject} (hx : x ∈ [.ssl, .conf, .drbg]) : .init x ∈ s.calls
  /-- The session has been given its socket if and only if it is ready. -/
  bio : .sslSetBio ∈ s.calls ↔ ready
  /-- A context with a socket is ready. -/
  socket : 0 ≤ s.socket → ready
  /-- Each call comes after those it requires if and only if the uses are in turn. -/
  ordered : Always CallInTurn s.calls ↔ inTurn

namespace CallOrder

variable {s s' : TlsContext} {ready inTurn : Prop} {e : TlsCall}

/-- The constructor makes its calls in turn. -/
theorem new : CallOrder False True .new where
  constructed := by simp [TlsContext.new]
  bio := by simp [TlsContext.new]
  socket := by simp [TlsContext.new]
  ordered := by simp [TlsContext.new, CallInTurn, TlsCall.requires, TlsCall.configures]

/-- Only the calls and the socket matter. -/
theorem congr (h : CallOrder ready inTurn s) (hcalls : s'.calls = s.calls)
    (hsocket : s'.socket = s.socket) : CallOrder ready inTurn s' := by
  obtain ⟨h₁, h₂, h₃, h₄⟩ := h
  rw [← hcalls] at h₂ h₄
  rw [← hsocket] at h₃
  simp only [← hcalls] at h₁
  exact ⟨h₁, h₂, h₃, h₄⟩

/-- A call that comes in its turn. -/
theorem log (h : CallOrder ready inTurn s) (hrequires : ∀ r ∈ e.requires, r ∈ s.calls)
    (hconfigures : e.configures = true → .sslSetup ∉ s.calls) (hbio : e ≠ .sslSetBio) :
    CallOrder ready inTurn (s.log e) where
  constructed hx := .tail _ (h.constructed hx)
  bio := by
    rw [TlsContext.log_calls, List.mem_cons, or_iff_right hbio.symm]
    exact h.bio
  socket := h.socket
  ordered := by
    rw [TlsContext.log_calls, always_cons, and_iff_right ⟨hrequires, hconfigures⟩]
    exact h.ordered

/-- A call of a session that has begun. -/
theorem session (h : CallOrder ready inTurn s) (hready : ready)
    (hrequires : e.requires = [.sslSetBio]) (hconfigures : e.configures = false) :
    CallOrder ready inTurn (s.log e) := by
  apply h.log
  · rw [hrequires]
    exact List.forall_mem_singleton.mpr (h.bio.mpr hready)
  · intro hconf
    rw [hconf] at hconfigures
    cases hconfigures
  · rintro rfl
    cases hrequires

/-- A call that requires nothing. -/
theorem plain (h : CallOrder ready inTurn s) (hrequires : e.requires = [])
    (hconfigures : e.configures = false) : CallOrder ready inTurn (s.log e) := by
  apply h.log
  · rw [hrequires]
    intro r hr
    cases hr
  · intro hconf
    rw [hconf] at hconfigures
    cases hconfigures
  · rintro rfl
    cases hrequires

/-- An object may be freed. -/
theorem release (h : CallOrder ready inTurn s) (x : TlsObject) :
    CallOrder ready inTurn (s.release x) := by
  rw [TlsContext.release]
  split
  · exact (h.plain (e := .free x) rfl rfl).congr (TlsContext.unset_calls x)
      (TlsContext.unset_socket x)
  · exact h

/-- `_deleteHandshakeCerts` -/
theorem deleted (h : CallOrder ready inTurn s) : CallOrder ready inTurn s.deleted :=
  ((h.release .caCert).release .clientCert).release .clientKey

/-! ### Sessions -/

/-- `runSSLHandshake` -/
theorem runSSLHandshake (h : CallOrder ready inTurn s) (o : HandshakeOutcomes) :
    CallOrder ready inTurn ((TlsContext.runSSLHandshake o).exec s).2 := by
  refine exec_of_wp (R := fun _ s' => CallOrder ready inTurn s') ?_
  simp only [TlsContext.runSSLHandshake, TlsContext.startTimer, wp_bind, wp_get, wp_returnIf,
    wp_ite, wp_modify, wp_pure, wp_call]
  refine ⟨fun _ => h, fun hopen => ?_⟩
  have hready : ready := h.socket (Int.not_lt.mp hopen)
  have hrest (s₁ : TlsContext) (h₁ : CallOrder ready inTurn s₁) :
      if o.sslHandshake ≠ 0 then
        wp (returning fun _ s' => CallOrder ready inTurn s') (TlsContext.handshakePending o)
          (fun _ s' => CallOrder ready inTurn s') (s₁.log .sslHandshake)
      else wp (returning fun _ s' => CallOrder ready inTurn s') (TlsContext.verifyPeer o)
          (fun _ s' => CallOrder ready inTurn s') (s₁.log .sslHandshake) := by
    have h₂ : CallOrder ready inTurn (s₁.log .sslHandshake) := h₁.session hready rfl rfl
    split
    · simp only [TlsContext.handshakePending, wp_bind, wp_get, wp_returnIf]
      exact ⟨fun _ => h₂, fun _ => ⟨fun _ => h₂, fun _ => h₂⟩⟩
    · simp only [TlsContext.verifyPeer, TlsContext.retBeforeVerify, wp_bind, wp_get, wp_ite,
        wp_call, wp_pure, TlsContext.wp_failIf, TlsContext.wp_deleteHandshakeCerts]
      -- the handshake has just been made
      split
      · have h₃ := h₂.log (e := .sslGetRecordExpansion)
          (List.forall_mem_singleton.mpr (.head _)) (by simp [TlsCall.configures]) (by simp)
        have h₄ := h₃.log (e := .sslGetVerifyResult)
          (List.forall_mem_singleton.mpr (.tail _ (.head _))) (by simp [TlsCall.configures])
          (by simp)
        exact ⟨fun _ => h₄.deleted, fun _ => h₄.deleted⟩
      · have h₃ := h₂.log (e := .sslGetVerifyResult)
          (List.forall_mem_singleton.mpr (.head _)) (by simp [TlsCall.configures]) (by simp)
        exact ⟨fun _ => h₃.deleted, fun _ => h₃.deleted⟩
  split
  · exact hrest _ (h.congr rfl rfl)
  · exact hrest _ h

/-- `write` -/
theorem write (h : CallOrder ready inTurn s) (ret : ℤ) :
    CallOrder ready inTurn ((TlsContext.write ret).exec s).2 := by
  refine exec_of_wp (R := fun _ s' => CallOrder ready inTurn s') ?_
  simp only [TlsContext.write, wp_bind, wp_get, wp_returnIf, wp_call]
  exact ⟨fun _ => h, fun hopen => h.session (h.socket (Int.not_lt.mp hopen)) rfl rfl⟩

/-- `read` reads from the context whether or not it is ready. -/
theorem read (h : CallOrder ready inTurn s) (ret : ℤ) :
    CallOrder ready (inTurn ∧ ready) ((TlsContext.read ret).exec s).2 where
  constructed hx := .tail _ (h.constructed hx)
  bio := by
    refine Iff.trans ?_ h.bio
    exact List.mem_cons.trans (or_iff_right (by simp))
  socket := h.socket
  ordered := by
    refine (always_cons.trans and_comm).trans (and_congr h.ordered ?_)
    simp only [CallInTurn, TlsCall.requires, TlsCall.configures, List.mem_singleton, forall_eq]
    simpa using h.bio

/-- A use is in turn unless it is a `read` before the context is ready. -/
theorem use (h : CallOrder ready inTurn s) (u : TlsUse) :
    CallOrder ready (inTurn ∧ (u.IsRead → ready)) (s.use u) := by
  cases u with
  | handshake o => simpa [TlsUse.IsRead, TlsContext.use] using h.runSSLHandshake o
  | write ret => simpa [TlsUse.IsRead, TlsContext.use] using h.write ret
  | read ret => simpa [TlsUse.IsRead, TlsContext.use] using h.read ret

/-- The same for any uses. -/
theorem uses (h : CallOrder ready inTurn s) (us : List TlsUse) :
    CallOrder ready (inTurn ∧ ∀ u ∈ us, u.IsRead → ready) (us.foldl TlsContext.use s) := by
  induction us generalizing s inTurn with
  | nil => simpa using h
  | cons u us ih => simpa [and_assoc] using ih (h.use u)

end CallOrder

/-! ### The start -/

/-- The context is being configured. -/
structure Configuring (inTurn : Prop) (s : TlsContext) : Prop
    extends CallOrder False inTurn s where
  /-- The random generator has been seeded. -/
  seeded : .ctrDrbgSeed ∈ s.calls
  /-- The configuration has its defaults. -/
  defaults : .sslConfigDefaults ∈ s.calls
  /-- The session has not been set up. -/
  unset : .sslSetup ∉ s.calls

namespace Configuring

variable {s s' : TlsContext} {inTurn : Prop} {e : TlsCall} {C : Contract TlsContext Empty ℤ}
  {Q : Unit → TlsContext → Prop} {a : StartArgs} {o : StartOutcomes}

/-- Only the calls and the socket matter. -/
theorem congr (h : Configuring inTurn s) (hcalls : s'.calls = s.calls)
    (hsocket : s'.socket = s.socket) : Configuring inTurn s' where
  toCallOrder := h.toCallOrder.congr hcalls hsocket
  seeded := hcalls ▸ h.seeded
  defaults := hcalls ▸ h.defaults
  unset := hcalls ▸ h.unset

/-- One more call of the configuration comes in turn. -/
theorem log (h : Configuring inTurn s) (hrequires : ∀ r ∈ e.requires, r ∈ s.calls)
    (hbio : e ≠ .sslSetBio) (hsetup : e ≠ .sslSetup) : Configuring inTurn (s.log e) where
  toCallOrder := h.toCallOrder.log hrequires (fun _ => h.unset) hbio
  seeded := .tail _ h.seeded
  defaults := .tail _ h.defaults
  unset := by
    rw [TlsContext.log_calls, List.mem_cons, not_or]
    exact ⟨hsetup.symm, h.unset⟩

/-- A call that wants a configuration with its defaults. -/
theorem configure (h : Configuring inTurn s) (hrequires : e.requires = [.sslConfigDefaults]) :
    Configuring inTurn (s.log e) := by
  apply h.log
  · rw [hrequires]
    exact List.forall_mem_singleton.mpr h.defaults
  · rintro rfl
    cases hrequires
  · rintro rfl
    cases hrequires

/-- An object is initialised and parsed. -/
theorem init (h : Configuring inTurn s) (x : TlsObject) :
    Configuring inTurn (s.log (.init x)) :=
  h.log (e := .init x) (List.forall_mem_nil _) (by simp) (by simp)

/-- An object that is initialised may be parsed. -/
theorem parse (h : Configuring inTurn s) {x : TlsObject} (hx : .init x ∈ s.calls) :
    Configuring inTurn (s.log (.parse x)) :=
  h.log (e := .parse x) (List.forall_mem_singleton.mpr hx) (by simp) (by simp)

variable [TlsConfiguration]

/-- The credentials are loaded in turn. -/
theorem loadCredentials (h : Configuring inTurn s)
    (hQ : ∀ s', Configuring inTurn s' → Q () s')
    (hfault : ∀ code s', code ≠ 0 → CallOrder False inTurn s' → C.atFault code s') :
    wp C (TlsContext.loadCredentials a o) Q s := by
  rw [TlsContext.loadCredentials, wp_ite]
  split
  · exact hQ _ (h.configure rfl)
  · split
    · simp only [TlsContext.loadCaCert, wp_bind, wp_call, wp_modify, TlsContext.wp_failIf]
      have hparse := ((h.init .caCert).configure (e := .sslConfAuthmode true) rfl).parse
        (x := .caCert) (.tail _ (.head _))
      have hchain := hparse.log (e := .sslConfCaChain) (List.forall_mem_cons.mpr
        ⟨hparse.defaults, List.forall_mem_singleton.mpr (.head _)⟩) (by simp) (by simp)
      -- the flag of the certificate makes no difference to the order
      refine ⟨fun hret => hfault _ _ (Int.ne_of_lt hret) ?_, fun _ => hQ _ (hchain.congr rfl rfl)⟩
      apply CallOrder.deleted
      exact hchain.toCallOrder.congr rfl rfl
    · rename_i pskIdent psKey _ _ _
      simp only [TlsContext.loadPsk, wp_bind, wp_returnIf]
      refine ⟨fun _ => hfault _ _ (by decide) h.toCallOrder, fun _ => ?_⟩
      split
      · exact hfault _ _ (by decide) h.toCallOrder
      · rename_i psk _
        simp only [wp_bind, wp_call, wp_returnIf, TlsContext.handleError_eq]
        have hpsk := h.configure (e := .sslConfPsk psk pskIdent) rfl
        exact ⟨fun hret => hfault _ _ hret hpsk.toCallOrder, fun _ => hQ _ hpsk⟩
    · exact hfault _ _ (by decide) h.toCallOrder

omit [TlsConfiguration] in
/-- The certificate of the client is loaded in turn. -/
theorem loadOwnCert (h : Configuring inTurn s)
    (hQ : ∀ s', Configuring inTurn s' → Q () s')
    (hfault : ∀ code s', code ≠ 0 → CallOrder False inTurn s' → C.atFault code s') :
    wp C (TlsContext.loadOwnCert a o) Q s := by
  rw [TlsContext.loadOwnCert, wp_ite]
  split
  · simp only [wp_bind, wp_call, wp_modify, TlsContext.wp_failIf]
    have hcert := ((h.init .clientCert).init .clientKey).parse (x := .clientCert)
      (.tail _ (.head _))
    have hkey := hcert.parse (x := .clientKey) (.tail _ (.head _))
    have hown := hkey.log (e := .sslConfOwnCert) (List.forall_mem_cons.mpr ⟨hkey.defaults,
      List.forall_mem_cons.mpr ⟨.tail _ (.head _), List.forall_mem_singleton.mpr (.head _)⟩⟩)
      (by simp) (by simp)
    refine ⟨fun hret => hfault _ _ (Int.ne_of_lt hret) ?_, fun _ => ⟨fun hret => hfault _ _ hret ?_,
      fun _ => hQ _ (hown.congr rfl rfl)⟩⟩
    · apply CallOrder.deleted
      exact hcert.toCallOrder.congr rfl rfl
    · apply CallOrder.deleted
      exact hkey.toCallOrder.congr rfl rfl
  · exact hQ _ h

end Configuring

section

variable [TlsConfiguration] {s : TlsContext} {inTurn : Prop}

/-- A start leaves the calls in turn, and the context ready if it returns 0. -/
theorem CallOrder.startSSLClient_ (h : CallOrder False inTurn s) (hfresh : .sslSetup ∉ s.calls)
    (a : StartArgs) (o : StartOutcomes) :
    CallOrder (((TlsContext.startSSLClient_ a o).exec s).1 = 0) inTurn
      ((TlsContext.startSSLClient_ a o).exec s).2 := by
  refine exec_of_wp (R := fun code s' => CallOrder (code = 0) inTurn s') ?_
  -- no error exit returns 0, and none of them leaves the context ready
  have hfault (code : ℤ) (s' : TlsContext) (hcode : code ≠ 0) (hs' : CallOrder False inTurn s') :
      CallOrder (code = 0) inTurn s' := by
    rwa [eq_false hcode]
  simp only [TlsContext.startSSLClient_, wp_bind, wp_returnIf, wp_call, TlsContext.handleError_eq]
  refine ⟨fun _ => hfault _ _ (by decide) h, fun _ => ⟨fun _ => hfault _ _ (by decide) h,
    fun _ => ⟨fun _ => hfault _ _ (by decide) h, fun _ => ?_⟩⟩⟩
  have hseed := (h.plain (e := .init .entropy) rfl rfl).log (e := .ctrDrbgSeed)
    (List.forall_mem_cons.mpr ⟨.tail _ (h.constructed (by simp)),
      List.forall_mem_singleton.mpr (.head _)⟩) (by simp [TlsCall.configures]) (by simp)
  have hdefaults := hseed.log (e := .sslConfigDefaults)
    (List.forall_mem_singleton.mpr (hseed.constructed (by simp))) (fun _ => by simpa using hfresh)
    (by simp)
  refine ⟨fun hret => hfault _ _ (Int.ne_of_lt hret) hseed, fun _ =>
    ⟨fun hret => hfault _ _ hret hdefaults, fun _ => ?_⟩⟩
  have hbegun : Configuring inTurn
      (((s.log (.init .entropy)).log .ctrDrbgSeed).log .sslConfigDefaults) :=
    ⟨hdefaults, .tail _ (.head _), .head _, by simpa using hfresh⟩
  refine hbegun.loadCredentials (fun s₁ h₁ => ?_) hfault
  refine h₁.loadOwnCert (fun s₂ h₂ => ?_) hfault
  have hhostname := h₂.log (e := .sslSetHostname a.hostOrIp)
    (List.forall_mem_singleton.mpr (h₂.constructed (by simp))) (by simp) (by simp)
  have hrng := hhostname.log (e := .sslConfRng) (List.forall_mem_cons.mpr ⟨hhostname.defaults,
    List.forall_mem_singleton.mpr hhostname.seeded⟩) (by simp) (by simp)
  have hsetup := hrng.toCallOrder.log (e := .sslSetup) (List.forall_mem_cons.mpr
    ⟨hrng.constructed (by simp), List.forall_mem_singleton.mpr (.head _)⟩) (fun _ => hrng.unset)
    (by simp)
  simp only [TlsContext.wp_failIf, wp_modify]
  refine ⟨fun hret => hfault _ _ hret hhostname.deleted, fun _ =>
    ⟨fun hret => hfault _ _ hret hsetup.deleted, fun _ => ?_⟩⟩
  -- the socket and the callbacks come together
  refine ⟨fun hx => .tail _ (hsetup.constructed hx), iff_of_true (.head _) trivial,
    fun _ => trivial, ?_⟩
  refine (always_cons.trans (and_iff_right ⟨?_, ?_⟩)).trans hsetup.ordered
  · exact List.forall_mem_singleton.mpr (.head _)
  · intro hconf
    cases hconf

omit [TlsConfiguration] in
/-- A context that has not been started is not set up by its uses. -/
theorem sslSetup_notMem_uses (h : s.Inert) (hs : .sslSetup ∉ s.calls) (us : List TlsUse) :
    .sslSetup ∉ (us.foldl TlsContext.use s).calls := by
  induction us generalizing s with
  | nil => exact hs
  | cons u us ih =>
      refine ih (h.use u) ?_
      cases u with
      | handshake o =>
          rw [TlsContext.use, h.runSSLHandshake]
          exact hs
      | write ret =>
          rw [TlsContext.use, h.write]
          exact hs
      | read ret => exact List.not_mem_cons_of_ne_of_not_mem (by simp) hs

/-- Whatever the context is used for, before its destructor. -/
theorem CallOrder.life (life : TlsLife) :
    CallOrder life.Started
      ((∀ u ∈ life.early, ¬ u.IsRead) ∧ ∀ u ∈ life.late, u.IsRead → life.Started)
      (life.late.foldl TlsContext.use
        ((life.early.foldl TlsContext.use .new).started life.start)) := by
  apply CallOrder.uses
  have hearly := CallOrder.new.uses life.early
  rw [true_and] at hearly
  -- what comes before the start has set up no session
  have hfresh := sslSetup_notMem_uses .new (by simp [TlsContext.new]) life.early
  cases hstart : life.start with
  | none =>
      have hnot : ¬ life.Started := by
        rintro ⟨p, hp, -⟩
        rw [hstart] at hp
        cases hp
      rw [eq_false hnot]
      exact hearly
  | some p =>
      have hstarted : life.Started ↔
          ((TlsContext.startSSLClient_ p.1.args p.2).exec
            (life.early.foldl TlsContext.use .new)).1 = 0 := by
        simp [TlsLife.Started, hstart]
      rw [hstarted]
      exact hearly.startSSLClient_ hfresh p.1.args p.2

/-! ## Every life -/

/-- Every mbedTLS call of a context, from its constructor to the end of its destructor, comes in its
turn, if and only if every call of `read` comes after a start that has returned 0: the other member
functions see to the order themselves, whenever they are called and whatever mbedTLS returns. -/
theorem TlsLife.calls_in_turn_iff (life : TlsLife) :
    Always CallInTurn life.final.calls ↔
      (∀ u ∈ life.early, ¬ u.IsRead) ∧ ∀ u ∈ life.late, u.IsRead → life.Started := by
  have h := (CallOrder.life life).deleted
  have hfree (x : TlsObject) (past : List TlsCall) :
      Always CallInTurn (.free x :: past) ↔ Always CallInTurn past :=
    always_cons.trans (and_iff_right ⟨List.forall_mem_nil _, fun hconf => by cases hconf⟩)
  rw [TlsLife.final, Accounts.calls_destroy, hfree, hfree, hfree, hfree, h.ordered]

end

end AsyncTcpSock
