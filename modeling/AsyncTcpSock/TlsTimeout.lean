import AsyncTcpSock.TlsHandshake

/-!
# The timeout of a handshake

`runSSLHandshake` measures how long a handshake takes with `millis()`, a 32-bit counter that wraps.
The difference of two readings is right across the wrap. But the time of the first call is kept in a
variable where 0 means that there is none yet, and 0 is also a reading.

- `handshakeStartTime_afterHandshakes`: the time that a handshake is measured from.
- `handshake_times_out_iff`: when the timeout is exact.
-/

namespace AsyncTcpSock

open Reentrant Tls

/-! ## Calls in time -/

/-- A call of `runSSLHandshake` that does not complete the handshake: the time when it begins and
the time when it looks at the clock after `mbedtls_ssl_handshake`, in milliseconds, and what that
function returned. -/
structure TimedCall where
  /-- The time when the call begins. -/
  begun : ℕ
  /-- The time when it looks at the clock again. -/
  finished : ℕ
  /-- What `mbedtls_ssl_handshake` has returned. -/
  want : ℤ
  deriving DecidableEq, Repr

/-- The outcomes that such a call meets. `millis()` shows the lowest 32 bits of the time. -/
def TimedCall.outcomes (call : TimedCall) : HandshakeOutcomes where
  startMillis := .ofNat call.begun
  sslHandshake := call.want
  nowMillis := .ofNat call.finished

/-- The first call begins at time `s`, and each one begins after the one before it. All of them end
before the clock has gone round once, and none completes the handshake. -/
structure Clocked (s : ℕ) (calls : List TimedCall) : Prop where
  /-- The handshake begins with the first call. -/
  first : ∀ call ∈ calls.head?, call.begun = s
  /-- The calls do not overlap. -/
  ordered : calls.Pairwise fun call₁ call₂ => call₁.finished ≤ call₂.begun
  /-- The clock does not go back within a call. -/
  forward : ∀ call ∈ calls, call.begun ≤ call.finished
  /-- The 32-bit clock has not come back to where it started. -/
  round : ∀ call ∈ calls, call.finished < s + 2 ^ 32
  /-- Every call leaves the handshake to be continued. -/
  wants : ∀ call ∈ calls, canRetry call.want = true

/-- The time that a handshake is measured from after some of the calls. -/
def measuredFrom (s : ℕ) (calls : List TimedCall) : ℕ :=
  if s % 2 ^ 32 = 0 then ((calls.map TimedCall.begun).find? (· ≠ s)).getD s else s

namespace TlsContext

/-- Every call returns -1 if more than the timeout has passed since the first one began, and what
mbedTLS returned otherwise. -/
def TimesOut (c : TlsContext) (s : ℕ) (calls : List TimedCall) : Prop :=
  ∀ i call, calls[i]? = some call →
    (c.afterHandshakes ((calls.take i).map TimedCall.outcomes)).handshakeCode call.outcomes =
      if c.handshakeTimeout.toNat < call.finished - s then -1 else call.want

end TlsContext

/-! ## Readings -/

/-- The difference of two readings that are less than one round apart. -/
theorem toNat_ofNat_sub {t₁ t₂ : ℕ} (hle : t₁ ≤ t₂) (hlt : t₂ < t₁ + 2 ^ 32) :
    (UInt32.ofNat t₂ - UInt32.ofNat t₁).toNat = t₂ - t₁ := by
  rw [UInt32.toNat_sub, UInt32.toNat_ofNat', UInt32.toNat_ofNat']
  have h₁ := Nat.div_add_mod t₁ (2 ^ 32)
  have h₂ := Nat.div_add_mod t₂ (2 ^ 32)
  omega

theorem ofNat_eq_zero {t : ℕ} : UInt32.ofNat t = 0 ↔ t % 2 ^ 32 = 0 := by
  rw [← UInt32.toNat_inj, UInt32.toNat_ofNat']
  rfl

namespace Clocked

variable {s : ℕ} {calls : List TimedCall}

/-- No call begins before the first one. -/
theorem le_begun (h : Clocked s calls) : ∀ call ∈ calls, s ≤ call.begun := by
  intro call hcall
  rcases calls with _ | ⟨first, rest⟩
  · cases hcall
  · have hfirst : first.begun = s := h.first first rfl
    have hforward := h.forward first (.head _)
    rcases List.mem_cons.mp hcall with rfl | hrest
    · exact Nat.le_of_eq hfirst.symm
    · have hordered := (List.pairwise_cons.mp h.ordered).1 call hrest
      omega

/-- A call begins at a reading of 0 if and only if it begins with the first one, at that reading. -/
theorem ofNat_begun_eq_zero (h : Clocked s calls) (hs : s % 2 ^ 32 = 0) {call : TimedCall}
    (hcall : call ∈ calls) : UInt32.ofNat call.begun = 0 ↔ call.begun = s := by
  have hle := h.le_begun call hcall
  have hforward := h.forward call hcall
  have hround := h.round call hcall
  rw [ofNat_eq_zero]
  omega

end Clocked

/-- No call of the list begins after the last one has finished. -/
theorem Clocked.begun_le {s : ℕ} {calls : List TimedCall} {last : TimedCall}
    (h : Clocked s (calls ++ [last])) : ∀ call ∈ calls ++ [last], call.begun ≤ last.finished := by
  intro call hcall
  have hforward := h.forward call hcall
  have hlast := h.forward last (List.mem_append_right _ (.head _))
  rcases List.mem_append.mp hcall with hearlier | hsame
  · have hordered := (List.pairwise_append.mp h.ordered).2.2 call hearlier last (.head _)
    omega
  · obtain rfl := List.mem_singleton.mp hsame
    exact hforward

/-- The first calls of the list. -/
theorem Clocked.take {s : ℕ} {calls : List TimedCall} (h : Clocked s calls) (i : ℕ) :
    Clocked s (calls.take (i + 1)) where
  first := by
    rw [List.head?_take, if_neg (Nat.succ_ne_zero i)]
    exact h.first
  ordered := h.ordered.sublist (List.take_sublist ..)
  forward call hcall := h.forward call (List.mem_of_mem_take hcall)
  round call hcall := h.round call (List.mem_of_mem_take hcall)
  wants call hcall := h.wants call (List.mem_of_mem_take hcall)

/-! ## The start of the measurement -/

/-- What `handshake_start_time` holds after some calls, if it is `t` before them. -/
def startAfter (t : UInt32) : List TimedCall → UInt32
  | [] => t
  | call :: rest => startAfter (if t = 0 then .ofNat call.begun else t) rest

theorem startAfter_of_ne_zero {t : UInt32} (ht : t ≠ 0) (calls : List TimedCall) :
    startAfter t calls = t := by
  induction calls with
  | nil => rfl
  | cons call rest ih => rw [startAfter, if_neg ht, ih]

theorem startAfter_concat (t : UInt32) (calls : List TimedCall) (call : TimedCall) :
    startAfter t (calls ++ [call]) =
      if startAfter t calls = 0 then .ofNat call.begun else startAfter t calls := by
  induction calls generalizing t with
  | nil => rfl
  | cons first rest ih => rw [List.cons_append, startAfter, ih, startAfter]

/-- The variable is set by the first call that begins at a reading other than 0. -/
theorem startAfter_zero {s : ℕ} {calls : List TimedCall} (hs : s % 2 ^ 32 = 0)
    (hbegun : ∀ call ∈ calls, UInt32.ofNat call.begun = 0 ↔ call.begun = s) :
    startAfter 0 calls = .ofNat (((calls.map TimedCall.begun).find? (· ≠ s)).getD s) := by
  induction calls with
  | nil => exact (ofNat_eq_zero.mpr hs).symm
  | cons call rest ih =>
      rw [startAfter, if_pos rfl, List.map_cons]
      by_cases hcall : call.begun = s
      · rw [(hbegun call (.head _)).mpr hcall, List.find?_cons_of_neg (by simpa using hcall)]
        exact ih fun c hc => hbegun c (.tail _ hc)
      · have hne : UInt32.ofNat call.begun ≠ 0 := fun h => hcall ((hbegun call (.head _)).mp h)
        rw [startAfter_of_ne_zero hne, List.find?_cons_of_pos (by simpa using hcall),
          Option.getD_some]

/-- The handshake is measured from the first call, but from the first one that begins at another
time if the first one begins at a reading of 0. -/
theorem Clocked.startAfter {s : ℕ} {calls : List TimedCall} (h : Clocked s calls)
    (hne : calls ≠ []) : startAfter 0 calls = .ofNat (measuredFrom s calls) := by
  rw [measuredFrom]
  split
  · rename_i hs
    exact startAfter_zero hs fun call hcall => h.ofNat_begun_eq_zero hs hcall
  · rename_i hs
    rcases calls with _ | ⟨first, rest⟩
    · exact absurd rfl hne
    · have hfirst : first.begun = s := h.first first rfl
      rw [AsyncTcpSock.startAfter, if_pos rfl, hfirst]
      exact startAfter_of_ne_zero (fun hzero => hs (ofNat_eq_zero.mp hzero)) rest

/-- The measurement starts with one of the calls. -/
theorem measuredFrom_mem (s : ℕ) (calls : List TimedCall) :
    measuredFrom s calls = s ∨ ∃ call ∈ calls, call.begun = measuredFrom s calls := by
  rw [measuredFrom]
  split
  · cases hfind : (calls.map TimedCall.begun).find? (· ≠ s) with
    | none => exact .inl rfl
    | some t =>
        obtain ⟨call, hcall, rfl⟩ := List.mem_map.mp (List.mem_of_find?_eq_some hfind)
        exact .inr ⟨call, hcall, rfl⟩
  · exact .inl rfl

namespace TlsContext

variable {c : TlsContext}

/-! ## One call -/

/-- The exits of a call that does not complete the handshake. -/
theorem wp_handshakePending {o : HandshakeOutcomes} {R : ℤ → TlsContext → Prop}
    {Q : Unit → TlsContext → Prop} (hwant : canRetry o.sslHandshake = true)
    (hR : R (if o.nowMillis - c.handshakeStartTime > c.handshakeTimeout then -1
      else o.sslHandshake) c) : wp (returning R) (handshakePending o) Q c := by
  simp only [handshakePending, wp_bind, wp_get, wp_returnIf]
  refine ⟨fun h => ?_, fun _ => ⟨fun h => ?_, fun h => ?_⟩⟩
  · rw [hwant] at h
    cases h
  · rwa [if_pos h] at hR
  · rwa [if_neg h] at hR

/-- A call that does not complete the handshake sets the time if there is none, and compares. -/
theorem exec_runSSLHandshake {o : HandshakeOutcomes} (hopen : 0 ≤ c.socket)
    (hwant : canRetry o.sslHandshake = true) {start : UInt32}
    (hstart : start = if c.handshakeStartTime = 0 then o.startMillis else c.handshakeStartTime) :
    (runSSLHandshake o).exec c =
      (if o.nowMillis - start > c.handshakeTimeout then -1 else o.sslHandshake,
        { c.log .sslHandshake with handshakeStartTime := start }) := by
  have hne : o.sslHandshake ≠ 0 := by
    intro hzero
    rw [hzero] at hwant
    exact absurd hwant (by decide)
  refine exec_of_wp (R := fun code c' => (code, c') = (_, _)) ?_
  simp only [runSSLHandshake, startTimer, wp_bind, wp_get, wp_returnIf, wp_ite, wp_modify, wp_pure,
    wp_call, if_pos hne]
  refine ⟨fun h => absurd h (by omega), fun _ => ?_⟩
  split
  · rename_i hzero
    rw [if_pos hzero] at hstart
    subst hstart
    exact wp_handshakePending hwant rfl
  · rename_i hset
    rw [if_neg hset] at hstart
    subst hstart
    exact wp_handshakePending hwant rfl

/-! ## A run of calls -/

/-- What the calls before the last one have left: the same socket and the same timeout, and the time
that the handshake is measured from. -/
theorem afterHandshakes_timed {calls : List TimedCall} (hopen : 0 ≤ c.socket)
    (hwants : ∀ call ∈ calls, canRetry call.want = true) :
    let c' := c.afterHandshakes (calls.map TimedCall.outcomes)
    c'.socket = c.socket ∧ c'.handshakeTimeout = c.handshakeTimeout ∧
      c'.handshakeStartTime = startAfter c.handshakeStartTime calls := by
  induction calls generalizing c with
  | nil => exact ⟨rfl, rfl, rfl⟩
  | cons call rest ih =>
      have hstep := exec_runSSLHandshake (o := call.outcomes) hopen (hwants call (.head _)) rfl
      rw [List.map_cons, afterHandshakes, List.foldl_cons, ← afterHandshakes, hstep]
      exact ih hopen fun call' hcall' => hwants call' (.tail _ hcall')

/-- A call returns -1 if more than the timeout has passed since the time that the handshake is
measured from. -/
theorem handshakeCode_timed {s i : ℕ} {calls : List TimedCall} {call : TimedCall}
    (hopen : 0 ≤ c.socket) (hnew : c.handshakeStartTime = 0) (hcalls : Clocked s calls)
    (hcall : calls[i]? = some call) :
    (c.afterHandshakes ((calls.take i).map TimedCall.outcomes)).handshakeCode call.outcomes =
      if c.handshakeTimeout.toNat < call.finished - measuredFrom s (calls.take (i + 1)) then -1
      else call.want := by
  have hmem : call ∈ calls := List.mem_of_getElem? hcall
  have htake : calls.take (i + 1) = calls.take i ++ [call] := by
    rw [List.take_add_one, hcall]
    rfl
  obtain ⟨hsocket, htimeout, hstart⟩ := afterHandshakes_timed hopen
    fun call' (hcall' : call' ∈ calls.take i) => hcalls.wants call' (List.mem_of_mem_take hcall')
  -- the call sets the time itself, or finds it set
  have hfrom :
      (if (c.afterHandshakes ((calls.take i).map TimedCall.outcomes)).handshakeStartTime = 0
      then UInt32.ofNat call.begun
      else (c.afterHandshakes ((calls.take i).map TimedCall.outcomes)).handshakeStartTime) =
        .ofNat (measuredFrom s (calls.take (i + 1))) := by
    have hprefix := (hcalls.take i).startAfter (by
      rw [htake]
      exact List.append_ne_nil_of_right_ne_nil _ nofun)
    rw [← hprefix, htake, startAfter_concat, hstart, hnew]
  have hbounds : measuredFrom s (calls.take (i + 1)) ≤ call.finished ∧
      s ≤ measuredFrom s (calls.take (i + 1)) := by
    have hsub := hcalls.take i
    have hforward := hcalls.forward call hmem
    have hle := hcalls.le_begun call hmem
    rcases measuredFrom_mem s (calls.take (i + 1)) with heq | ⟨call', hcall', heq⟩
    · omega
    · have hbegun := hsub.le_begun call' hcall'
      rw [htake] at hsub hcall'
      have hfinished := hsub.begun_le call' hcall'
      omega
  have hround := hcalls.round call hmem
  rw [handshakeCode, exec_runSSLHandshake (o := call.outcomes) (hsocket ▸ hopen)
    (hcalls.wants call hmem) hfrom.symm, htimeout]
  -- no more than one round of the counter has passed, so that the difference does not wrap
  have hdiff := toNat_ofNat_sub hbounds.1 (by omega)
  have hlt : call.outcomes.nowMillis - .ofNat (measuredFrom s (calls.take (i + 1))) >
      c.handshakeTimeout ↔
        c.handshakeTimeout.toNat < call.finished - measuredFrom s (calls.take (i + 1)) := by
    rw [gt_iff_lt, UInt32.lt_iff_toNat_lt, ← hdiff]
    rfl
  simp only [hlt]
  rfl

/-! ## After a start that succeeds -/

section

variable [TlsConfiguration]

/-- A start that succeeds has configured the socket, and leaves the time of the handshake unset. -/
theorem timer_start {a : StartArgs} {o : StartOutcomes}
    (hstart : (startSSLClient_ a o).exec new = (0, c)) :
    0 ≤ o.noDelay ∧ c.handshakeStartTime = 0 := by
  have hrun := exec_of_wp (m := startSSLClient_ a o) (s := new)
    (R := fun code s' => code = 0 → 0 ≤ o.noDelay ∧ s'.handshakeStartTime = 0) (by
      have hfault (code : ℤ) (s' : TlsContext) (hcode : code ≠ 0) :
          code = 0 → 0 ≤ o.noDelay ∧ s'.handshakeStartTime = 0 := fun h => absurd h hcode
      simp only [startSSLClient_, wp_bind, wp_returnIf, wp_call, handleError_eq]
      refine ⟨fun _ => hfault _ _ (by decide), fun _ => ⟨fun _ => hfault _ _ (by decide),
        fun hnoDelay => ⟨fun _ => hfault _ _ (by decide), fun _ => ⟨fun h => hfault _ _ (by omega),
          fun _ => ⟨fun h => hfault _ _ h, fun _ => ?_⟩⟩⟩⟩⟩
      refine wp_loadCredentials a o (fun s₁ hs₁ => ?_) hfault
      refine wp_loadOwnCert a o hs₁ (fun s₂ _ => ?_) hfault
      simp only [wp_failIf, wp_modify]
      exact ⟨fun h => hfault _ _ h, fun _ =>
        ⟨fun h => hfault _ _ h, fun _ _ => ⟨by omega, trivial⟩⟩⟩)
  rw [hstart] at hrun
  exact hrun rfl

/-- After a start that succeeds, the calls of `runSSLHandshake` time out exactly if and only if the
first one does not begin at a reading of 0, or none of them ends so late after it that it should
time out, and so early after the first one that begins at another reading that it does not.

`hlwip` is what `lwip_setsockopt` does with a number that is no socket. -/
theorem handshake_times_out_iff (e : TlsStart) (os : StartOutcomes)
    (hstart : (startSSLClient_ e.args os).exec new = (0, c))
    (hlwip : e.args.sck < 0 → os.noDelay < 0) (s : ℕ) (calls : List TimedCall)
    (hcalls : Clocked s calls) :
    c.TimesOut s calls ↔ (s % 2 ^ 32 = 0 → ∀ i call, calls[i]? = some call →
      c.handshakeTimeout.toNat < call.finished - s →
        c.handshakeTimeout.toNat < call.finished - measuredFrom s (calls.take (i + 1))) := by
  obtain ⟨hnoDelay, hnew⟩ := timer_start hstart
  have hsocket : c.socket = e.args.sck := congrArg Prod.fst (view_start hstart)
  have hopen : 0 ≤ c.socket := by
    rw [hsocket]
    by_contra hneg
    have hfails := hlwip (by omega)
    omega
  -- a reading other than 0 is kept
  have hkept (hs : s % 2 ^ 32 ≠ 0) (i : ℕ) : measuredFrom s (calls.take (i + 1)) = s := by
    rw [measuredFrom, if_neg hs]
  have hlater (i : ℕ) (call : TimedCall) (hcall : calls[i]? = some call) :
      s ≤ measuredFrom s (calls.take (i + 1)) := by
    rcases measuredFrom_mem s (calls.take (i + 1)) with heq | ⟨call', hcall', heq⟩
    · exact Nat.le_of_eq heq.symm
    · rw [← heq]
      exact (hcalls.take i).le_begun call' hcall'
  have hne (call : TimedCall) (hcall : call ∈ calls) : (-1 : ℤ) ≠ call.want := by
    intro heq
    have hwant := hcalls.wants call hcall
    rw [← heq] at hwant
    exact absurd hwant (by decide)
  constructor
  · intro htimes hs i call hcall hlate
    have hcode := htimes i call hcall
    rw [handshakeCode_timed hopen hnew hcalls hcall, if_pos hlate] at hcode
    by_contra hearly
    rw [if_neg hearly] at hcode
    exact hne call (List.mem_of_getElem? hcall) hcode.symm
  · intro hcond i call hcall
    rw [handshakeCode_timed hopen hnew hcalls hcall]
    by_cases hs : s % 2 ^ 32 = 0
    · have hle := hlater i call hcall
      have hiff : c.handshakeTimeout.toNat < call.finished - measuredFrom s (calls.take (i + 1)) ↔
          c.handshakeTimeout.toNat < call.finished - s :=
        ⟨fun h => by omega, hcond hs i call hcall⟩
      simp only [hiff]
    · rw [hkept hs i]

end

section

attribute [local instance] TlsConfiguration.esp32

/-- The clock wraps between the first call and the second, which is one millisecond too late. -/
theorem handshake_times_out_wrap :
    ∃ c, (startSSLClient_ (TlsStart.insecure 3 none).args {}).exec new = (0, c) ∧
      c.TimesOut 4294967290 [⟨4294967290, 4294967290, MBEDTLS_ERR_SSL_WANT_READ⟩,
        ⟨4294967300, 4295087291, MBEDTLS_ERR_SSL_WANT_WRITE⟩] :=
  ⟨_, rfl, (handshake_times_out_iff (.insecure 3 none) {} rfl (by decide) 4294967290
    [⟨4294967290, 4294967290, MBEDTLS_ERR_SSL_WANT_READ⟩,
      ⟨4294967300, 4295087291, MBEDTLS_ERR_SSL_WANT_WRITE⟩]
    ⟨by decide, by decide, by decide, by decide, by decide⟩).mpr fun h => absurd h (by decide)⟩

/-- A handshake that begins at a reading of 0 is measured from its second call. -/
theorem not_handshake_times_out :
    ¬ ∀ (e : TlsStart) (os : StartOutcomes) (c : TlsContext),
      (startSSLClient_ e.args os).exec new = (0, c) → (e.args.sck < 0 → os.noDelay < 0) →
      ∀ (s : ℕ) (calls : List TimedCall), Clocked s calls → c.TimesOut s calls := by
  intro h
  have htimes := h (.insecure 3 none) {} _ rfl (by decide) 0
    [⟨0, 0, MBEDTLS_ERR_SSL_WANT_READ⟩, ⟨1, 120001, MBEDTLS_ERR_SSL_WANT_READ⟩]
    ⟨by decide, by decide, by decide, by decide, by decide⟩ 1
    ⟨1, 120001, MBEDTLS_ERR_SSL_WANT_READ⟩ rfl
  exact absurd htimes (by decide)

end

end TlsContext

end AsyncTcpSock
