import AsyncTcpSock.Moves

/-!
# The rule for handlers

`HandlerRule C c H J` says that a family `J` of assertions, one for each phase of client `c`, is
kept by every move of the client in the handlers that `H` admits, and by the environment while user
code runs. `wp_handle` is the rule for the handlers of the manager: under such a family each of them
can be run from `J .idle`, ends in `J .idle`, and holds no mutex while user code runs.
-/

namespace AsyncTcpSock

open Reentrant Proc

variable [Configuration]

/-! ## Timeouts -/

section

variable {C : Contract World Yield Fault} {c : ClientId} {w : World} {cl : Client}
  {Q : Bool → World → Prop}

omit [Configuration] in
/-- `_checkAckTimeout` lets time pass, or reports a timeout of the first buffer. -/
theorem ClientBase.wp_checkAckTimeout (hcl : w.clients c = some cl)
    (hheld : Mutex.write c ∈ w.held → C.atFault (.deadlock (.write c)) w)
    (hnot : ∀ o t, w.clock ≤ t → o.selects = w.outcomes.selects → Q false (w.elapse o t))
    (hdue : ∀ ackTimeout first rest o t, w.clock ≤ t → cl.ackTimeout = some ackTimeout →
      cl.ackTimeoutSignaled = false → cl.writeQueue = first :: rest →
      ackTimeout ≤ t - first.queuedAt → first.writtenAt = 0 →
      wp C (invoke c (.timeout (delayMillis (t - first.queuedAt))) true) (fun _ w' => Q true w')
        (w.put c { cl with ackTimeoutSignaled := true } o t)) :
    wp C (ClientBase.checkAckTimeout c) Q w := by
  simp only [ClientBase.checkAckTimeout, wp_bind, wp_this, hcl, Option.elim_some]
  cases hack : cl.ackTimeout with
  | none => exact hnot w.outcomes w.clock le_rfl rfl
  | some ackTimeout =>
      simp only [wp_ite, wp_pure, wp_bind, wp_lock]
      cases hsignaled : cl.ackTimeoutSignaled with
      | true => exact hnot w.outcomes w.clock le_rfl rfl
      | false =>
          rw [if_neg Bool.false_ne_true]
          -- the write mutex is taken before the queue is looked at
          split
          · exact hheld ‹_›
          rename_i hheld
          simp only [wp_this, World.hold_clients, hcl, Option.elim_some]
          cases hqueue : cl.writeQueue with
          | nil =>
              simp only [wp_bind, wp_unlock, World.release_hold, hheld, not_false_eq_true, wp_pure]
              exact hnot w.outcomes w.clock le_rfl rfl
          | cons first rest =>
              rw [wp_bind, wp_now_eq]
              -- `millis()` is read under the mutex, and time may pass before it
              have htick : (w.hold (.write c)).tick = (w.elapse
                  { w.outcomes with ticks := w.outcomes.ticks.tail }
                  (w.clock + w.outcomes.ticks.headD 0)).hold (.write c) := rfl
              have ht : w.clock ≤ w.clock + w.outcomes.ticks.headD 0 := Nat.le_add_right ..
              rw [wp_ite, htick]
              split
              · rename_i hoverdue
                simp only [wp_bind, wp_update, wp_unlock, World.hold_clients, World.elapse_clients,
                  hcl, Option.elim_some, World.hold_put, World.elapse_put, World.hold_outcomes,
                  World.hold_clock, World.elapse_outcomes, World.elapse_clock, World.release_hold,
                  World.put_held, hheld, not_false_eq_true]
                exact hdue ackTimeout first rest _ _ ht hack hsignaled hqueue hoverdue.1 hoverdue.2
              · simp only [wp_bind, wp_unlock, World.release_hold, World.elapse_held, hheld,
                  not_false_eq_true, wp_pure]
                exact hnot _ _ ht rfl

omit [Configuration] in
/-- `_checkRxTimeout` lets time pass, finds a socket that can be read, or finds that the connection
has timed out. -/
theorem ClientBase.wp_checkRxTimeout (hcl : w.clients c = some cl)
    (hnot : ∀ o t, w.clock ≤ t → Q false (w.elapse o t))
    (hrenewed : ∀ o t, w.clock ≤ t → Q false (w.put c { cl with rxLastPacket := t } o t))
    (hexpired : ∀ o t rxTimeout, w.clock ≤ t → cl.rxTimeout = some rxTimeout →
      rxTimeout ≤ t - cl.rxLastPacket → w.outcomes.selects.headD false = false →
      Q true (w.elapse o t)) :
    wp C (ClientBase.checkRxTimeout c) Q w := by
  simp only [ClientBase.checkRxTimeout, wp_bind, wp_this, hcl, Option.elim_some]
  cases hrx : cl.rxTimeout with
  | none => exact hnot w.outcomes w.clock le_rfl
  | some rxTimeout =>
      rw [wp_bind, wp_now_eq, wp_ite]
      split
      · exact hnot _ _ w.clock_le_tick
      · rename_i hlate
        rw [wp_bind, selectOne, wp_take, wp_ite]
        split
        · simp only [wp_bind, wp_update, World.elapse_clients, World.tick_clients, hcl,
            Option.elim_some, World.elapse_put, wp_pure]
          exact hrenewed _ _ w.clock_le_tick
        · rename_i hready
          exact hexpired _ _ rxTimeout w.clock_le_tick hrx (Nat.le_of_not_lt hlate)
            (eq_false_of_ne_true hready)

end

/-! ## Handlers -/

/-- A move that ends in `w`, in phase `φ`, has delivered `cb` to client `c`. The assertions `J` held
before it. -/
def Delivered (c : ClientId) (cb : Callback) (J : Phase → World → Prop) (φ : Phase) (w : World) :
    Prop :=
  ∃ φ₀ w₀ cl₀ cl past, J φ₀ w₀ ∧ HandlerMove c φ₀ φ w₀ w ∧ w₀.clients c = some cl₀ ∧
    w.clients c = some cl ∧ cl.history = .callback cb :: past ∧ cl₀.history <:+ past

theorem Delivered.mono {c : ClientId} {cb : Callback} {J J' : Phase → World → Prop} {φ : Phase}
    {w : World} (h : Delivered c cb J φ w) (hJ : ∀ φ w, J φ w → J' φ w) :
    Delivered c cb J' φ w := by
  obtain ⟨φ₀, w₀, cl₀, cl, past, hJ₀, hmove⟩ := h
  exact ⟨φ₀, w₀, cl₀, cl, past, hJ _ _ hJ₀, hmove⟩

/-- What is known of the data of a callback: `RECV` comes with some bytes, as many as a read
returns. -/
def Callback.Fits : Callback → Prop
  | recv data => data ≠ [] ∧ data.length ≤ Configuration.tcpMss
  | _ => True

/-- The worlds in which a handler of client `c` is entered. The manager marks the client as active
before it reads, and before it does nothing else. -/
inductive Entering (c : ClientId) (w : World) (cl : Client) : Handler → World → Prop where
  | atOnce {handler : Handler} : handler ≠ .readable →
      Entering c w cl handler (w.put c (cl.enter handler) w.outcomes w.clock)
  | readable {o : Outcomes} {t : Time} : w.clock ≤ t → Entering c w cl .readable
      (w.put c (({ cl with lastActive := t } : Client).enter .readable) o t)

/-- A family of assertions that the handlers of client `c` keep under contract `C` once they have
been entered. -/
structure BodyRule (C : Contract World Yield Fault) (c : ClientId) (J : Phase → World → Prop) :
    Prop where
  /-- The steps of the handlers lead from assertion to assertion. -/
  handler {φ φ' : Phase} {w w' : World} : J φ w → φ ≠ .idle → HandlerMove c φ φ' w w' → J φ' w'
  /-- No mutex is held. -/
  unheld {φ : Phase} {w : World} : J φ w → w.held = ∅
  /-- The contract allows for a client that is gone when its handler goes on. -/
  stale {φ : Phase} {w w' : World} : J φ w → φ ≠ .idle → w.clients c = none → w.Agrees w' →
    C.atFault (.staleClient c) w'
  /-- The contract guarantees what is known when a callback is delivered. -/
  yield {φ : Phase} {w : World} (cb : Callback) : φ.yields = true → cb.Fits → J φ w →
    Delivered c cb J φ w → C.atYield (.client c cb (φ = .idle)) w
  /-- The environment keeps the assertion in callbacks. -/
  env {φ : Phase} {w w' : World} {cb : Callback} : φ.yields = true → J φ w →
    C.env (.client c cb (φ = .idle)) w w' → J φ w'

namespace BodyRule

variable {C : Contract World Yield Fault} {c : ClientId} {J : Phase → World → Prop} {w : World}
  {cl : Client}

/-- A step of the handler that leaves the descriptor alone. -/
theorem step (h : BodyRule C c J) {φ φ' : Phase} {cl' : Client} {t : Time} (o : Outcomes)
    (hJ : J φ w) (hφ : φ ≠ .idle) (hcl : w.clients c = some cl) (ht : w.clock ≤ t)
    (hstep : HandlerStep w.clock t cl φ .kept cl' φ') : J φ' (w.put c cl' o t) :=
  h.handler hJ hφ (.of_kept o hcl ht hstep)

/-- Callbacks. The step that ends in one has begun in `w₀`, with the client still `cl₀`. -/
theorem wp_invoke (h : BodyRule C c J) (φ : Phase) {φ₀ : Phase} {cb : Callback} {last : Bool}
    {w₀ : World} {cl₀ : Client} {o : Outcomes} {t : Time} {Q : Unit → World → Prop}
    (hφ : φ.yields = true) (hfits : cb.Fits) (hlast : last = decide (φ = .idle)) (hJ : J φ₀ w₀)
    (hφ₀ : φ₀ ≠ .idle) (hcl₀ : w₀.clients c = some cl₀) (ht : w₀.clock ≤ t)
    (hstep : HandlerStep w₀.clock t cl₀ φ₀ .kept (cl.log (.callback cb)) φ)
    (hcl : w.clients c = some cl) (hhistory : cl₀.history <:+ cl.history)
    (hw : w.put c (cl.log (.callback cb)) w.outcomes w.clock = w₀.put c (cl.log (.callback cb)) o t)
    (hQ : ∀ w', J φ w' → Q () w') : wp C (invoke c cb last) Q w := by
  subst hlast
  have hmove : HandlerMove c φ₀ φ w₀ (w₀.put c (cl.log (.callback cb)) o t) :=
    .of_kept o hcl₀ ht hstep
  have hJ' := h.handler hJ hφ₀ hmove
  have hdelivered : Delivered c cb J φ (w₀.put c (cl.log (.callback cb)) o t) :=
    ⟨φ₀, w₀, cl₀, _, _, hJ, hmove, hcl₀, World.put_clients_self .., rfl, hhistory⟩
  rw [invoke, wp_bind, wp_log, hcl, Option.elim_some, hw]
  exact wp_yield_of_stable (J φ) hJ' (fun _ _ hJ henv => h.env hφ hJ henv)
    (h.yield cb hφ hfits hJ' hdelivered) hQ

/-- `_error`. -/
theorem wp_error (h : BodyRule C c J) (next : Continuation) {φ₀ : Phase} {e : ℤ} {w₀ : World}
    {cl₀ : Client} {o : Outcomes} {t : Time} (hJ : J φ₀ w₀) (hφ₀ : φ₀ ≠ .idle)
    (hcl₀ : w₀.clients c = some cl₀) (ht : w₀.clock ≤ t)
    (hstep : HandlerStep w₀.clock t cl₀ φ₀ .kept (cl.log (.callback (.error e))) (.failing next))
    (hcl : w.clients c = some cl) (hhistory : cl₀.history <:+ cl.history)
    (hw : w.put c (cl.log (.callback (.error e))) w.outcomes w.clock =
      w₀.put c (cl.log (.callback (.error e))) o t) :
    wp C (ClientBase.error c e) (fun _ w' => J next.phase w') w := by
  rw [ClientBase.error, wp_bind]
  refine h.wp_invoke (.failing next) rfl trivial rfl hJ hφ₀ hcl₀ ht hstep hcl hhistory hw
    fun w' hJ' => ?_
  cases hcl' : w'.clients c with
  | none =>
      simp only [ClientBase.close_, wp_bind, wp_this, hcl', Option.elim_none]
      exact h.stale hJ' (by simp) hcl' .refl
  | some cl' =>
      -- `_close` follows the error callback, whatever this has done to the client
      refine ClientBase.wp_close_ hcl' (by simp [h.unheld hJ']) ?_
      exact h.handler hJ' (by simp) (.mk _ hcl' le_rfl (.failed cl' next) .closed)

/-- The notifications of `_cleanupWriteQueue`. -/
theorem wp_notifySent (h : BodyRule C c J) {next : Continuation} {stats : List WriteStats}
    (hJ : J (.notify next stats) w) :
    wp C (ClientBase.notifySent c (next = .leave) stats) (fun _ w' => J next.phase w') w := by
  induction stats generalizing w with
  | nil => exact hJ
  | cons s rest ih =>
      rw [ClientBase.notifySent, wp_bind]
      cases hcl : w.clients c with
      | none =>
          simp only [invoke, wp_bind, wp_log, hcl, Option.elim_none]
          exact h.stale hJ (by simp [Phase.notify]) hcl .refl
      | some cl =>
          refine h.wp_invoke (.notify next rest) ?_ trivial ?_ hJ (by simp [Phase.notify]) hcl
            le_rfl (.notified cl next s rest) hcl List.suffix_rfl rfl fun w' hJ' => ih hJ'
          · cases rest <;> cases next <;> rfl
          · cases rest <;> cases next <;> rfl

/-- `_cleanupWriteQueue`, with the write mutex held. -/
theorem wp_cleanupWriteQueue (h : BodyRule C c J) {next : Continuation}
    (hcl : w.clients c = some cl) (hJ : J (.cleaning next) w) :
    wp C (ClientBase.cleanupWriteQueue c (next = .leave)) (fun _ w' => J next.phase w')
      (w.hold (.write c)) := by
  have hheld : Mutex.write c ∉ w.held := by simp [h.unheld hJ]
  simp only [ClientBase.cleanupWriteQueue, wp_bind, wp_this, World.hold_clients, hcl,
    Option.elim_some]
  cases hscan : cl.scan.error with
  | some e =>
      simp only [wp_bind, wp_update, World.hold_clients, hcl, Option.elim_some, World.hold_put,
        wp_unlock, World.release_hold, World.put_held, hheld, not_false_eq_true]
      exact h.wp_error next hJ (by simp) hcl le_rfl (.writeFailed cl next e hscan)
        (World.put_clients_self w c cl.afterFailedScan _ _) (List.suffix_cons ..) (World.put_put ..)
  | none =>
      simp only [wp_bind, wp_update, World.hold_clients, hcl, Option.elim_some, World.hold_put,
        wp_unlock, World.release_hold, World.put_held, hheld, not_false_eq_true]
      exact h.wp_notifySent (h.step _ hJ (by simp) hcl le_rfl (.cleaned cl next hscan))

/-- The second half of `_sockIsWriteable`. -/
theorem wp_writeAvailable (h : BodyRule C c J) {activity : Bool} (hcl : w.clients c = some cl)
    (hJ : J (.writing activity) w) :
    wp C (ClientBase.writeAvailable c activity) (fun a w' => J (.afterWriting a) w') w := by
  have hheld : Mutex.write c ∉ w.held := by simp [h.unheld hJ]
  simp only [ClientBase.writeAvailable, wp_bind, wp_lock, hheld, if_false, wp_this,
    World.hold_clients, hcl, Option.elim_some, wp_ite]
  split
  · rename_i hwrite
    have hqueue : cl.writeQueue ≠ [] := by simpa using hwrite.2
    refine ClientBase.wp_processWriteQueue (by simpa using hcl) fun io o hio => ?_
    have hJ' := h.step o hJ (by simp) hcl (hio ▸ clock_le_processQueue io _)
      (.pass cl activity io hwrite.1 hqueue hio rfl)
    refine wp_mono (R := fun _ w' => J (.afterWriting (processQueue io cl.writeQueue).activity) w')
      ?_ fun _ w' hw' => hw'
    -- the activity of the pass decides if the client is marked as active
    have htail : (!(processQueue io cl.writeQueue).activity) =
        decide (Continuation.afterPass (processQueue io cl.writeQueue).activity = .leave) := by
      cases (processQueue io cl.writeQueue).activity <;> rfl
    rw [htail]
    exact h.wp_cleanupWriteQueue (World.put_clients_self ..) hJ'
  · rename_i hwrite
    have hnothing : cl.state ≠ .connected ∨ cl.writeQueue = [] := by
      simpa [imp_iff_not_or] using hwrite
    simp only [wp_unlock, World.release_hold, hheld, not_false_eq_true, wp_pure]
    have hJ' := h.step w.outcomes hJ (by simp) hcl le_rfl (.nothingToWrite cl activity hnothing)
    rwa [← World.elapse_eq_put _ _ hcl] at hJ'

/-- `SocketConnection::setLastActive` at the end of a handler. -/
theorem wp_setLastActive (h : BodyRule C c J) (hJ : J .touching w) :
    wp C (Manager.setLastActive c) (fun _ w' => J .idle w') w := by
  rw [Manager.setLastActive, wp_bind]
  refine wp_now fun o t ht => ?_
  rw [wp_update, World.elapse_clients]
  cases hcl : w.clients c with
  | none => exact h.stale hJ nofun hcl (.elapse ht)
  | some cl =>
      rw [Option.elim_some, World.elapse_put]
      exact h.step o hJ nofun hcl ht (.touched cl)

/-- `_sockIsWriteable`. -/
theorem wp_sockIsWriteable (h : BodyRule C c J) (hcl : w.clients c = some cl)
    (henter : J (.running .writeable) (w.put c (cl.enter .writeable) w.outcomes w.clock)) :
    wp C (ClientBase.sockIsWriteable c) (fun a w' => J (.afterWriting a) w') w := by
  have hself := World.put_clients_self w c (cl.enter .writeable) w.outcomes w.clock
  simp only [ClientBase.sockIsWriteable, wp_bind, wp_log, hcl, Option.elim_some, wp_this,
    World.put_clients_self, wp_ite]
  have hlog : cl.log (.entered .writeable) = cl.enter .writeable := by
    simp [Client.log, Client.enter]
  rw [hlog]
  split
  · rename_i hstate
    -- an attempt to connect is under way: the socket tells whether it has failed
    refine wp_getsockopt (fun errno o => ?_) fun e o hopen => ?_
    · rw [wp_bind]
      refine wp_mono (h.wp_error .leave (o := o) henter (by simp) hself le_rfl
        (.attemptFailed _ errno hstate) (World.put_clients_self ..) List.suffix_rfl ?_)
        fun _ w' hw' => hw'
      simp
    · rw [wp_ite]
      split
      · rw [wp_bind]
        refine wp_mono (h.wp_error .leave (o := o) henter (by simp) hself le_rfl
          (.attemptFailed _ e hstate) (World.put_clients_self ..) List.suffix_rfl ?_)
          fun _ w' hw' => hw'
        simp
      · rw [wp_bind]
        refine wp_now fun o t ht => ?_
        simp only [wp_bind, wp_update, World.put_elapse, World.put_clients_self, Option.elim_some,
          World.put_put, World.put_outcomes, World.put_clock]
        refine h.wp_invoke .connecting (o := o) rfl trivial rfl henter (by simp) hself ht
          (.established _ hstate (by simpa [Client.isOpen] using hopen))
          (World.put_clients_self ..) List.suffix_rfl ?_ fun w' hJ' => ?_
        · simp
        · cases hcl' : w'.clients c with
          | none =>
              simp only [ClientBase.writeAvailable, wp_bind, wp_lock, h.unheld hJ',
                Finset.notMem_empty, if_false, wp_this, World.hold_clients, hcl', Option.elim_none]
              exact h.stale hJ' (by simp) hcl' .hold
          | some cl' =>
              have hJ'' := h.step w'.outcomes hJ' (by simp) hcl' le_rfl (.announced cl')
              rw [← World.elapse_eq_put _ _ hcl'] at hJ''
              exact h.wp_writeAvailable hcl' hJ''
  · rename_i hstate
    -- no attempt is under way: what is queued is written
    have hJ' := h.step w.outcomes henter (by simp) (World.put_clients_self ..) le_rfl
      (.ready _ (by simpa using hstate))
    rw [World.put_put] at hJ'
    exact h.wp_writeAvailable (World.put_clients_self ..) hJ'

/-- `_sockIsReadable`. -/
theorem wp_sockIsReadable (h : BodyRule C c J) (hcl : w.clients c = some cl)
    (henter : J (.running .readable) (w.put c (cl.enter .readable) w.outcomes w.clock)) :
    wp C (ClientBase.sockIsReadable c) (fun _ w' => J .idle w') w := by
  have hlog : cl.log (.entered .readable) = cl.enter .readable := by
    simp [Client.log, Client.enter]
  simp only [ClientBase.sockIsReadable, wp_bind, wp_log, hcl, Option.elim_some, wp_this,
    World.put_clients_self, hlog]
  have hself := World.put_clients_self w c (cl.enter .readable) w.outcomes w.clock
  refine wp_lwipRead (fun errno o => ?_) fun data o hopen hlength => ?_
  · rw [wp_ite, World.put_elapse]
    split
    · refine h.wp_error .leave (o := o) henter (by simp) hself le_rfl (.readFailed _ errno)
        (World.put_clients_self ..) List.suffix_rfl ?_
      simp
    · simpa using h.step o henter (by simp) hself le_rfl (.nothingToRead _)
  · have hopen' : (cl.enter .readable).isOpen = true := by simpa [Client.isOpen] using hopen
    rw [World.put_elapse]
    cases data with
    | nil =>
        -- the peer has closed the connection
        have hheld : w.held = ∅ := (World.put_held ..).symm.trans (h.unheld henter)
        refine ClientBase.wp_close_ (World.put_clients_self ..) (by simp [hheld]) ?_
        have hmove := h.handler henter (by simp) (.mk o hself le_rfl (.peerClosed _ hopen') .closed)
        simpa using hmove
    | cons b bs =>
        rw [wp_bind]
        refine wp_now fun o' t ht => ?_
        simp only [wp_bind, wp_update, World.put_elapse, World.put_clients_self, Option.elim_some,
          World.put_put, World.put_outcomes, World.put_clock]
        refine h.wp_invoke .idle (o := o') rfl ⟨by simp, hlength⟩ rfl henter (by simp) hself ht
          (.received _ (b :: bs) hopen') (World.put_clients_self ..) List.suffix_rfl ?_
          fun w' hJ' => hJ'
        simp

/-- `_sockDelayedConnect`, after the manager has reset `_dnsFinished`. -/
theorem wp_delayedConnect (h : BodyRule C c J) (hcl : w.clients c = some cl)
    (henter : J (.running .delayedConnect)
      (w.put c (cl.enter .delayedConnect) w.outcomes w.clock)) :
    wp C (Manager.handle .delayedConnect c) (fun _ w' => J .idle w') w := by
  have hlog : ({ cl with dnsFinished := false } : Client).log (.entered .delayedConnect) =
      cl.enter .delayedConnect := by
    simp [Client.log, Client.enter]
  have hself := World.put_clients_self w c (cl.enter .delayedConnect) w.outcomes w.clock
  simp only [Manager.handle, Manager.setDnsFinished, ClientBase.sockDelayedConnect, wp_bind, wp_log,
    wp_update, hcl, Option.elim_some, wp_this, World.put_clients_self, World.put_put,
    World.put_outcomes, World.put_clock, hlog, wp_ite]
  cases hip : (cl.enter .delayedConnect).ip.isSet with
  | true =>
      refine ClientBase.wp_connectIP (World.put_clients_self ..)
        fun ch cl' success w' o hatt hd => ?_
      exact h.handler henter (by simp) (.mk o hself le_rfl (.resolved hip hatt) hd)
  | false =>
      exact h.wp_error .leave henter (by simp) hself le_rfl (.unresolved _ hip) hself
        List.suffix_rfl rfl

/-- `_processingDone`. -/
theorem wp_processingDone (h : BodyRule C c J) (hcl : w.clients c = some cl)
    (henter : J (.running .done) (w.put c (cl.enter .done) w.outcomes w.clock)) :
    wp C (ClientBase.processingDone c) (fun _ w' => J .idle w') w := by
  have hlog : cl.log (.entered .done) = cl.enter .done := by simp [Client.log, Client.enter]
  have hself := World.put_clients_self w c (cl.enter .done) w.outcomes w.clock
  simp only [ClientBase.processingDone, wp_bind, wp_log, hcl, Option.elim_some, wp_this,
    World.put_clients_self, hlog, wp_ite]
  split
  · simp only [wp_update, World.put_clients_self, Option.elim_some, World.put_put,
      World.put_outcomes, World.put_clock]
    refine h.wp_invoke .idle (o := w.outcomes) rfl trivial rfl henter (by simp) hself le_rfl
      (.disconnected _ ‹_›) (World.put_clients_self ..) List.suffix_rfl ?_ fun w' hJ' => hJ'
    simp
  · have hJ' := h.step w.outcomes henter (by simp) hself le_rfl (.nothingDone _ ‹_›)
    simpa using hJ'

/-- `_checkAckTimeout`: when it does not report a timeout only time has passed. -/
theorem wp_checkAckTimeout (h : BodyRule C c J) (hcl : w.clients c = some cl)
    (hstate : cl.state = .connected) (hJ : J .polling w) {Q : Bool → World → Prop}
    (htimeout : ∀ w', J .idle w' → Q true w')
    (hnot : ∀ o t, w.clock ≤ t → Q false (w.elapse o t)) :
    wp C (ClientBase.checkAckTimeout c) Q w := by
  refine ClientBase.wp_checkAckTimeout hcl (by simp [h.unheld hJ]) (fun o t ht _ => hnot o t ht) ?_
  intro ackTimeout first rest o t ht hack hsignaled hqueue hdue hwritten
  refine h.wp_invoke .idle (o := o) rfl trivial rfl hJ nofun hcl ht
    (.ackTimeout cl ackTimeout first rest hstate hack hsignaled hqueue hdue hwritten)
    (World.put_clients_self ..) List.suffix_rfl ?_ htimeout
  simp

/-- `_checkRxTimeout`. -/
theorem wp_checkRxTimeout (h : BodyRule C c J) (hcl : w.clients c = some cl)
    (hstate : cl.state = .connected) (hJ : J .polling w) {o₀ : Outcomes} {t₀ : Time}
    (ht₀ : w.clock ≤ t₀) {Q : Bool → World → Prop}
    (hexpired : ∀ o t rxTimeout, w.clock ≤ t → cl.rxTimeout = some rxTimeout →
      rxTimeout ≤ t - cl.rxLastPacket → Q true (w.elapse o t))
    (hrenewed : ∀ o t, w.clock ≤ t →
      J .polling (w.put c { cl with rxLastPacket := t } o t) →
      Q false (w.put c { cl with rxLastPacket := t } o t))
    (hnot : ∀ o t, w.clock ≤ t → Q false (w.elapse o t)) :
    wp C (ClientBase.checkRxTimeout c) Q (w.elapse o₀ t₀) := by
  refine ClientBase.wp_checkRxTimeout hcl (fun o t ht => hnot o t (ht₀.trans ht))
    (fun o t ht => ?_) fun o t rxTimeout ht hrx hlate _ => ?_
  · exact hrenewed o t (ht₀.trans ht) (h.step o hJ nofun hcl (ht₀.trans ht) (.rxRenewed cl hstate))
  · exact hexpired o t rxTimeout (ht₀.trans ht) hrx hlate

/-- The part of `_sockPoll` after the notifications. -/
theorem wp_pollTimeouts (h : BodyRule C c J) (hJ : J .polling w) :
    wp C (ClientBase.pollTimeouts c) (fun _ w' => J .idle w') w := by
  have hpoll {cl : Client} {w : World} (hcl : w.clients c = some cl)
      (hstate : cl.state = .connected) (hJ : J .polling w) {o : Outcomes} {t : Time}
      (ht : w.clock ≤ t) : wp C (invoke c .poll true) (fun _ w' => J .idle w') (w.elapse o t) := by
    refine h.wp_invoke .idle (o := o) rfl trivial rfl hJ nofun hcl ht (.polled cl hstate) hcl
      List.suffix_rfl ?_ fun w' hJ' => hJ'
    simp
  rw [ClientBase.pollTimeouts, wp_bind, wp_this]
  cases hcl : w.clients c with
  | none => exact h.stale hJ nofun hcl .refl
  | some cl =>
      rw [Option.elim_some, wp_ite]
      split
      · rename_i hstate
        have hJ' := h.step w.outcomes hJ nofun hcl le_rfl
          (.notPolled cl .polling (by simpa [Client.connected] using hstate) (.inr rfl))
        rwa [← World.elapse_eq_put _ _ hcl] at hJ'
      · rename_i hconnected
        have hstate : cl.state = .connected := by simpa [Client.connected] using hconnected
        rw [wp_bind]
        -- a reported ack timeout ends the poll, otherwise only time has passed
        refine h.wp_checkAckTimeout hcl hstate hJ (fun w' hJ' => hJ') fun o t ht => ?_
        rw [wp_ite, if_neg Bool.false_ne_true, wp_bind]
        refine h.wp_checkRxTimeout hcl hstate hJ ht (fun o t rxTimeout ht hrx hlate => ?_)
          (fun o t ht hJ' => ?_) fun o t ht => ?_
        · refine ClientBase.wp_close_ hcl (by simp [h.unheld hJ]) ?_
          have hmove := h.handler hJ nofun
            (.mk o hcl ht (.rxExpired cl rxTimeout hstate hrx hlate) .closed)
          simpa using hmove
        · exact @hpoll { cl with rxLastPacket := t } _ (World.put_clients_self ..) hstate hJ' _ _
            le_rfl
        · exact hpoll hcl hstate hJ ht

/-- `_sockPoll`. -/
theorem wp_sockPoll (h : BodyRule C c J) (hcl : w.clients c = some cl)
    (henter : J (.running .poll) (w.put c (cl.enter .poll) w.outcomes w.clock)) :
    wp C (ClientBase.sockPoll c) (fun _ w' => J .idle w') w := by
  have hlog : cl.log (.entered .poll) = cl.enter .poll := by simp [Client.log, Client.enter]
  have hself := World.put_clients_self w c (cl.enter .poll) w.outcomes w.clock
  simp only [ClientBase.sockPoll, wp_bind, wp_log, hcl, Option.elim_some, wp_this,
    World.put_clients_self, hlog, wp_ite]
  split
  · rename_i hconnected
    have hstate : (cl.enter .poll).state ≠ .connected := by
      simpa [Client.connected] using hconnected
    simpa using h.step w.outcomes henter (by simp) hself le_rfl (.notPolled _ _ hstate (.inl rfl))
  · rename_i hconnected
    have hstate : (cl.enter .poll).state = .connected := by
      simpa [Client.connected] using hconnected
    have hclean := h.step w.outcomes henter (by simp) hself le_rfl (.poll _ hstate)
    rw [World.put_put] at hclean
    -- the queue is cleaned up under the mutex, then come the timeouts
    rw [wp_lock, h.unheld henter, if_neg (Finset.notMem_empty _)]
    exact wp_mono (h.wp_cleanupWriteQueue (World.put_clients_self ..) hclean)
      fun _ w' hJ' => h.wp_pollTimeouts hJ'

/-- The rule for the handlers of a client that has been entered. -/
theorem wp_handle (h : BodyRule C c J) (handler : Handler) (hcl : w.clients c = some cl)
    (henter : ∀ w', Entering c w cl handler w' → J (.running handler) w') :
    wp C (Manager.handle handler c) (fun _ w' => J .idle w') w := by
  cases handler with
  | writeable =>
      rw [Manager.handle, wp_bind]
      refine wp_mono (h.wp_sockIsWriteable hcl (henter _ (.atOnce nofun))) fun activity w' hJ' => ?_
      cases activity with
      | true => exact h.wp_setLastActive hJ'
      | false => exact hJ'
  | readable =>
      rw [Manager.handle, wp_bind, Manager.setLastActive, wp_bind]
      refine wp_now fun o t ht => ?_
      rw [wp_update, World.elapse_clients, hcl, Option.elim_some, World.elapse_put]
      refine h.wp_sockIsReadable (World.put_clients_self ..) ?_
      rw [World.put_put]
      exact henter _ (.readable ht)
  | delayedConnect => exact h.wp_delayedConnect hcl (henter _ (.atOnce nofun))
  | poll => exact h.wp_sockPoll hcl (henter _ (.atOnce nofun))
  | done => exact h.wp_processingDone hcl (henter _ (.atOnce nofun))

end BodyRule

/-- A family of assertions that the handlers of client `c` admitted by `H` keep under contract `C`.
-/
structure HandlerRule (C : Contract World Yield Fault) (c : ClientId) (H : Handler → Prop)
    (J : Phase → World → Prop) : Prop where
  /-- The client may be marked as active. -/
  touch {w : World} {cl : Client} {o : Outcomes} {t : Time} : J .idle w → w.clients c = some cl →
    w.clock ≤ t → J .idle (w.put c { cl with lastActive := t } o t)
  /-- A handler is entered. -/
  enter {handler : Handler} {w w' : World} : H handler → J .idle w →
    HandlerMove c .idle (.running handler) w w' → J (.running handler) w'
  /-- The steps of the handlers lead from assertion to assertion. -/
  handler {φ φ' : Phase} {w w' : World} : J φ w → φ ≠ .idle → HandlerMove c φ φ' w w' → J φ' w'
  /-- No mutex is held. -/
  unheld {φ : Phase} {w : World} : J φ w → w.held = ∅
  /-- The contract allows for a client that is gone when its handler goes on. -/
  stale {φ : Phase} {w w' : World} : J φ w → φ ≠ .idle → w.clients c = none → w.Agrees w' →
    C.atFault (.staleClient c) w'
  /-- The contract guarantees what is known when a callback is delivered. -/
  yield {φ : Phase} {w : World} (cb : Callback) : φ.yields = true → J φ w →
    Delivered c cb J φ w → C.atYield (.client c cb (φ = .idle)) w
  /-- The environment keeps the assertion in callbacks. -/
  env {φ : Phase} {w w' : World} {cb : Callback} : φ.yields = true → J φ w →
    C.env (.client c cb (φ = .idle)) w w' → J φ w'

namespace HandlerRule

variable {C : Contract World Yield Fault} {c : ClientId} {H : Handler → Prop}
  {J : Phase → World → Prop} {w : World} {cl : Client}

theorem bodyRule (h : HandlerRule C c H J) : BodyRule C c J where
  handler := h.handler
  unheld := h.unheld
  stale := h.stale
  yield := fun cb hφ _ hJ hdelivered => h.yield cb hφ hJ hdelivered
  env := h.env

/-- A handler is entered. -/
theorem entered (h : HandlerRule C c H J) {handler : Handler} (hH : H handler) (hJ : J .idle w)
    (hcl : w.clients c = some cl) (hdns : handler = .delayedConnect → cl.dnsFinished = true) :
    J (.running handler) (w.put c (cl.enter handler) w.outcomes w.clock) :=
  h.enter hH hJ (.of_kept w.outcomes hcl le_rfl (.enter cl handler hdns))

/-- The rule for the handlers of a client. -/
theorem wp_handle (h : HandlerRule C c H J) (handler : Handler) (hH : H handler)
    (hcl : w.clients c = some cl) (hdns : handler = .delayedConnect → cl.dnsFinished = true)
    (hJ : J .idle w) :
    wp C (Manager.handle handler c) (fun _ w' => J .idle w') w := by
  refine h.bodyRule.wp_handle handler hcl fun w' hentering => ?_
  cases hentering with
  | atOnce _ => exact h.entered hH hJ hcl hdns
  | @readable o t ht =>
      have hentered := h.entered hH (h.touch (o := o) hJ hcl ht) (World.put_clients_self ..) nofun
      rwa [World.put_put] at hentered

end HandlerRule

end AsyncTcpSock
