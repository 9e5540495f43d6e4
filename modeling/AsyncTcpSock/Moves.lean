import AsyncTcpSock.ProcRules
import AsyncTcpSock.WriteQueue

/-!
# Moves of the world

What a step of one client does to the world, and the functions of `ClientBase.tpp` that do not
invoke callbacks as such moves. Each function has one specification here; nothing above unfolds it.
-/

namespace AsyncTcpSock

open Reentrant Proc

/-- What the step of a client whose descriptor was `socket` does to the open descriptors. -/
inductive Descriptors (w : World) (socket : ℤ) : SocketChange → World → Prop where
  | kept : Descriptors w socket .kept w
  | closed : Descriptors w socket .closed (w.closeFd socket)
  | opened {fd : ℤ} {w' : World} : w.acquire fd = some w' → Descriptors w socket (.opened fd) w'
  /-- `fcntl` has failed, and `_configureSocket` has closed the descriptor it goes on to store. -/
  | misconfigured {fd : ℤ} {w' : World} : w.acquire fd = some w' →
      Descriptors w socket (.opened fd) w.misconfigure

/-- A move of the world: client `c` takes a step of kind `R`, time passes and system calls are
made. -/
inductive Move (R : Time → Time → Client → SocketChange → Client → Prop) (c : ClientId)
    (w : World) : World → Prop where
  | mk {cl cl' : Client} {ch : SocketChange} {w₁ : World} {t : Time} (o : Outcomes) :
      w.clients c = some cl → w.clock ≤ t → R w.clock t cl ch cl' →
      Descriptors w cl.socket ch w₁ → Move R c w (w₁.put c cl' o t)

namespace Descriptors

variable {w w' : World} {socket : ℤ} {ch : SocketChange}

/-- Nothing but the descriptors changes. -/
theorem frame (h : Descriptors w socket ch w') :
    ∃ d e f, w' = { w with descriptors := d, fcntlFailed := e, closedTwice := f } := by
  cases h with
  | kept => exact ⟨_, _, _, rfl⟩
  | closed => exact ⟨_, _, _, World.closeFd_eq ..⟩
  | opened hw' => exact ⟨_, _, _, (World.acquire_eq_some.mp hw').2.2⟩
  | misconfigured _ => exact ⟨_, true, _, rfl⟩

/-- What happens to the descriptors depends on the descriptors only. -/
theorem of_put {c : ClientId} {cl : Client} {o : Outcomes} {t : Time}
    (h : Descriptors (w.put c cl o t) socket ch w') :
    ∃ w₁, Descriptors w socket ch w₁ ∧ w' = w₁.put c cl o t := by
  have hacquire {fd : ℤ} {w' : World} (hw' : (w.put c cl o t).acquire fd = some w') :
      ∃ w₁, w.acquire fd = some w₁ ∧ w' = w₁.put c cl o t := by
    obtain ⟨hfd, hmem, rfl⟩ := World.acquire_eq_some.mp hw'
    exact ⟨_, World.acquire_eq_some.mpr ⟨hfd, hmem, rfl⟩, rfl⟩
  cases h with
  | kept => exact ⟨w, .kept, rfl⟩
  | closed => exact ⟨_, .closed, World.closeFd_put ..⟩
  | opened hw' =>
      obtain ⟨w₁, hw₁, rfl⟩ := hacquire hw'
      exact ⟨w₁, .opened hw₁, rfl⟩
  | misconfigured hw' =>
      obtain ⟨w₁, hw₁, -⟩ := hacquire hw'
      exact ⟨_, .misconfigured hw₁, rfl⟩

end Descriptors

variable {C : Contract World Yield Fault} {w w' : World} {c : ClientId}

namespace Move

variable {R S : Time → Time → Client → SocketChange → Client → Prop}

/-- What a move does to the world. -/
theorem eq_put (h : Move R c w w') : ∃ cl' o t d e f, w.clock ≤ t ∧
    w' =
      ({ w with descriptors := d, fcntlFailed := e, closedTwice := f } : World).put c cl' o t := by
  obtain ⟨o, hcl, ht, hR, hd⟩ := h
  obtain ⟨d, e, f, rfl⟩ := hd.frame
  exact ⟨_, o, _, d, e, f, ht, rfl⟩

theorem clients_of_ne (h : Move R c w w') {c' : ClientId} (hne : c' ≠ c) :
    w'.clients c' = w.clients c' := by
  obtain ⟨cl', o, t, d, e, f, ht, rfl⟩ := h.eq_put
  exact World.put_clients_of_ne _ _ _ _ hne

theorem isSome (h : Move R c w w') : (w'.clients c).isSome := by
  obtain ⟨cl', o, t, d, e, f, ht, rfl⟩ := h.eq_put
  simp

/-- A step that leaves the descriptor alone is a move. -/
theorem of_kept {cl cl' : Client} {t : Time} (o : Outcomes) (hcl : w.clients c = some cl)
    (ht : w.clock ≤ t) (hR : R w.clock t cl .kept cl') : Move R c w (w.put c cl' o t) :=
  .mk o hcl ht hR .kept

end Move

/-- A move of user code, of the lwIP thread or of the manager's bookkeeping. -/
abbrev UserMove [Configuration] (c : ClientId) : World → World → Prop := Move UserStep c

/-- A move of the handler that runs for client `c`, from phase `φ` to phase `φ'`. -/
abbrev HandlerMove [Configuration] (c : ClientId) (φ φ' : Phase) : World → World → Prop :=
  Move (fun t₀ t cl ch cl' => HandlerStep t₀ t cl φ ch cl' φ') c

/-! ## The functions that do not yield -/

namespace ClientBase

variable [Configuration] {cl : Client}

theorem wp_close_ {Q : Unit → World → Prop} (hcl : w.clients c = some cl)
    (hheld : Mutex.write c ∉ w.held)
    (hQ : Q () ((w.closeFd cl.socket).put c cl.close_ w.outcomes w.clock)) :
    wp C (close_ c) Q w := by
  simp [close_, clearWriteQueue, hcl, hheld, World.release_hold, Client.log, Client.clearQueue]
  exact hQ

/-- `close` and `abort` do nothing, or close the client. -/
theorem wp_close {Q : Unit → World → Prop} (hcl : w.clients c = some cl)
    (hheld : Mutex.write c ∉ w.held) (hclosed : cl.isOpen = false → Q () w)
    (hopen : cl.isOpen = true → Q () ((w.closeFd cl.socket).put c cl.close_ w.outcomes w.clock)) :
    wp C (close c) Q w := by
  rw [close, wp_bind, wp_this, hcl, Option.elim_some, wp_ite]
  cases h : cl.isOpen with
  | true => exact wp_close_ hcl hheld (hopen h)
  | false => exact hclosed h

omit [Configuration] in
/-- `connect(ip, port)` is an attempt. -/
theorem wp_connectIP {ip : IPAddress} {port : UInt16} {Q : Bool → World → Prop}
    (hcl : w.clients c = some cl)
    (hQ : ∀ ch cl' success w' o, Attempt ip port cl ch cl' success →
      Descriptors w cl.socket ch w' → Q success (w'.put c cl' o w.clock)) :
    wp C (connectIP c ip port) Q w := by
  have hrefused (o : Outcomes) : Q false (w.put c cl.refused o w.clock) :=
    hQ _ _ _ _ o (.refused cl) .kept
  rw [connectIP, wp_bind, wp_this, hcl, Option.elim_some, wp_ite]
  split
  · simpa [hcl] using hrefused w.outcomes
  · rename_i hopen
    rw [wp_bind]
    refine wp_socket (fun o => by simpa [hcl] using hrefused o) fun fd w' o hfd => ?_
    obtain ⟨hpos, -, hw'⟩ := World.acquire_eq_some.mp hfd
    have hcl' : w'.clients c = some cl := by rw [hw', ← hcl]
    have hclock : w'.clock = w.clock := by rw [hw']
    have hattempt : Attempt ip port cl (.opened fd) (cl.opened fd ip port) true :=
      .opened cl fd (by simpa using hopen) hpos
    -- from here on the new descriptor is open, and has to be kept or given back
    simp only [connect, wp_bind]
    refine wp_take_of_forall fun result o => ?_
    rw [wp_ite]
    split
    · -- `::connect` has failed, and the descriptor is given back
      simpa [hcl', hcl, World.closeFd_acquire hfd, hclock] using hrefused o
    · simp only [wp_bind, wp_update, World.elapse_clients, hcl', Option.elim_some]
      refine wp_configureSocket (fun o => ?_) fun o => ?_
      · have h := hQ _ _ _ _ o hattempt (.opened hfd)
        simpa [hclock, Client.log, Client.opened] using h
      · have h := hQ _ _ _ _ o hattempt (.misconfigured hfd)
        simpa [hclock, World.closeFd_acquire hfd, Client.log, Client.opened] using h

omit [Configuration] in
/-- `connect(host, port)` fails, waits for an answer, or is an attempt. -/
theorem wp_connectHost {host : String} {port : UInt16} {Q : Bool → World → Prop}
    (hcl : w.clients c = some cl)
    (hfailed : ∀ o, Q false (w.elapse o w.clock))
    (hwaiting : ∀ o, Q true (w.put c (cl.waiting host port) o w.clock))
    (hcached : ∀ ip ch cl' success w' o, Attempt ip port cl ch cl' success →
      Descriptors w cl.socket ch w' → Q success (w'.put c cl' o w.clock)) :
    wp C (connectHost c host port) Q w := by
  rw [connectHost, gethostbyname, wp_bind]
  refine wp_take_of_forall fun result o => ?_
  cases result with
  | cached ip =>
      rw [World.elapse_eq_put _ _ hcl]
      refine wp_connectIP (World.put_clients_self ..) fun ch cl' success w' o' hattempt hd => ?_
      obtain ⟨w₁, hd₁, rfl⟩ := hd.of_put
      simpa using hcached ip ch cl' success w₁ o' hattempt hd₁
  | inProgress => simpa [hcl] using hwaiting o
  | failed err => simpa using hfailed o

omit [Configuration] in
/-- What `add` is going to queue fits into the write space of a connected client. -/
theorem toSend_pos {size : ℕ} (h : cl.toSend size ≠ 0) :
    cl.connected = true ∧ 0 < cl.toSend size ∧ cl.toSend size ≤ cl.space ∧
      cl.toSend size ≤ size := by
  rw [Client.toSend] at h ⊢
  split at h
  · simp only [‹cl.connected = true›, if_true, true_and]
    omega
  · exact absurd rfl h

omit [Configuration] in
/-- What `add` does, exactly. -/
theorem wp_add_eq {data : List UInt8} {flags : ClientApiFlags} {Q : ℕ → World → Prop}
    (hcl : w.clients c = some cl) (hheld : Mutex.write c ∉ w.held) :
    wp C (add c (some data) flags) Q w ↔
      if cl.toSend data.length = 0 then Q 0 w
      else Q (cl.toSend data.length) (w.tick.put c
        (cl.commit (flags.test .copy) w.tick.clock (data.take (cl.toSend data.length)))
        w.tick.outcomes w.tick.clock) := by
  simp only [add, wp_bind, wp_this, hcl, Option.elim_some, wp_ite, wp_pure, wp_now_eq, wp_lock,
    World.tick_held, hheld, if_false, wp_update, World.hold_clients, World.tick_clients,
    World.hold_outcomes, World.hold_clock, World.hold_put, wp_unlock, World.put_held,
    World.release_hold, not_false_eq_true]

omit [Configuration] in
/-- `add` queues nothing, or a buffer. -/
theorem wp_add {data : Option (List UInt8)} {flags : ClientApiFlags} {Q : ℕ → World → Prop}
    (hcl : w.clients c = some cl) (hheld : Mutex.write c ∉ w.held)
    (hnothing : (∀ d, data = some d → cl.toSend d.length = 0) → Q 0 w)
    (hcommit : ∀ d o t, data = some d → cl.toSend d.length ≠ 0 → w.clock ≤ t →
      Q (cl.toSend d.length)
        (w.put c (cl.commit (flags.test .copy) t (d.take (cl.toSend d.length))) o t)) :
    wp C (add c data flags) Q w := by
  cases data with
  | none =>
      rw [add, wp_pure]
      exact hnothing nofun
  | some d =>
      rw [wp_add_eq hcl hheld]
      split
      · rename_i hzero
        refine hnothing fun d' hd' => ?_
        rwa [← Option.some.inj hd']
      · exact hcommit d _ _ rfl ‹_› w.clock_le_tick

omit [Configuration] in
/-- What `_processWriteQueue` does, exactly. -/
theorem wp_processWriteQueue_eq {Q : Bool → World → Prop} (hcl : w.clients c = some cl) :
    wp C (processWriteQueue c) Q w ↔
      Q (processQueue w.writeIo cl.writeQueue).activity (w.pass c cl) := by
  simp [processWriteQueue, hcl, World.pass, World.writeIo]

omit [Configuration] in
/-- A pass over the write queue. -/
theorem wp_processWriteQueue {Q : Bool → World → Prop} (hcl : w.clients c = some cl)
    (hQ : ∀ io o, io.clock = w.clock → Q (processQueue io cl.writeQueue).activity
      (w.put c (cl.afterPass (processQueue io cl.writeQueue)) o
        (processQueue io cl.writeQueue).io.clock)) :
    wp C (processWriteQueue c) Q w :=
  (wp_processWriteQueue_eq hcl).mpr (hQ w.writeIo _ rfl)

omit [Configuration] in
/-- What `send` does on a connected client, exactly. -/
theorem wp_send_eq {Q : Bool → World → Prop} (hcl : w.clients c = some cl)
    (hheld : Mutex.write c ∉ w.held) (hconnected : cl.connected = true) :
    wp C (send c) Q w ↔
      if w.outcomes.selects.headD false = true ∧ cl.writeQueue ≠ [] then
        Q (processQueue w.writeIo cl.writeQueue).activity (w.selected.pass c cl)
      else Q false w.selected := by
  have hfree : Mutex.write c ∉ w.selected.held := hheld
  rw [send, wp_bind, wp_this, hcl, Option.elim_some, wp_ite, if_neg (by simp [hconnected]), wp_bind,
    selectOne, wp_take]
  -- `select` has consumed an outcome and left everything else alone
  change wp C _ Q w.selected ↔ _
  rw [wp_ite]
  cases hready : w.outcomes.selects.headD false with
  | false => simp
  | true =>
      rw [if_pos rfl, wp_bind, wp_lock, if_neg hfree, wp_bind, wp_this, World.hold_clients,
        World.selected_clients, hcl, Option.elim_some, wp_ite]
      cases hqueue : cl.writeQueue with
      | nil => simp [World.release_hold hfree]
      | cons buf rest =>
          have hclients : (w.selected.hold (.write c)).clients c = some cl := hcl
          simp only [List.isEmpty_cons, Bool.false_eq_true, if_false, wp_bind,
            wp_processWriteQueue_eq hclients, wp_unlock, wp_pure, World.hold_pass, hqueue]
          rw [World.release_hold (by simpa using hfree)]
          simp

omit [Configuration] in
/-- `send` does nothing, or makes a pass over the write queue. -/
theorem wp_send {Q : Bool → World → Prop} (hcl : w.clients c = some cl)
    (hheld : Mutex.write c ∉ w.held)
    (hnothing : ∀ o, Q false (w.elapse o w.clock))
    (hpass : ∀ io o, cl.connected = true → cl.writeQueue ≠ [] → io.clock = w.clock →
      Q (processQueue io cl.writeQueue).activity
        (w.put c (cl.afterPass (processQueue io cl.writeQueue)) o
          (processQueue io cl.writeQueue).io.clock)) :
    wp C (send c) Q w := by
  cases hconnected : cl.connected with
  | false =>
      simp only [send, wp_bind, wp_this, hcl, Option.elim_some, wp_ite, hconnected, Bool.not_false,
        if_true, wp_pure]
      exact hnothing w.outcomes
  | true =>
      rw [wp_send_eq hcl hheld hconnected]
      split
      · rename_i hwrite
        exact hpass w.writeIo _ hconnected hwrite.2 rfl
      · exact hnothing _

end ClientBase

/-! ## Calls of user code -/

variable [Configuration]

/-- A commit of `add` is a move. -/
theorem UserMove.commit {cl : Client} {d : List UInt8} (owned : Bool) (o : Outcomes) {t : Time}
    (hcl : w.clients c = some cl) (hsize : cl.toSend d.length ≠ 0) (ht : w.clock ≤ t) :
    UserMove c w (w.put c (cl.commit owned t (d.take (cl.toSend d.length))) o t) := by
  obtain ⟨hconnected, hpos, hspace, hle⟩ := ClientBase.toSend_pos hsize
  refine .of_kept o hcl ht (.commit cl owned _ hconnected ?_ ?_)
  · rw [ne_eq, ← List.length_eq_zero_iff, List.length_take]
    omega
  · rw [List.length_take]
    omega

/-- A pass of `send` is a move. -/
theorem UserMove.pass {cl : Client} {io : WriteIo} {o : Outcomes} (hcl : w.clients c = some cl)
    (hconnected : cl.connected = true) (hqueue : cl.writeQueue ≠ []) (hio : io.clock = w.clock) :
    UserMove c w (w.put c (cl.afterPass (processQueue io cl.writeQueue)) o
      (processQueue io cl.writeQueue).io.clock) :=
  .of_kept o hcl (hio ▸ clock_le_processQueue io _) (.pass cl io hconnected hqueue hio rfl)

/-- The passage of time is a move. -/
theorem UserMove.elapse {cl : Client} {o : Outcomes} {t : Time} (hcl : w.clients c = some cl)
    (ht : w.clock ≤ t) : UserMove c w (w.elapse o t) := by
  rw [World.elapse_eq_put _ _ hcl]
  exact .of_kept o hcl ht (.stay cl)

/-- `send` does nothing, or makes a pass over the write queue. -/
theorem wp_send_move {cl : Client} (hcl : w.clients c = some cl)
    (hheld : Mutex.write c ∉ w.held) :
    wp C (ClientBase.send c) (fun _ w' => UserMove c w w') w :=
  ClientBase.wp_send hcl hheld (fun _ => UserMove.elapse hcl le_rfl)
    fun _ _ hconnected hqueue hio => UserMove.pass hcl hconnected hqueue hio

/-- User code's calls are moves of user code. -/
theorem wp_call {cl : Client} (u : Call) (hcl : w.clients c = some cl)
    (hheld : Mutex.write c ∉ w.held) :
    wp C (u.routine c) (fun _ w' => Relation.ReflTransGen (UserMove c) w w') w := by
  have hlog (hu : u.isConnect = false) :
      UserMove c w (w.put c (cl.log (.call u)) w.outcomes w.clock) :=
    .of_kept _ hcl le_rfl (.call cl u hu)
  rw [Call.routine.eq_def, wp_bind, wp_log, hcl, Option.elim_some]
  -- a call is recorded first, and then makes the moves of its routine
  cases u with
  | connectIP ip port =>
      rw [wp_bind]
      refine ClientBase.wp_connectIP (World.put_clients_self ..)
        fun ch cl' success w' o hattempt hd => ?_
      obtain ⟨w₁, hd₁, rfl⟩ := hd.of_put
      rw [wp_log, World.put_clients_self, Option.elim_some, World.put_put, World.put_put]
      exact .single
        (.mk o hcl le_rfl (.connect (.connectIP ip port) ip port ⟨rfl, rfl⟩ hattempt) hd₁)
  | connectHost host port =>
      rw [wp_bind]
      refine ClientBase.wp_connectHost (World.put_clients_self ..) (fun o => ?_) (fun o => ?_)
        fun ip ch cl' success w' o hattempt hd => ?_
      · rw [wp_log, World.put_elapse, World.put_clients_self, Option.elim_some, World.put_put]
        exact .single (.of_kept _ hcl le_rfl (.rejected cl _ rfl))
      · rw [wp_log, World.put_clients_self, Option.elim_some, World.put_put, World.put_put]
        exact .single (.of_kept _ hcl le_rfl (.wait cl host port))
      · obtain ⟨w₁, hd₁, rfl⟩ := hd.of_put
        rw [wp_log, World.put_clients_self, Option.elim_some, World.put_put, World.put_put]
        exact .single
          (.mk o hcl le_rfl (.connect (.connectHost host port) ip port rfl hattempt) hd₁)
  | close =>
      refine ClientBase.wp_close (World.put_clients_self ..) (by simpa using hheld)
        (fun _ => .single (hlog rfl)) fun hopen => ?_
      refine .tail (.single (hlog rfl))
        (.mk _ (World.put_clients_self ..) le_rfl (.close _ hopen) .closed)
  | abort =>
      exact ClientBase.wp_close (World.put_clients_self ..) (by simpa using hheld)
        (fun _ => .single (hlog rfl)) fun hopen => .tail (.single (hlog rfl))
          (.mk _ (World.put_clients_self ..) le_rfl (.close _ hopen) .closed)
  | add data flags =>
      rw [wp_bind]
      refine ClientBase.wp_add (World.put_clients_self ..) (by simpa using hheld)
        (fun _ => .single (hlog rfl)) fun d o t hd hsize ht => ?_
      exact .tail (.single (hlog rfl)) (UserMove.commit _ _ (World.put_clients_self ..) hsize ht)
  | send =>
      rw [wp_bind]
      exact wp_mono (wp_send_move (World.put_clients_self ..) (by simpa using hheld))
        fun _ w' hw' => .tail (.single (hlog rfl)) hw'
  | write data flags =>
      rw [wp_bind, ClientBase.write, wp_bind]
      refine ClientBase.wp_add (World.put_clients_self ..) (by simpa using hheld)
        (fun _ => .single (hlog rfl)) fun d o t hd hsize ht => ?_
      have hadd := (Relation.ReflTransGen.single (hlog rfl)).tail
        (UserMove.commit (flags.test .copy) o (World.put_clients_self ..) hsize ht)
      rw [wp_ite, if_neg hsize, wp_ite]
      split
      · rw [wp_bind]
        refine wp_mono (wp_send_move (World.put_clients_self ..) (by simpa using hheld)) ?_
        intro success w' hw'
        cases success <;> exact hadd.tail hw'
      · exact hadd
  | setAckTimeout timeout =>
      rw [wp_update, World.put_clients_self, Option.elim_some]
      exact .tail (.single (hlog rfl)) (.of_kept _ (World.put_clients_self ..) le_rfl
        (UserStep.configure _ timeout _))
  | setRxTimeout timeout =>
      rw [wp_update, World.put_clients_self, Option.elim_some]
      exact .tail (.single (hlog rfl)) (.of_kept _ (World.put_clients_self ..) le_rfl
        (UserStep.configure _ _ timeout))

end AsyncTcpSock
