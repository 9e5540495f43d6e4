import AsyncTcpSock.Runs
import AsyncTcpSock.Soundness

/-!
# Connecting again in the ERROR callback

`_error` invokes the `ERROR` callback first and closes the client afterwards. The close acts on
whatever connection the client then has: when the callback has made a new one, this is the new one.
-/

namespace AsyncTcpSock

open Reentrant

/-- Since the history was `past`, a call of `connect(ip, port)` has returned true and made `socket`
the socket of the client. -/
def ReconnectedTo (socket : ℤ) (past now : List Event) : Prop :=
  ∃ before ip port, .returned true :: .opened socket ip port :: .call (.connectIP ip port) :: before
    <:+ now ∧ past <:+ before

section

variable [Configuration] {w : World} {c : ClientId} {cl : Client} {e : ℤ}

/-- What a callback of `_error` finds, and what comes after it. -/
theorem error_eq (hcl : w.clients c = some cl) :
    ClientBase.error c e w = .yield (.client c (.error e) false)
      (w.setClient c (cl.log (.callback (.error e)))) (ClientBase.close_ c) := by
  simp only [ClientBase.error, Proc.invoke, Proc.log, Proc.update, bind, Outcome.bind, hcl,
    Routine.yield]

/-- User code in a callback keeps the world sound. -/
theorem sound_of_callback {i : Yield} {w' : World}
    (h : Relation.ReflTransGen (machine.envOf (fun _ _ _ => True) i) w w') (hw : w.Sound) :
    w'.Sound := by
  induction h with
  | refl => exact hw
  | tail _ henv ih =>
      obtain ⟨e, -, happly⟩ := henv
      exact (Ext.change ih.unheld happly).sound ih

omit [Configuration] in
/-- So does the invocation of the callback. -/
theorem World.Sound.invoke (hw : w.Sound) (hcl : w.clients c = some cl) (cb : Callback) :
    (w.setClient c (cl.log (.callback cb))).Sound :=
  (Move.of_kept (R := fun _ _ _ _ _ => True) w.outcomes hcl le_rfl trivial).sound hw

/-- `_error` invokes the callback, and whatever this does, the client has no connection when
`_error` returns. So a connection that a call of `connect(ip, port)` has made in the callback
survives exactly when there is none. -/
theorem error_keeps_reconnection (hw : w.Sound) (hcl : w.clients c = some cl) (e : ℤ) :
    ∃ resume, ClientBase.error c e w = .yield (.client c (.error e) false)
        (w.setClient c (cl.log (.callback (.error e)))) resume ∧
      ∀ w₂ cl₂, Relation.ReflTransGen
          (machine.envOf (fun _ _ _ => True) (.client c (.error e) false))
          (w.setClient c (cl.log (.callback (.error e)))) w₂ →
        w₂.clients c = some cl₂ →
        ∃ w₃ cl₃, resume w₂ = .done () w₃ ∧ w₃.clients c = some cl₃ ∧
          ((∀ socket, ReconnectedTo socket (.callback (.error e) :: cl.history) cl₂.history →
              cl₃.state = .connecting ∧ cl₃.socket = socket) ↔
            ∀ socket, ¬ ReconnectedTo socket (.callback (.error e) :: cl.history) cl₂.history) := by
  refine ⟨ClientBase.close_ c, error_eq hcl, fun w₂ cl₂ hcallback hcl₂ => ?_⟩
  have hw₂ := sound_of_callback hcallback (hw.invoke hcl (.error e))
  -- whatever the callback did, `_close` is what is left of the call
  have hclose : wp faultless (ClientBase.close_ c)
      (fun _ w₃ => w₃.clients c = some cl₂.close_) w₂ :=
    ClientBase.wp_close_ hcl₂ (by simp [hw₂.unheld]) (World.put_clients_self ..)
  obtain ⟨_, w₃, hdone, hcl₃⟩ := exists_done_of_wp hclose
  refine ⟨w₃, cl₂.close_, hdone, hcl₃, fun hkeeps socket hreconnected => ?_,
    fun hnone socket h => ?_⟩
  · -- the client has just been closed
    cases (hkeeps socket hreconnected).1
  · exact absurd h (hnone socket)

end

section

attribute [local instance] Configuration.esp32

/-- A world with one client, when there is a socket for it. -/
def oneClient : World :=
  { World.addClient {} (Client.new 0) with outcomes := { sockets := [49], connects := [none] } }

/-- A client without a connection connects in the callback: it has lost the connection when `_error`
returns. -/
theorem error_keeps_reconnection_lost :
    ∃ (resume : World → Outcome World Yield Fault Unit) (w₂ w₃ : World) (cl₂ cl₃ : Client),
      ClientBase.error 0 ERR_DNS_RESOLUTION_FAILED oneClient =
        .yield (.client 0 (.error ERR_DNS_RESOLUTION_FAILED) false)
          (oneClient.setClient 0
            ((Client.new 0).log (.callback (.error ERR_DNS_RESOLUTION_FAILED)))) resume ∧
      resume w₂ = .done () w₃ ∧ w₃.clients 0 = some cl₃ ∧
      ¬ ∀ socket, ReconnectedTo socket [.callback (.error ERR_DNS_RESOLUTION_FAILED)] cl₂.history →
        cl₃.state = .connecting ∧ cl₃.socket = socket := by
  have hcl : oneClient.clients 0 = some (Client.new 0) := rfl
  have hsound : oneClient.Sound := { World.sound_empty.addClient (Client.new 0) with }
  obtain ⟨resume, hyield, h⟩ := error_keeps_reconnection hsound hcl ERR_DNS_RESOLUTION_FAILED
  -- the callback makes one call
  have hcall : ((Ext.call 0 (.connectIP (.v4 1) 80)).apply (oneClient.setClient 0
      ((Client.new 0).log (.callback (.error ERR_DNS_RESOLUTION_FAILED))))).any
      (fun w₂ => (w₂.clients 0).any fun cl₂ => cl₂.history =
        [.returned true, .opened 49 (.v4 1) 80, .call (.connectIP (.v4 1) 80),
          .callback (.error ERR_DNS_RESOLUTION_FAILED)]) = true := by decide +kernel
  obtain ⟨w₂, happly, hclient⟩ := (Option.any_eq_true _ _).mp hcall
  obtain ⟨cl₂, hcl₂, hhistory⟩ := (Option.any_eq_true _ _).mp hclient
  obtain ⟨w₃, cl₃, hdone, hcl₃, hiff⟩ := h w₂ cl₂
    (.single ⟨Ext.call 0 (.connectIP (.v4 1) 80), trivial, happly⟩) hcl₂
  have hreconnected : ReconnectedTo 49 [.callback (.error ERR_DNS_RESOLUTION_FAILED)]
      cl₂.history := by
    rw [of_decide_eq_true hhistory]
    exact ⟨_, _, _, List.suffix_rfl, List.suffix_rfl⟩
  exact ⟨resume, w₂, w₃, cl₂, cl₃, hyield, hdone, hcl₃,
    fun hkeeps => hiff.mp hkeeps 49 hreconnected⟩

/-- The socket reports an error, and in the callback the client is closed and connects again: when
`_error` returns, the new connection is closed. -/
theorem not_error_keeps_reconnection :
    ∃ s cl past, Reachable s ∧ s.control = .idle ∧ s.state.clients 0 = some cl ∧
      ReconnectedTo 49 (.callback (.error 111) :: past) cl.history ∧
      ¬ (cl.state = .connecting ∧ cl.socket = 49) := by
  obtain ⟨s, cl, hs, hidle, hcl, hstate, hhistory⟩ := exists_idle_client
    (P := fun cl => cl.state = .disconnecting ∧ cl.history =
      [.closed true, .returned true, .opened 49 (.v4 1) 80, .call (.connectIP (.v4 1) 80),
        .closed true, .call .close, .callback (.error 111), .entered .writeable, .returned true,
        .opened 48 (.v4 1) 80, .call (.connectIP (.v4 1) 80)])
    [.ext .newClient,
      .ext (.outcomes
        { sockets := [48, 49], connects := [none, none], sockopts := [.socketError 111] }),
      .ext (.call 0 (.connectIP (.v4 1) 80)), .start (.handle .writeable 0),
      .ext (.call 0 .close), .ext (.call 0 (.connectIP (.v4 1) 80)), .resume] 0 (by decide +kernel)
  refine ⟨s, cl, [.entered .writeable, .returned true, .opened 48 (.v4 1) 80,
    .call (.connectIP (.v4 1) 80)], hs, hidle, hcl, ?_,
    fun h => absurd (hstate.symm.trans h.1) nofun⟩
  rw [hhistory]
  exact ⟨_, _, _, List.suffix_cons .., ⟨[_, _], rfl⟩⟩

end

end AsyncTcpSock
