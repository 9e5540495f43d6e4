import AsyncTcpSock.Registry

/-!
# Public calls

User code may call the library inside a callback, while the manager is in the middle of a handler.
Every call returns: it waits for no mutex that the manager holds, it invokes no other callback, and
the only thing that can go wrong is that it is made on an object that does not exist any more.
-/

namespace AsyncTcpSock

open Reentrant Proc

/-- What the external step `e` is about exists in world `w`. -/
def Ext.Usable (w : World) : Ext → Prop
  | call c _ | deleteClient c => (w.clients c).isSome
  | deleteServer srv | beginServer srv | endServer srv | onClient srv _ => (w.servers srv).isSome
  -- the operating system has just handed the descriptor out
  | newClientFrom socket => 0 ≤ socket ∧ socket ∉ w.descriptors
  -- the lwIP thread still owes the client an answer
  | dnsFound c q _ => ∃ cl, w.clients c = some cl ∧ q ∈ cl.dnsPending
  | newClient | newServer _ _ | outcomes _ => True

section

variable [Configuration] {e : Ext} {w w' : World}

/-- A step on objects that exist is possible. -/
theorem Ext.exists_apply (hheld : w.held = ∅) (h : e.Usable w) :
    ∃ w', e.apply w = some w' ∧ Change e w w' := by
  cases e with
  | call c u =>
      obtain ⟨cl, hcl⟩ := Option.isSome_iff_exists.mp h
      exact exists_exec_of_wp (wp_mono (wp_call u hcl (by simp [hheld])) fun _ _ h => .call h)
  | newClient => exact exists_exec_of_wp (wp_newClient_change hheld)
  | newClientFrom socket =>
      -- the descriptor handed over is open from here on
      have hw₁ := World.acquire_eq_some.mpr ⟨h.1, h.2, rfl⟩
      obtain ⟨w', hw', hchange⟩ := exists_exec_of_wp (wp_newClientFrom_change hheld hw₁)
      exact ⟨w', Option.bind_eq_some_iff.mpr ⟨_, hw₁, hw'⟩, hchange⟩
  | deleteClient c =>
      obtain ⟨cl, hcl⟩ := Option.isSome_iff_exists.mp h
      exact exists_exec_of_wp (wp_deleteClient_of hheld hcl)
  | newServer addr port => exact exists_exec_of_wp (wp_newServer hheld)
  | deleteServer srv =>
      obtain ⟨s, hs⟩ := Option.isSome_iff_exists.mp h
      exact exists_exec_of_wp (wp_deleteServer_of hheld hs)
  | beginServer srv =>
      obtain ⟨s, hs⟩ := Option.isSome_iff_exists.mp h
      exact exists_exec_of_wp (wp_begin_of hs)
  | endServer srv =>
      obtain ⟨s, hs⟩ := Option.isSome_iff_exists.mp h
      exact exists_exec_of_wp (wp_end hs (.ended hs))
  | onClient srv handler =>
      obtain ⟨s, hs⟩ := Option.isSome_iff_exists.mp h
      refine exists_exec_of_wp ?_
      rw [Server.onClient, wp_updateServer, hs, Option.elim_some]
      exact .onClient hs
  | dnsFound c q answer =>
      obtain ⟨cl, hcl, hq⟩ := h
      refine ⟨w.setClient c (cl.dnsFound q answer), ?_,
        .dnsFound (.of_kept w.outcomes hcl le_rfl (.answer cl q answer hq))⟩
      rw [Ext.apply, hcl, Option.bind_some, if_pos hq]
  | outcomes o => exact ⟨_, rfl, .outcomes⟩

omit [Configuration] in
/-- A routine that is bound to fault does not return. -/
theorem exec_ne_some {α : Type} {p : Proc α} (h : wp silent p (fun _ _ => False) w) :
    exec p w ≠ some w' :=
  exec_of_wp (Q := fun _ => False) h

/-- A step that is possible is about objects that exist. -/
theorem Ext.usable_of_apply (hheld : w.held = ∅) (happly : e.apply w = some w') : e.Usable w := by
  have hmanager : Mutex.manager ∉ w.held := by simp [hheld]
  cases e with
  | call c u =>
      -- the call of a client that is gone faults when it is recorded
      by_contra hgone
      apply exec_ne_some _ happly
      rw [Call.routine.eq_def, wp_bind, wp_log, Option.not_isSome_iff_eq_none.mp hgone]
      trivial
  | deleteClient c =>
      by_contra hgone
      apply exec_ne_some _ happly
      rw [AsyncTcpSock.deleteClient, wp_bind]
      refine wp_unmanage hmanager ?_
      rw [wp_bind, ClientBase.close, wp_bind, wp_this]
      simp only [Option.not_isSome_iff_eq_none.mp hgone, Option.elim_none]
      trivial
  | deleteServer srv =>
      by_contra hgone
      apply exec_ne_some _ happly
      rw [Server.delete, wp_bind]
      refine wp_unmanageServer hmanager ?_
      rw [wp_bind, Server.end_, wp_bind, wp_server]
      simp only [Option.not_isSome_iff_eq_none.mp hgone, Option.elim_none]
      trivial
  | beginServer srv =>
      by_contra hgone
      apply exec_ne_some _ happly
      rw [Server.begin, wp_bind, wp_server, Option.not_isSome_iff_eq_none.mp hgone]
      trivial
  | endServer srv =>
      by_contra hgone
      apply exec_ne_some _ happly
      rw [Server.end_, wp_bind, wp_server, Option.not_isSome_iff_eq_none.mp hgone]
      trivial
  | onClient srv handler =>
      by_contra hgone
      apply exec_ne_some _ happly
      rw [Server.onClient, wp_updateServer, Option.not_isSome_iff_eq_none.mp hgone]
      trivial
  | newClientFrom socket =>
      obtain ⟨w₁, hw₁, -⟩ := Option.bind_eq_some_iff.mp happly
      obtain ⟨hpos, hmem, -⟩ := World.acquire_eq_some.mp hw₁
      exact ⟨hpos, hmem⟩
  | dnsFound c q answer =>
      obtain ⟨cl, hcl, h⟩ := Option.bind_eq_some_iff.mp happly
      split at h
      · exact ⟨cl, hcl, ‹_›⟩
      · cases h
  | newClient | newServer | outcomes => trivial

/-- Whatever a run has come to, in a callback as well as between operations, a public call returns
if and only if the objects it uses exist: it invokes no callback and waits for no mutex. When it
returns, no mutex is held. -/
theorem calls_return {s : System} (hs : Reachable s) (hrunning : ∀ f, s.control ≠ .faulted f)
    (e : Ext) : e.Usable s.state ↔ ∃ w', e.apply s.state = some w' ∧ w'.held = ∅ := by
  obtain ⟨hsound, -⟩ := hs.registry hrunning
  constructor
  · intro h
    obtain ⟨w', happly, hchange⟩ := Ext.exists_apply hsound.unheld h
    exact ⟨w', happly, (hchange.sound hsound).unheld⟩
  · rintro ⟨w', happly, -⟩
    exact Ext.usable_of_apply hsound.unheld happly

end

section

attribute [local instance] Configuration.esp32

/-- In the `CONNECT` callback of a client, the client can be destroyed. -/
theorem calls_return_connect :
    ∃ s, Reachable s ∧ s.control.place = some (.client 0 .connect false) ∧
      (s.state.clients 0).isSome = true ∧
      (Ext.Usable s.state (.deleteClient 0) ↔
        ∃ w', Ext.apply (.deleteClient 0) s.state = some w' ∧ w'.held = ∅) := by
  obtain ⟨s, hs, hplace, hclient⟩ := exists_reachable
    (P := fun s => s.control.place = some (.client 0 .connect false) ∧
      (s.state.clients 0).isSome = true)
    [.ext .newClient,
      .ext (.outcomes { sockets := [48], connects := [none], sockopts := [.socketError 0] }),
      .ext (.call 0 (.connectIP (.v4 1) 80)), .start (.handle .writeable 0)] (by decide +kernel)
  have hrunning (f : Fault) : s.control ≠ .faulted f := by
    intro hfaulted
    rw [hfaulted] at hplace
    cases hplace
  exact ⟨s, hs, hplace, hclient, calls_return hs hrunning _⟩

end

end AsyncTcpSock
