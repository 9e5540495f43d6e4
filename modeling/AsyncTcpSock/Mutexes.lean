import AsyncTcpSock.CycleRules
import AsyncTcpSock.Runs

/-!
# No self-deadlock

The mutexes of the library are not recursive, and `Proc.lock` faults when it locks one that is held.
No run of the system comes to such a fault, whatever user code does in callbacks, because every
callback is invoked with all mutexes free.
-/

namespace AsyncTcpSock

open Reentrant

/-! ## The property -/

/-- What goes wrong when a routine is executed, if anything. -/
def faultOf {α : Type} (p : Proc α) (w : World) : Option Fault :=
  match p w with
  | .fault f _ => some f
  | _ => none

/-- What goes wrong in an external step, if anything. -/
def Ext.fault [Configuration] : Ext → World → Option Fault
  | call c u, w => faultOf (u.routine c) w
  | newClient, w => faultOf AsyncTcpSock.newClient w
  | newClientFrom socket, w =>
      (w.acquire socket).bind (faultOf (AsyncTcpSock.newClientFrom socket))
  | deleteClient c, w => faultOf (AsyncTcpSock.deleteClient c) w
  | newServer addr port, w => faultOf (Server.new addr port) w
  | deleteServer srv, w => faultOf (Server.delete srv) w
  | beginServer srv, w => faultOf (Server.begin srv) w
  | endServer srv, w => faultOf (Server.end_ srv) w
  | onClient srv handler, w => faultOf (Server.onClient srv handler) w
  | dnsFound _ _ _, _ => none
  | outcomes _, _ => none

/-- Whether a fault is a mutex locked twice. -/
def Fault.isDeadlock : Fault → Bool
  | deadlock _ => true
  | _ => false

/-! ## External steps -/

/-- The contract of code that may use a destroyed object but locks no mutex twice. -/
def deadlockFree : Contract World Yield Fault where
  env _ _ _ := False
  atYield _ _ := False
  atFault f _ := f.isDeadlock = false

/-- A routine under this contract does not lock a mutex twice. -/
theorem isDeadlock_of_wp {α : Type} {p : Proc α} {Q : α → World → Prop} {w : World} {f : Fault}
    (h : wp deadlockFree p Q w) (hf : faultOf p w = some f) : f.isDeadlock = false := by
  rw [wp] at h
  rw [faultOf] at hf
  cases hp : p w with
  | done a w' =>
      rw [hp] at hf
      cases hf
  | yield i w' k =>
      rw [hp] at hf
      cases hf
  | fault f' w' =>
      rw [hp] at h hf
      exact Option.some.inj hf ▸ h

section

variable [Configuration]

/-- User code that runs with all mutexes free locks none of them twice. -/
theorem Ext.fault_isDeadlock {e : Ext} {w : World} {f : Fault} (hheld : w.held = ∅)
    (hf : e.fault w = some f) : f.isDeadlock = false := by
  have hclient (c : ClientId) (w : World) : deadlockFree.atFault (.staleClient c) w := rfl
  have hserver (srv : ServerId) (w : World) : deadlockFree.atFault (.staleServer srv) w := rfl
  cases e with
  | call c u => exact isDeadlock_of_wp (wp_call_change hclient hheld) hf
  | newClient => exact isDeadlock_of_wp (wp_newClient_change hheld) hf
  | newClientFrom socket =>
      obtain ⟨w₁, hw₁, hf⟩ := Option.bind_eq_some_iff.mp hf
      exact isDeadlock_of_wp (wp_newClientFrom_change hheld hw₁) hf
  | deleteClient c => exact isDeadlock_of_wp (wp_deleteClient hclient hheld) hf
  | newServer addr port => exact isDeadlock_of_wp (wp_newServer hheld) hf
  | deleteServer srv => exact isDeadlock_of_wp (wp_deleteServer hserver hheld) hf
  | beginServer srv => exact isDeadlock_of_wp (wp_begin hserver) hf
  | endServer srv => exact isDeadlock_of_wp (wp_endServer hserver) hf
  | onClient srv handler => exact isDeadlock_of_wp (wp_onClient hserver) hf
  | dnsFound c q answer => cases hf
  | outcomes o => cases hf

/-! ## The system -/

variable {good : StepCondition}

theorem mutexRule :
    KeptRule (fun _ => World.Sound) (fun f _ => f.isDeadlock = false) fun _ => True where
  handler := fun _ _ _ => trivial
  user := fun _ _ _ => trivial
  change := fun _ _ _ => trivial
  update := fun _ _ _ _ _ => trivial
  agrees := fun _ _ => trivial
  yield := fun hw _ => hw
  staleClient := fun _ => rfl
  staleServer := fun _ => rfl

theorem mutexHolds {s : System} (hs : Reachable s) :
    Machine.Holds (systemContract (fun _ _ _ => True) (fun _ => World.Sound)
      fun f _ => f.isDeadlock = false) (fun w => w.Sound ∧ True) s :=
  holds_of_rules mutexRule.clientRule mutexRule.serverRule
    (fun _ hw _ => (mutexRule.cycleRule fun _ _ => trivial).wp_updateConnectionStates hw trivial)
    trivial
    (fun _ _ _ _ _ _ _ => trivial)
    (fun _ _ _ _ hw _ happly => (Ext.change hw.unheld happly).sound hw) hs

/-- In every run the manager locks no mutex twice, every callback is invoked with all mutexes free,
and nothing that user code does in a callback or between operations locks a mutex twice. -/
theorem no_self_deadlock {s : System} (hs : Reachable s) :
    (∀ f, s.control = .faulted f → f.isDeadlock = false) ∧
      (∀ i k, s.control = .suspended i k → s.state.held = ∅) ∧
      ((∀ f, s.control ≠ .faulted f) →
        ∀ (e : Ext) (f : Fault), e.fault s.state = some f → f.isDeadlock = false) := by
  have h := mutexHolds hs
  obtain ⟨w, control⟩ := s
  cases control with
  | idle => exact ⟨nofun, nofun, fun _ e f hf => Ext.fault_isDeadlock h.1.unheld hf⟩
  | suspended i k =>
      exact ⟨nofun, fun _ _ _ => h.1.unheld, fun _ e f hf => Ext.fault_isDeadlock h.1.unheld hf⟩
  | faulted f =>
      refine ⟨fun f' hf' => ?_, nofun, fun hnot => absurd rfl (hnot f)⟩
      obtain rfl := Control.faulted.inj hf'
      exact h

end

section

attribute [local instance] Configuration.esp32

/-- In the `CONNECT` callback of a client all mutexes are free. -/
theorem no_self_deadlock_connect :
    ∃ s, Reachable s ∧ s.control.place = some (.client 0 .connect false) ∧ s.state.held = ∅ := by
  obtain ⟨s, hs, hplace⟩ := exists_reachable
    (P := fun s => s.control.place = some (.client 0 .connect false))
    [.ext .newClient,
      .ext (.outcomes { sockets := [48], connects := [none], sockopts := [.socketError 0] }),
      .ext (.call 0 (.connectIP (.v4 1) 80)), .start (.handle .writeable 0)] (by decide +kernel)
  obtain ⟨k, hk⟩ := Control.place_eq_some.mp hplace
  exact ⟨s, hs, hplace, (no_self_deadlock hs).2.1 _ k hk⟩

end

end AsyncTcpSock
