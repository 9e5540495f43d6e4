import AsyncTcpSock.Manager

/-!
# The system

The manager and user code as one machine. The manager runs whole cycles, or single handlers on
registered clients and servers in any order, which covers every order of manager steps. User code
runs between them and inside every callback: it calls member functions, constructs and destroys
objects. The lwIP thread answers DNS queries at the same points.
-/

namespace AsyncTcpSock

open Reentrant Proc

variable [Configuration]

/-- What the manager may start. -/
inductive Op where
  /-- One iteration of the manager loop. -/
  | cycle
  /-- What a phase does with client `c`, if `c` is registered. -/
  | handle (h : Handler) (c : ClientId)
  /-- What the server phase does with `srv`, if `srv` is registered. -/
  | handleServer (srv : ServerId)
  deriving DecidableEq, Repr

/-- What user code and the operating system may do. -/
inductive Ext where
  /-- A call of a client's member function. -/
  | call (c : ClientId) (u : Call)
  | newClient
  /-- The construction of a client for a descriptor user code has just accepted. -/
  | newClientFrom (socket : ℤ)
  | deleteClient (c : ClientId)
  | newServer (addr : IPAddress) (port : UInt16)
  | deleteServer (srv : ServerId)
  | beginServer (srv : ServerId)
  | endServer (srv : ServerId)
  | onClient (srv : ServerId) (handler : Bool)
  /-- The answer to a query of client `c`; `none` when the name could not be resolved. -/
  | dnsFound (c : ClientId) (q : DnsQuery) (answer : Option IPAddress)
  /-- The operating system settles the outcomes of the system calls to come. -/
  | outcomes (o : Outcomes)

/-- The routine of an operation. A DNS answer is handled when there is one, as in the loop. -/
def Op.routine : Op → Proc Unit
  | cycle => Manager.updateConnectionStates
  | handle .delayedConnect c => do
      if c ∈ (← Routine.get).clientList then
        -- the phase of the loop chooses the clients with an answer
        if (← this c).dnsFinished then Manager.handle .delayedConnect c
  | handle h c => do
      if c ∈ (← Routine.get).clientList then Manager.handle h c
  | handleServer srv => do
      if srv ∈ (← Routine.get).serverList then Manager.handleServer srv

/-- A call of client `c`, recorded in its history. -/
def Call.routine (c : ClientId) (u : Call) : Proc Unit := do
  log c (.call u)
  match u with
  | connectIP ip port =>
      let success ← ClientBase.connectIP c ip port
      log c (.returned success)
  | connectHost host port =>
      let success ← ClientBase.connectHost c host port
      log c (.returned success)
  | close => ClientBase.close c
  | abort => ClientBase.abort c
  | add data flags =>
      let _ ← ClientBase.add c data flags
  | send =>
      let _ ← ClientBase.send c
  | write data flags =>
      let _ ← ClientBase.write c data flags
  | setAckTimeout timeout => update c fun cl => { cl with ackTimeout := timeout }
  | setRxTimeout timeout => update c fun cl => { cl with rxTimeout := timeout }

/-- Run a routine that does not yield; `none` when it faults. -/
def exec {α : Type} (p : Proc α) (w : World) : Option World :=
  match p w with
  | .done _ w' => some w'
  | _ => none

/-- The effect of an external step. -/
def Ext.apply : Ext → World → Option World
  | call c u, w => exec (u.routine c) w
  | newClient, w => exec AsyncTcpSock.newClient w
  | newClientFrom socket, w =>
      -- the descriptor is open, and nobody else has it
      (w.acquire socket).bind (exec (AsyncTcpSock.newClientFrom socket))
  | deleteClient c, w => exec (AsyncTcpSock.deleteClient c) w
  | newServer addr port, w => exec (Server.new addr port) w
  | deleteServer srv, w => exec (Server.delete srv) w
  | beginServer srv, w => exec (Server.begin srv) w
  | endServer srv, w => exec (Server.end_ srv) w
  | onClient srv handler, w => exec (Server.onClient srv handler) w
  | dnsFound c q answer, w =>
      (w.clients c).bind fun cl =>
        -- the lwIP thread answers each query once
        if q ∈ cl.dnsPending then some (w.setClient c (cl.dnsFound q answer)) else none
  | outcomes o, w => some { w with outcomes := o }

/-- The library together with its environment. -/
@[reducible]
def machine : Machine World Yield Fault where
  Op := Op
  Ext := Ext
  op := Op.routine
  ext := Ext.apply

/-- A configuration of the system. -/
abbrev System : Type := Config World Yield Fault

/-- The system before any object has been constructed. -/
def System.initial : System := ⟨{}, .idle⟩

/-- A condition on the external steps of a run: it may look at the callback that is running, if
any, and at the world before the step. -/
abbrev StepCondition : Type := Option Yield → World → Ext → Prop

/-- The states of the runs whose external steps all meet `good`. -/
abbrev ReachableIf (good : StepCondition) (s : System) : Prop := machine.Reachable good {} s

/-- The states of all runs. -/
abbrev Reachable (s : System) : Prop := ReachableIf (fun _ _ _ => True) s

end AsyncTcpSock
