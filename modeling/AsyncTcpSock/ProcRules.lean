import Mathlib.Data.Finset.Basic
import AsyncTcpSock.System

/-!
# Rules for the primitives

The weakest precondition of every primitive of `Proc`. Worlds are kept in a normal form: `World.put`
and `World.elapse` absorb earlier changes of the same fields, and `World.hold` stays outside of them
until `World.release` cancels it.
-/

namespace AsyncTcpSock

open Reentrant

namespace World

/-- The world with outcomes `o` to come, at time `t`. -/
@[simps clients servers clientList serverList held descriptors outcomes clock]
def elapse (w : World) (o : Outcomes) (t : Time) : World := { w with outcomes := o, clock := t }

/-- The world with client `c` replaced, with outcomes `o` to come, at time `t`. -/
@[simps servers clientList serverList held descriptors outcomes clock]
def put (w : World) (c : ClientId) (cl : Client) (o : Outcomes) (t : Time) : World :=
  { w with clients := Function.update w.clients c (some cl), outcomes := o, clock := t }

/-- The world in which the steady clock has been read. -/
def tick (w : World) : World :=
  w.elapse { w.outcomes with ticks := w.outcomes.ticks.tail }
    (w.clock + w.outcomes.ticks.headD 0)

/-- The world in which `select` has been called on one socket. -/
def selected (w : World) : World :=
  w.elapse { w.outcomes with selects := w.outcomes.selects.tail } w.clock

/-- What a pass over a write queue takes from the world. -/
def writeIo (w : World) : WriteIo := ⟨w.outcomes.writes, w.outcomes.ticks, w.clock⟩

/-- The world in which a pass over the write queue of client `c` has been made. -/
def pass (w : World) (c : ClientId) (cl : Client) : World :=
  let p := processQueue w.writeIo cl.writeQueue
  w.put c (cl.afterPass p) { w.outcomes with writes := p.io.writes, ticks := p.io.ticks } p.io.clock

/-- The world in which some `fcntl` has failed. -/
@[simps clients servers outcomes clock]
def misconfigure (w : World) : World := { w with fcntlFailed := true }

/-- The world with mutex `m` held. -/
@[simps clients clientList serverList held outcomes clock]
def hold (w : World) (m : Mutex) : World := { w with held := insert m w.held }

/-- The world with mutex `m` free. -/
def release (w : World) (m : Mutex) : World := { w with held := w.held.erase m }

section

variable (w : World) (c : ClientId) (cl cl' : Client) (o o' : Outcomes) (t t' : Time) (m : Mutex)
  (fd : ℤ)

/-- The client that has been replaced. -/
@[simp]
theorem put_clients_self : (w.put c cl o t).clients c = some cl := Function.update_self ..

/-- The other clients are as before. -/
theorem put_clients_of_ne {c c' : ClientId} (h : c' ≠ c) :
    (w.put c cl o t).clients c' = w.clients c' := Function.update_of_ne h ..

/-- Reading the clock changes no client. -/
@[simp]
theorem tick_clients : w.tick.clients = w.clients := rfl

/-- Reading the clock takes no mutex. -/
@[simp]
theorem tick_held : w.tick.held = w.held := rfl

/-- `select` changes no client. -/
@[simp]
theorem selected_clients : w.selected.clients = w.clients := rfl

/-- `select` takes no mutex. -/
@[simp]
theorem selected_held : w.selected.held = w.held := rfl

/-- `select` takes nothing from what a pass over a write queue is going to see. -/
@[simp]
theorem selected_writeIo : w.selected.writeIo = w.writeIo := rfl

/-- Neither does a mutex. -/
@[simp]
theorem hold_writeIo : (w.hold m).writeIo = w.writeIo := rfl

/-- A pass may be made before or after a mutex is taken. -/
@[simp]
theorem hold_pass : (w.hold m).pass c cl = (w.pass c cl).hold m := rfl

/-- A pass takes no mutex. -/
@[simp]
theorem pass_held : (w.pass c cl).held = w.held := rfl

/-- The clock does not go back. -/
theorem clock_le_tick : w.clock ≤ w.tick.clock := Nat.le_add_right ..

/-- The later client replaces the earlier one. -/
@[simp]
theorem put_put : (w.put c cl o t).put c cl' o' t' = w.put c cl' o' t' := by
  simp [put]

/-- The later time replaces the earlier one. -/
@[simp]
theorem elapse_elapse : (w.elapse o t).elapse o' t' = w.elapse o' t' := rfl

/-- A replaced client absorbs the time that passes after it. -/
@[simp]
theorem put_elapse : (w.put c cl o t).elapse o' t' = w.put c cl o' t' := rfl

/-- A replaced client absorbs the time that has passed before it. -/
@[simp]
theorem elapse_put : (w.elapse o t).put c cl o' t' = w.put c cl o' t' := rfl

/-- A mutex stays outside of a replaced client. -/
@[simp]
theorem hold_put : (w.hold m).put c cl o t = (w.put c cl o t).hold m := rfl

/-- A mutex stays outside of the time that passes. -/
@[simp]
theorem hold_elapse : (w.hold m).elapse o t = (w.elapse o t).hold m := rfl

/-- A replaced client stays outside of a failed `fcntl`. -/
@[simp]
theorem put_misconfigure : (w.put c cl o t).misconfigure = w.misconfigure.put c cl o t := rfl

/-- The time that passes stays outside of a failed `fcntl`. -/
@[simp]
theorem elapse_misconfigure : (w.elapse o t).misconfigure = w.misconfigure.elapse o t := rfl

/-- The time that passes stays outside of a replaced server. -/
@[simp]
theorem elapse_setServer (srv : ServerId) (s : Server) :
    (w.elapse o t).setServer srv s = (w.setServer srv s).elapse o t := rfl

/-- `w'` has the objects, the descriptors and the log of `w`, not earlier. -/
structure Agrees (w w' : World) : Prop where
  /-- The clients are the same. -/
  clients : w'.clients = w.clients
  /-- The servers are the same. -/
  servers : w'.servers = w.servers
  /-- The open descriptors are the same. -/
  descriptors : w'.descriptors = w.descriptors
  /-- No more `fcntl` has failed. -/
  fcntlFailed : w'.fcntlFailed = w.fcntlFailed
  /-- No more descriptor has been closed twice. -/
  closedTwice : w'.closedTwice = w.closedTwice
  /-- The manager has recorded nothing more. -/
  log : w'.log = w.log
  /-- Time may have passed. -/
  clock : w.clock ≤ w'.clock

variable {w o t m} in
/-- A world agrees with itself. -/
theorem Agrees.refl : w.Agrees w := ⟨rfl, rfl, rfl, rfl, rfl, rfl, le_rfl⟩

variable {w o t m} in
/-- Time may pass. -/
theorem Agrees.elapse (h : w.clock ≤ t) : w.Agrees (w.elapse o t) :=
  ⟨rfl, rfl, rfl, rfl, rfl, rfl, h⟩

variable {w o t m} in
/-- A mutex may be taken. -/
theorem Agrees.hold : w.Agrees (w.hold m) := ⟨rfl, rfl, rfl, rfl, rfl, rfl, le_rfl⟩

/-- Releasing a mutex that was not held before it was taken restores the world. -/
theorem release_hold {w : World} {m : Mutex} (h : m ∉ w.held) : (w.hold m).release m = w := by
  rw [release, hold_held, Finset.erase_insert h, hold]

variable {w c cl} in
/-- Only time has passed: the world with a client replaced by itself. -/
theorem elapse_eq_put (h : w.clients c = some cl) : w.elapse o t = w.put c cl o t := by
  rw [put, ← h, Function.update_eq_self, elapse]

/-- What `acquire` does when it succeeds. -/
theorem acquire_eq_some {w w' : World} {fd : ℤ} :
    w.acquire fd = some w' ↔
      0 ≤ fd ∧ fd ∉ w.descriptors ∧ w' = { w with descriptors := insert fd w.descriptors } := by
  rw [acquire]
  split
  · rename_i h
    simp only [reduceCtorEq, false_iff, not_and]
    intro hfd hmem
    exact absurd hmem (not_not.mpr (h.resolve_left (not_lt.mpr hfd)))
  · rename_i h
    push Not at h
    simp only [Option.some.injEq, h, not_false_eq_true, true_and]
    exact eq_comm

/-- `::close` changes the descriptors only. -/
theorem closeFd_eq : w.closeFd fd =
    { w with
      descriptors := if fd = -1 then w.descriptors else w.descriptors.erase fd
      closedTwice := w.closedTwice || (fd ≠ -1 ∧ fd ∉ w.descriptors) } := by
  rw [closeFd]
  split
  · simp [*]
  · split
    · simp [*]
    · rename_i hfd hmem
      simp [hfd, hmem]

/-- `::close` has nothing to do with the clients. -/
@[simp]
theorem closeFd_put : (w.put c cl o t).closeFd fd = (w.closeFd fd).put c cl o t := by
  rw [closeFd_eq, closeFd_eq]
  rfl

/-- `::close` has nothing to do with time. -/
@[simp]
theorem closeFd_elapse : (w.elapse o t).closeFd fd = (w.closeFd fd).elapse o t := by
  rw [closeFd_eq, closeFd_eq]
  rfl

/-- `::close` has nothing to do with a failed `fcntl`. -/
@[simp]
theorem closeFd_misconfigure : w.misconfigure.closeFd fd = (w.closeFd fd).misconfigure := by
  rw [closeFd_eq, closeFd_eq]
  rfl

/-- `::close` changes no client. -/
@[simp]
theorem closeFd_clients : (w.closeFd fd).clients = w.clients := by rw [closeFd_eq]

/-- `::close` changes no server. -/
@[simp]
theorem closeFd_servers : (w.closeFd fd).servers = w.servers := by rw [closeFd_eq]

/-- `::close` takes no mutex. -/
@[simp]
theorem closeFd_held : (w.closeFd fd).held = w.held := by rw [closeFd_eq]

/-- `::close` leaves the outcomes of other calls alone. -/
@[simp]
theorem closeFd_outcomes : (w.closeFd fd).outcomes = w.outcomes := by rw [closeFd_eq]

/-- `::close` takes no time. -/
@[simp]
theorem closeFd_clock : (w.closeFd fd).clock = w.clock := by rw [closeFd_eq]

/-- A descriptor that has just been handed out can be given back. -/
theorem closeFd_acquire {w w' : World} {fd : ℤ} (h : w.acquire fd = some w') :
    w'.closeFd fd = w := by
  obtain ⟨hfd, hmem, rfl⟩ := acquire_eq_some.mp h
  have hne : fd ≠ -1 := by omega
  simp only [closeFd, hne, if_false, Finset.mem_insert_self, if_true, Finset.erase_insert hmem]

end

end World

namespace Proc

variable {C : Contract World Yield Fault} {w : World} {c : ClientId} {srv : ServerId} {α : Type}

/-- A conditional. -/
@[simp]
theorem wp_ite {p : Prop} [Decidable p] {a b : Proc α} {Q : α → World → Prop} :
    wp C (if p then a else b) Q w ↔ if p then wp C a Q w else wp C b Q w := by
  split <;> rfl

/-! ## Objects -/

/-- A member function reads the client, which has to exist. -/
@[simp]
theorem wp_this {Q : Client → World → Prop} :
    wp C (this c) Q w ↔ (w.clients c).elim (C.atFault (.staleClient c) w) fun cl => Q cl w := by
  rw [wp, this]
  cases w.clients c <;> rfl

/-- A member function changes the client, which has to exist. -/
@[simp]
theorem wp_update {f : Client → Client} {Q : Unit → World → Prop} :
    wp C (update c f) Q w ↔ (w.clients c).elim (C.atFault (.staleClient c) w)
      fun cl => Q () (w.put c (f cl) w.outcomes w.clock) := by
  rw [wp, update]
  cases w.clients c <;> rfl

/-- An event is recorded with a client, which has to exist. -/
@[simp]
theorem wp_log {e : Event} {Q : Unit → World → Prop} :
    wp C (log c e) Q w ↔ (w.clients c).elim (C.atFault (.staleClient c) w)
      fun cl => Q () (w.put c (cl.log e) w.outcomes w.clock) :=
  wp_update

/-- A member function reads the server, which has to exist. -/
@[simp]
theorem wp_server {Q : Server → World → Prop} :
    wp C (server srv) Q w ↔
      (w.servers srv).elim (C.atFault (.staleServer srv) w) fun s => Q s w := by
  rw [wp, server]
  cases w.servers srv <;> rfl

/-- A member function changes the server, which has to exist. -/
@[simp]
theorem wp_updateServer {f : Server → Server} {Q : Unit → World → Prop} :
    wp C (updateServer srv f) Q w ↔ (w.servers srv).elim (C.atFault (.staleServer srv) w)
      fun s => Q () (w.setServer srv (f s)) := by
  rw [wp, updateServer]
  cases w.servers srv <;> rfl

/-! ## Mutexes -/

/-- To wait for a mutex that is held is a deadlock. -/
@[simp]
theorem wp_lock {m : Mutex} {Q : Unit → World → Prop} :
    wp C (lock m) Q w ↔ if m ∈ w.held then C.atFault (.deadlock m) w else Q () (w.hold m) := by
  rw [wp, lock]
  split <;> rfl

/-- A mutex is released. -/
@[simp]
theorem wp_unlock {m : Mutex} {Q : Unit → World → Prop} :
    wp C (unlock m) Q w ↔ Q () (w.release m) := Iff.rfl

/-- A mutex is taken if it is not held. -/
@[simp]
theorem wp_tryLock {m : Mutex} {Q : Bool → World → Prop} :
    wp C (tryLock m) Q w ↔ if m ∈ w.held then Q false w else Q true (w.hold m) := by
  rw [wp, tryLock]
  split <;> rfl

/-! ## System calls -/

/-- A system call comes out as the world says. -/
@[simp]
theorem wp_take {outcomes : Outcomes → List α} {rest : Outcomes → Outcomes} {default : α}
    {Q : α → World → Prop} :
    wp C (take outcomes rest default) Q w ↔
      Q ((outcomes w.outcomes).headD default) (w.elapse (rest w.outcomes) w.clock) := Iff.rfl

/-- A descriptor is handed out unless it is negative or open already. -/
@[simp]
theorem wp_acquire {fd : ℤ} {Q : Option ℤ → World → Prop} :
    wp C (acquire fd) Q w ↔ (w.acquire fd).elim (Q none w) fun w' => Q (some fd) w' := by
  rw [wp, acquire]
  cases w.acquire fd <;> rfl

/-- `::close` on a descriptor. -/
@[simp]
theorem wp_closeFd {fd : ℤ} {Q : Unit → World → Prop} :
    wp C (closeFd fd) Q w ↔ Q () (w.closeFd fd) := Iff.rfl

/-- What a pass over a write queue takes from the world. -/
@[simp]
theorem wp_writeIo {Q : WriteIo → World → Prop} :
    wp C writeIo Q w ↔ Q ⟨w.outcomes.writes, w.outcomes.ticks, w.clock⟩ w := Iff.rfl

/-- What a pass over a write queue leaves of it. -/
@[simp]
theorem wp_setWriteIo {io : WriteIo} {Q : Unit → World → Prop} :
    wp C (setWriteIo io) Q w ↔
      Q () (w.elapse { w.outcomes with writes := io.writes, ticks := io.ticks } io.clock) := Iff.rfl

/-- The clock is read. -/
theorem wp_now_eq {Q : Time → World → Prop} : wp C now Q w ↔ Q w.tick.clock w.tick := Iff.rfl

/-- The clock may show any later time. -/
theorem wp_now {Q : Time → World → Prop} (h : ∀ o t, w.clock ≤ t → Q t (w.elapse o t)) :
    wp C now Q w :=
  h _ _ (Nat.le_add_right ..)

/-- A system call without other effects may come out in any way. -/
theorem wp_take_of_forall {outcomes : Outcomes → List α} {rest : Outcomes → Outcomes} {default : α}
    {Q : α → World → Prop} (h : ∀ a o, Q a (w.elapse o w.clock)) :
    wp C (take outcomes rest default) Q w :=
  h _ _

/-- A system call that has come out with `fd` fails or hands it out. -/
theorem wp_acquire_elapse {fd : ℤ} {o : Outcomes} {Q : Option ℤ → World → Prop}
    (hfail : Q none (w.elapse o w.clock))
    (hopen : ∀ w', w.acquire fd = some w' → Q (some fd) (w'.elapse o w.clock)) :
    wp C (acquire fd) Q (w.elapse o w.clock) := by
  rw [wp_acquire]
  cases hfd : (w.elapse o w.clock).acquire fd with
  | none => exact hfail
  | some w' =>
      obtain ⟨hpos, hmem, rfl⟩ := World.acquire_eq_some.mp hfd
      exact hopen _ (World.acquire_eq_some.mpr ⟨hpos, hmem, rfl⟩)

/-- `::socket` fails or hands out a descriptor. -/
theorem wp_socket {Q : Option ℤ → World → Prop} (hfail : ∀ o, Q none (w.elapse o w.clock))
    (hopen : ∀ fd w' o, w.acquire fd = some w' → Q (some fd) (w'.elapse o w.clock)) :
    wp C socket Q w := by
  rw [socket, wp_bind]
  refine wp_take_of_forall fun fd o => ?_
  exact wp_acquire_elapse (hfail o) fun w' => hopen fd w' o

/-- `::accept` fails or hands out a descriptor. -/
theorem wp_accept {s : ℤ} {Q : Option ℤ → World → Prop} (hfail : ∀ o, Q none (w.elapse o w.clock))
    (hopen : s ≠ -1 → ∀ fd w' o, w.acquire fd = some w' → Q (some fd) (w'.elapse o w.clock)) :
    wp C (accept s) Q w := by
  rw [accept, wp_bind]
  refine wp_take_of_forall fun fd o => ?_
  rw [wp_ite]
  split
  · exact hfail o
  · rename_i hs
    exact wp_acquire_elapse (hfail o) fun w' => hopen hs fd w' o

/-- `getsockopt` fails, or reports the error of a socket. -/
theorem wp_getsockopt {socket : ℤ} {Q : SockoptOutcome → World → Prop}
    (hfailed : ∀ errno o, Q (.failed errno) (w.elapse o w.clock))
    (hok : ∀ e o, socket ≠ -1 → Q (.socketError e) (w.elapse o w.clock)) :
    wp C (getsockopt socket) Q w := by
  rw [getsockopt, wp_bind]
  refine wp_take_of_forall fun outcome o => ?_
  rw [wp_pure]
  split
  · exact hfailed EBADF o
  · cases outcome with
    | socketError e => exact hok e o ‹_›
    | failed errno => exact hfailed errno o

/-- `lwip_read` fails, or reads from a socket. -/
theorem wp_lwipRead [Configuration] {socket : ℤ} {Q : ReadOutcome → World → Prop}
    (hfailed : ∀ errno o, Q (.failed errno) (w.elapse o w.clock))
    (hread : ∀ data o, socket ≠ -1 → data.length ≤ Configuration.tcpMss →
      Q (.read data) (w.elapse o w.clock)) :
    wp C (lwipRead socket) Q w := by
  rw [lwipRead, wp_bind]
  refine wp_take_of_forall fun outcome o => ?_
  rw [wp_pure]
  split
  · exact hfailed EBADF o
  · cases outcome with
    | read data => exact hread _ o ‹_› (List.length_take_le ..)
    | failed errno => exact hfailed errno o

/-- `fcntl` succeeds or fails. -/
theorem wp_fcntl {socket : ℤ} {Q : Bool → World → Prop} (hok : ∀ o, Q true (w.elapse o w.clock))
    (hfail : ∀ o, Q false (w.misconfigure.elapse o w.clock)) : wp C (fcntl socket) Q w := by
  rw [fcntl, wp_bind]
  refine wp_take_of_forall fun ok o => ?_
  simp only [wp_bind, wp_modify, wp_pure]
  cases ok with
  | true =>
      simp only [Bool.not_true, Bool.or_false]
      exact hok o
  | false =>
      simp only [Bool.not_false, Bool.or_true]
      exact hfail o

/-- `_configureSocket` stores the descriptor whether or not it has just closed it. -/
theorem wp_configureSocket {assign : ℤ → Proc Unit} {fd : ℤ} {Q : Unit → World → Prop}
    (hok : ∀ o, wp C (assign fd) Q (w.elapse o w.clock))
    (hfail : ∀ o, wp C (assign fd) Q ((w.misconfigure.closeFd fd).elapse o w.clock)) :
    wp C (configureSocket assign fd) Q w := by
  rw [configureSocket, wp_bind]
  refine wp_fcntl (fun o => ?_) fun o => ?_
  · simpa using hok o
  · simpa using hfail o

end Proc

end AsyncTcpSock
