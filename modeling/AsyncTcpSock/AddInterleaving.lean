import AsyncTcpSock.Environment
import AsyncTcpSock.WriteSpace

/-!
# Calls of add from several threads

`add` reads `connected()` and `space()` without a lock and takes the write mutex only to push the
buffer and to subtract its size from `_writeSpaceRemaining`. Between the two, other threads may add,
the queue may be written to the socket, and the client may be closed and connected again.

The threads and the manager share one client here. What a mutex protects is one step; `_close` is
two, as it takes the mutex only to clear the queue. The counter is a `std::size_t`.
-/

namespace AsyncTcpSock

/-! ## The steps -/

/-- The number of values of `std::size_t`. -/
def sizeModulus : ℕ := 2 ^ 32

namespace Client

/-- The critical section of `ClientBase::add`, where the subtraction may wrap. -/
def commitWrap (cl : Client) (owned : Bool) (queuedAt : Time) (data : List UInt8) : Client :=
  { cl.commit owned queuedAt data with
    writeSpaceRemaining := (cl.writeSpaceRemaining + sizeModulus - data.length) % sizeModulus }

/-- The effect of a pass of `ClientBase::_processWriteQueue`, where the addition may wrap. -/
def afterPassWrap (cl : Client) (p : PassResult) : Client :=
  { cl.afterPass p with
    writeSpaceRemaining := (cl.writeSpaceRemaining + p.written) % sizeModulus }

/-- The critical section of `ClientBase::_cleanupWriteQueue`. -/
def cleanup (cl : Client) : Client :=
  match cl.scan.error with
  | some _ => cl.afterFailedScan
  | none => cl.afterScan

/-- `ClientBase::_close` up to the call of `_clearWriteQueue`. -/
def closeSocket (cl : Client) : Client :=
  { cl with
    state := .disconnecting
    socket := -1
    history := .closed cl.isOpen :: cl.history }

/-- The number of the connection the client is on. -/
def current (cl : Client) : Option ℕ := if cl.isOpen then some cl.connection else none

end Client

/-- A call of `add` between its guard and its critical section: the buffer it is going to push. The
other fields are not in the source. They are the connection its guard saw, whether the client has
been closed since, and what has happened to the write space: what was available to the guard, or
since the queue was last cleared, and what other calls have taken and passes have written from
then on. -/
structure Adding where
  /-- Whether the bytes are to be copied. -/
  owned : Bool
  /-- The time that `add` has read. -/
  queuedAt : Time
  /-- The bytes that the guard has let through. -/
  data : List UInt8
  /-- The connection that the guard has seen. -/
  connection : ℕ
  /-- Whether this connection has been closed since. -/
  closed : Bool := false
  /-- The write space that the guard has seen. -/
  available : ℕ
  /-- What other calls have taken of it since. -/
  taken : ℕ := 0
  /-- What has been given back since. -/
  written : ℕ := 0
  deriving DecidableEq, Repr

namespace Adding

/-- Another call of `add` has pushed `n` bytes. -/
def took (a : Adding) (n : ℕ) : Adding := { a with taken := a.taken + n }

/-- A pass has written `n` bytes. -/
def wrote (a : Adding) (n : ℕ) : Adding := { a with written := a.written + n }

/-- The socket has been closed. -/
def afterClose (a : Adding) : Adding := { a with closed := true }

/-- The queue has been cleared. -/
def afterClear [Configuration] (a : Adding) : Adding :=
  { a with available := initialWriteSpace, taken := 0, written := 0 }

/-- The condition on a critical section: since its guard the client has not been closed, and other
calls have taken no more than the guard left over and passes have written. -/
def Undisturbed (a : Adding) : Prop :=
  a.closed = false ∧ a.data.length + a.taken ≤ a.available + a.written

instance (a : Adding) : Decidable a.Undisturbed :=
  inferInstanceAs (Decidable (_ ∧ _))

/-- The property of a critical section: there is space for its bytes, and the client is on the
connection its guard saw. -/
def Safe (a : Adding) (cl : Client) : Prop :=
  a.data.length ≤ cl.writeSpaceRemaining ∧ cl.current = some a.connection

end Adding

/-- One client shared by threads. `closing` counts the calls of `_close` that have yet to clear the
queue. -/
structure Shared (Thread : Type) where
  /-- The client that the threads share. -/
  client : Client
  /-- The calls of `add` between guard and commit. -/
  adding : Thread → Option Adding := fun _ => none
  /-- The calls of `_close` that have still to clear the queue. -/
  closing : ℕ := 0

/-- The steps. -/
inductive Action (Thread : Type) where
  /-- `add` in a thread, up to its critical section. -/
  | guard (thread : Thread) (data : List UInt8) (owned : Bool) (now : Time)
  /-- The critical section of `add` in a thread. -/
  | commit (thread : Thread)
  /-- The critical section of `send`. -/
  | send (io : WriteIo)
  /-- The critical section of `_sockIsWriteable`. -/
  | writeable (io : WriteIo)
  /-- The critical section of `_cleanupWriteQueue` in `_sockPoll`. -/
  | poll
  /-- `_close` up to the call of `_clearWriteQueue`. -/
  | closeSocket
  /-- `_clearWriteQueue` in `_close`. -/
  | clearQueue
  /-- `connect(ip, port)` -/
  | connect (socket : ℤ) (ip : IPAddress) (port : UInt16)
  /-- The completion of a connection attempt in `_sockIsWriteable`. -/
  | establish (now : Time)

namespace Shared

variable {Thread : Type} [DecidableEq Thread] [Configuration]

/-- Keep account of a step in the calls of `add` under way. -/
def track (s : Shared Thread) (f : Adding → Adding) : Shared Thread :=
  { s with adding := fun t => (s.adding t).map f }

/-- What the guard of `add` comes to, when it lets `toSend` bytes of `data` pass. -/
def guard (s : Shared Thread) (t : Thread) (data : List UInt8) (toSend : ℕ) (owned : Bool)
    (now : Time) : Shared Thread :=
  let a : Adding := {
    owned
    queuedAt := now
    data := data.take toSend
    connection := s.client.connection
    available := s.client.space }
  { s with adding := Function.update s.adding t (some a) }

/-- The critical section of `add`. -/
def commit (s : Shared Thread) (t : Thread) (a : Adding) : Shared Thread :=
  { client := s.client.commitWrap a.owned a.queuedAt a.data
    adding := Function.update (s.track (·.took a.data.length)).adding t none
    closing := s.closing }

/-- A pass over the queue. -/
def pass (s : Shared Thread) (io : WriteIo) : Shared Thread :=
  let p := processQueue io s.client.writeQueue
  { s.track (·.wrote p.written) with client := s.client.afterPassWrap p }

/-- The critical section of `_cleanupWriteQueue`. -/
def cleanup (s : Shared Thread) : Shared Thread := { s with client := s.client.cleanup }

/-- One step; `none` when it cannot be taken. -/
def step (s : Shared Thread) : Action Thread → Option (Shared Thread)
  | .guard t data owned now =>
      let toSend := s.client.toSend data.length
      if (s.adding t).isNone ∧ 0 < toSend then some (s.guard t data toSend owned now) else none
  | .commit t => (s.adding t).map fun a => s.commit t a
  | .send io => if s.client.writeQueue.isEmpty then none else some (s.pass io)
  | .writeable io =>
      if s.client.connected ∧ !s.client.writeQueue.isEmpty then some (s.pass io).cleanup else none
  | .poll => some s.cleanup
  | .closeSocket =>
      some { s.track (·.afterClose) with
        client := s.client.closeSocket
        closing := s.closing + 1 }
  | .clearQueue =>
      if s.closing = 0 then none
      else some { s.track (·.afterClear) with
        client := s.client.clearQueue
        closing := s.closing - 1 }
  | .connect socket ip port =>
      if s.client.isOpen ∨ socket < 0 then none
      else some { s with client := s.client.opened socket ip port }
  | .establish now =>
      if s.client.isOpen ∧ !s.client.connected then
        some { s with client := s.client.establish now }
      else none

/-- The states that runs come to whose steps are all `good`, of a new client or of one that a server
has accepted. -/
inductive Reachable (good : Shared Thread → Action Thread → Prop) : Shared Thread → Prop where
  | new (now : Time) : Reachable good { client := Client.new now }
  | adopted (t₀ t : Time) (socket : ℤ) : Reachable good { client := Client.adopted t₀ t socket }
  | step {s s' : Shared Thread} (act : Action Thread) :
      Reachable good s → good s act → s.step act = some s' → Reachable good s'

/-- The condition on a step: a critical section of `add` is undisturbed. -/
def Undisturbed (s : Shared Thread) : Action Thread → Prop
  | .commit t => ∀ a ∈ s.adding t, a.Undisturbed
  | _ => True

instance (s : Shared Thread) (act : Action Thread) : Decidable (s.Undisturbed act) :=
  match act with
  | .commit t => inferInstanceAs (Decidable (∀ a ∈ s.adding t, a.Undisturbed))
  | .guard .. | .send _ | .writeable _ | .poll | .closeSocket | .clearQueue | .connect ..
  | .establish _ => .isTrue trivial

/-- Take steps that are all `good`. -/
def run (good : Shared Thread → Action Thread → Prop) [∀ s act, Decidable (good s act)]
    (s : Shared Thread) : List (Action Thread) → Option (Shared Thread)
  | [] => some s
  | act :: rest => if good s act then (s.step act).bind fun s' => s'.run good rest else none

end Shared

/-! ## The account of a call under way -/

section

variable [Configuration] {cl cl' : Client} {a : Adding}

/-- The account of a call under way is right. -/
structure Adding.Settled (a : Adding) (cl : Client) : Prop where
  /-- What has been taken and given back adds up. -/
  space : cl.writeSpaceRemaining + a.taken = a.available + a.written
  /-- The connection is not of the future. -/
  connection_le : a.connection ≤ cl.connection
  /-- The connection has been closed if it is not the current one. -/
  current : a.closed = false ↔ cl.current = some a.connection

namespace Adding.Settled

omit [Configuration] in
/-- What is on record decides whether the critical section is safe. -/
theorem undisturbed_iff (h : a.Settled cl) :
    a.Undisturbed ↔ a.Safe cl := by
  have hspace := h.space
  unfold Undisturbed Safe
  rw [h.current, and_comm]
  refine and_congr_left fun _ => ?_
  omega

omit [Configuration] in
/-- A step that stays on the connection. -/
theorem of_space (h : a.Settled cl) {n m : ℕ} (hconn : cl'.connection = cl.connection)
    (hopen : cl'.isOpen = cl.isOpen)
    (hspace : cl'.writeSpaceRemaining + n = cl.writeSpaceRemaining + m) :
    Settled { a with taken := a.taken + n, written := a.written + m } cl' := by
  refine ⟨?_, ?_, ?_⟩
  · have := h.space
    simp only
    omega
  · rw [hconn]
    exact h.connection_le
  · simp only [Client.current, hconn, hopen]
    exact h.current

omit [Configuration] in
/-- A step that takes space is accounted for. -/
theorem took (h : a.Settled cl) {n : ℕ} (hconn : cl'.connection = cl.connection)
    (hopen : cl'.isOpen = cl.isOpen)
    (hspace : cl'.writeSpaceRemaining + n = cl.writeSpaceRemaining) : (a.took n).Settled cl' :=
  h.of_space hconn hopen hspace (m := 0)

omit [Configuration] in
/-- A step that gives space back is accounted for. -/
theorem wrote (h : a.Settled cl) {n : ℕ} (hconn : cl'.connection = cl.connection)
    (hopen : cl'.isOpen = cl.isOpen)
    (hspace : cl'.writeSpaceRemaining = cl.writeSpaceRemaining + n) : (a.wrote n).Settled cl' :=
  h.of_space hconn hopen hspace (n := 0)

omit [Configuration] in
/-- A step that leaves the space alone is accounted for. -/
theorem kept (h : a.Settled cl) (hconn : cl'.connection = cl.connection)
    (hopen : cl'.isOpen = cl.isOpen)
    (hspace : cl'.writeSpaceRemaining = cl.writeSpaceRemaining) : a.Settled cl' :=
  h.of_space hconn hopen hspace (n := 0) (m := 0)

omit [Configuration] in
/-- A close is accounted for. -/
theorem afterClose (h : a.Settled cl) : a.afterClose.Settled cl.closeSocket := by
  refine ⟨h.space, h.connection_le, ?_⟩
  simp [Adding.afterClose, Client.current, Client.closeSocket, Client.isOpen]

/-- The clearing of the queue is accounted for. -/
theorem afterClear (h : a.Settled cl) : a.afterClear.Settled cl.clearQueue := by
  refine ⟨rfl, h.connection_le, ?_⟩
  exact h.current

omit [Configuration] in
/-- The new connection is not one that a call under way has seen. -/
theorem opened (h : a.Settled cl) (hopen : cl.isOpen = false) {socket : ℤ} (hsocket : 0 ≤ socket)
    (ip : IPAddress) (port : UInt16) : a.Settled (cl.opened socket ip port) := by
  have hconn : (cl.opened socket ip port).connection = cl.connection + 1 := by
    simp [Client.opened, Client.connection]
  have hle := h.connection_le
  have hclosed := h.current
  refine ⟨h.space, by omega, ?_⟩
  have hne : socket ≠ -1 := by omega
  simp only [Client.current, hopen, Bool.false_eq_true, if_false] at hclosed
  simp only [Client.current, hconn]
  simp only [Client.isOpen, Client.opened, hne, ne_eq, not_false_eq_true, decide_true, if_true]
  -- a new connection has a new number, so that a guard of an older one is not current
  rw [hclosed, Option.some.injEq]
  constructor
  · intro heq
    cases heq
  · intro heq
    omega

end Adding.Settled

/-! ## Runs -/

/-- What a pass makes of a client whose write space is in order. -/
theorem Client.Conserved.afterPassWrap (hcl : cl.Conserved)
    (hsize : initialWriteSpace < sizeModulus) (io : WriteIo) :
    cl.afterPassWrap (processQueue io cl.writeQueue) =
      cl.afterPass (processQueue io cl.writeQueue) := by
  have hpass := outstanding_processQueue io cl.writeQueue
  have hlt : cl.writeSpaceRemaining + (processQueue io cl.writeQueue).written < sizeModulus := by
    unfold Client.Conserved at hcl
    omega
  simp only [Client.afterPassWrap, Client.afterPass, Nat.mod_eq_of_lt hlt]

/-- The critical section of `add` takes its bytes from the write space, when there are so many. -/
theorem Client.Conserved.commitWrap (hcl : cl.Conserved) (hsize : initialWriteSpace < sizeModulus)
    {data : List UInt8} (hdata : data.length ≤ cl.writeSpaceRemaining) (owned : Bool)
    (queuedAt : Time) : cl.commitWrap owned queuedAt data = cl.commit owned queuedAt data := by
  have hmod : (cl.writeSpaceRemaining + sizeModulus - data.length) % sizeModulus =
      cl.writeSpaceRemaining - data.length := by
    unfold Client.Conserved at hcl
    rw [Nat.add_comm, Nat.add_sub_assoc hdata, Nat.add_mod_left]
    exact Nat.mod_eq_of_lt (by omega)
  simp only [Client.commitWrap, Client.commit, hmod]

/-- The critical section of `_cleanupWriteQueue` concerns finished buffers only. -/
theorem Client.Conserved.cleanup (hcl : cl.Conserved) : cl.cleanup.Conserved := by
  unfold Client.cleanup
  split
  · exact hcl
  · exact hcl.afterScan

omit [Configuration] in
/-- `_cleanupWriteQueue` stays on the connection, and leaves the counter alone. -/
theorem Client.cleanup_kept (cl : Client) :
    cl.cleanup.connection = cl.connection ∧ cl.cleanup.isOpen = cl.isOpen ∧
      cl.cleanup.connected = cl.connected ∧
      cl.cleanup.writeSpaceRemaining = cl.writeSpaceRemaining := by
  unfold Client.cleanup
  split
  · exact ⟨by simp [Client.afterFailedScan, Client.firstError, Client.connection], rfl, rfl, rfl⟩
  · exact ⟨by simp [Client.afterScan, Client.connection], rfl, rfl, rfl⟩

namespace Shared

variable {Thread : Type} [DecidableEq Thread] {s s' : Shared Thread}

/-- The write space of the client is in order, a connected client is open, and the calls of `add`
under way are accounted for. -/
structure Sound (s : Shared Thread) : Prop where
  /-- The write space is in order. -/
  conserved : s.client.Conserved
  /-- A connected client is open. -/
  isOpen : s.client.connected = true → s.client.isOpen = true
  /-- Every call of `add` under way is accounted for. -/
  settled {t : Thread} {a : Adding} : s.adding t = some a → a.Settled s.client

omit [DecidableEq Thread] in
/-- A new client is sound. -/
theorem sound_new (now : Time) : Sound ({ client := Client.new now } : Shared Thread) :=
  ⟨by simp [Client.Conserved, Client.new], by simp [Client.new, Client.connected], nofun⟩

omit [DecidableEq Thread] in
/-- A client that is constructed on a socket is sound. -/
theorem sound_adopted (t₀ t : Time) (socket : ℤ) :
    Sound ({ client := Client.adopted t₀ t socket } : Shared Thread) := by
  refine ⟨?_, ?_, nofun⟩
  · simp only [Client.Conserved, Client.adopted]
    split <;> simp [Client.new]
  · simp only [Client.adopted, Client.connected, Client.isOpen]
    split
    · rename_i hsocket
      have hne : socket ≠ -1 := by omega
      simp [hne]
    · simp [Client.new]

omit [DecidableEq Thread] [Configuration] in
/-- The accounts are kept call by call. -/
theorem track_adding {f : Adding → Adding} {t : Thread} {a : Adding}
    (h : (s.track f).adding t = some a) : ∃ b, s.adding t = some b ∧ a = f b := by
  obtain ⟨b, hb, rfl⟩ := Option.map_eq_some_iff.mp h
  exact ⟨b, hb, rfl⟩

omit [DecidableEq Thread] in
/-- To replace the client and keep account of it. -/
theorem Sound.track (hs : s.Sound) {f : Adding → Adding} {cl : Client} {n : ℕ} (hcl : cl.Conserved)
    (hopen : cl.connected = true → cl.isOpen = true)
    (hf : ∀ {a : Adding}, a.Settled s.client → (f a).Settled cl) :
    Sound { s.track f with client := cl, closing := n } := by
  refine ⟨hcl, hopen, fun ha => ?_⟩
  obtain ⟨b, hb, rfl⟩ := track_adding ha
  exact hf (hs.settled hb)

/-- A call of `add` starts, or leaves. -/
theorem Sound.update (hs : s.Sound) (t : Thread) {new : Option Adding}
    (hnew : ∀ a, new = some a → a.Settled s.client) :
    Sound { s with adding := Function.update s.adding t new } := by
  refine ⟨hs.conserved, hs.isOpen,
    fun {t' a} (ha : Function.update s.adding t new t' = some a) => ?_⟩
  by_cases ht : t' = t
  · rw [ht, Function.update_self] at ha
    exact hnew a ha
  · rw [Function.update_of_ne ht] at ha
    exact hs.settled ha

/-- The guard of `add` lets only calls on an open connection pass. -/
theorem Sound.guard (hs : s.Sound) (t : Thread) (data : List UInt8) {toSend size : ℕ}
    (hsend : 0 < s.client.toSend size) (owned : Bool) (now : Time) :
    (s.guard t data toSend owned now).Sound := by
  have hconnected : s.client.connected = true := by
    by_contra hnot
    simp [Client.toSend, hnot] at hsend
  refine hs.update t ?_
  intro a ha
  injection ha with ha
  subst ha
  exact ⟨by simp [Client.space, hconnected], le_rfl,
    by simp [Client.current, hs.isOpen hconnected]⟩

/-- A call of `add` whose bytes fit may commit them. -/
theorem Sound.commit (hs : s.Sound) (hsize : initialWriteSpace < sizeModulus) (t : Thread)
    {a : Adding} (hfits : a.data.length ≤ s.client.writeSpaceRemaining) : (s.commit t a).Sound := by
  have hconn : (s.client.commit a.owned a.queuedAt a.data).connection = s.client.connection := by
    simp [Client.commit, Client.connection]
  rw [Shared.commit, hs.conserved.commitWrap hsize hfits]
  have htracked : Sound { s.track (·.took a.data.length) with
      client := s.client.commit a.owned a.queuedAt a.data } :=
    hs.track (hs.conserved.commit hfits _ _) hs.isOpen fun ha =>
      ha.took hconn rfl (Nat.sub_add_cancel hfits)
  exact htracked.update t (by simp)

omit [DecidableEq Thread] in
/-- A pass over the queue gives the space back that it frees. -/
theorem Sound.pass (hs : s.Sound) (hsize : initialWriteSpace < sizeModulus) (io : WriteIo) :
    (s.pass io).Sound := by
  rw [Shared.pass, hs.conserved.afterPassWrap hsize]
  exact hs.track (hs.conserved.afterPass io) hs.isOpen fun ha =>
    ha.wrote (Client.connection_afterPass ..) rfl rfl

omit [DecidableEq Thread] in
/-- The removal of finished buffers changes no account. -/
theorem Sound.cleanup (hs : s.Sound) : s.cleanup.Sound := by
  obtain ⟨hconn, hopen, hconnected, hspace⟩ := s.client.cleanup_kept
  refine ⟨hs.conserved.cleanup, ?_, fun ha => (hs.settled ha).kept hconn hopen hspace⟩
  rw [Shared.cleanup, hconnected, hopen]
  exact hs.isOpen

/-- Every step keeps the account right, if it enters critical sections undisturbed. -/
theorem Sound.step (hs : s.Sound) (hsize : initialWriteSpace < sizeModulus) {act : Action Thread}
    (hgood : s.Undisturbed act) (hstep : s.step act = some s') : s'.Sound := by
  cases act with
  | guard t data owned now =>
      simp only [Shared.step, Option.ite_none_right_eq_some, Option.some.injEq] at hstep
      obtain ⟨⟨-, hsend⟩, rfl⟩ := hstep
      exact hs.guard t data hsend owned now
  | commit t =>
      obtain ⟨a, ha, rfl⟩ := Option.map_eq_some_iff.mp hstep
      -- the space that the guard has seen is still there
      have hsafe := (hs.settled ha).undisturbed_iff.mp (hgood a ha)
      exact hs.commit hsize t hsafe.1
  | send io =>
      simp only [Shared.step, Option.ite_none_left_eq_some, Option.some.injEq] at hstep
      obtain ⟨-, rfl⟩ := hstep
      exact hs.pass hsize io
  | writeable io =>
      simp only [Shared.step, Option.ite_none_right_eq_some, Option.some.injEq] at hstep
      obtain ⟨-, rfl⟩ := hstep
      exact (hs.pass hsize io).cleanup
  | poll =>
      injection hstep with hstep
      subst hstep
      exact hs.cleanup
  | closeSocket =>
      injection hstep with hstep
      subst hstep
      refine hs.track hs.conserved (fun hconnected => ?_) fun ha => ha.afterClose
      cases hconnected
  | clearQueue =>
      simp only [Shared.step, Option.ite_none_left_eq_some, Option.some.injEq] at hstep
      obtain ⟨-, rfl⟩ := hstep
      exact hs.track (by simp [Client.Conserved, Client.clearQueue]) hs.isOpen
        fun ha => ha.afterClear
  | connect socket ip port =>
      simp only [Shared.step, Option.ite_none_left_eq_some, Option.some.injEq] at hstep
      obtain ⟨hcond, rfl⟩ := hstep
      rw [not_or, Bool.not_eq_true, not_lt] at hcond
      refine ⟨hs.conserved, fun hconnected => ?_, fun ha =>
        (hs.settled ha).opened hcond.1 hcond.2 ip port⟩
      cases hconnected
  | establish now =>
      simp only [Shared.step, Option.ite_none_right_eq_some, Option.some.injEq] at hstep
      obtain ⟨⟨hopen, -⟩, rfl⟩ := hstep
      exact ⟨hs.conserved, fun _ => hopen, fun ha => (hs.settled ha).kept rfl rfl rfl⟩

/-- Every state is sound, as long as no call is disturbed. -/
theorem Reachable.sound (hsize : initialWriteSpace < sizeModulus)
    (hs : Reachable Shared.Undisturbed s) : s.Sound := by
  induction hs with
  | new now => exact sound_new now
  | adopted t₀ t socket => exact sound_adopted t₀ t socket
  | step act _ hgood hstep ih => exact ih.step hsize hgood hstep

/-- In every run whose critical sections of `add` have all been undisturbed, the counter has not
wrapped, and the next critical section is safe if and only if it is undisturbed as well. -/
theorem add_interleaved (hsize : initialWriteSpace < sizeModulus)
    (hs : Reachable Shared.Undisturbed s) :
    s.client.space ≤ initialWriteSpace ∧ s.client.writeSpaceRemaining ≤ initialWriteSpace ∧
      ∀ t a, s.adding t = some a → (a.Safe s.client ↔ a.Undisturbed) := by
  have hsound := hs.sound hsize
  have hle : s.client.writeSpaceRemaining ≤ initialWriteSpace := by
    have := hsound.conserved
    unfold Client.Conserved at this
    omega
  refine ⟨?_, hle, fun t a ha => (hsound.settled ha).undisturbed_iff.symm⟩
  unfold Client.space
  split
  · exact hle
  · exact Nat.zero_le _

/-- A call of `add` that nothing interrupts is a guard and an undisturbed critical section. -/
theorem exists_guard_commit (hsound : s.Sound) (hsize : initialWriteSpace < sizeModulus)
    {w : World} {c : ClientId} (hc : w.clients c = some s.client) (hheld : .write c ∉ w.held)
    {t : Thread} (ht : s.adding t = none) {data : List UInt8} (flags : ClientApiFlags)
    (hsend : 0 < s.client.toSend data.length) :
    ∃ now s₁ s₂ w', s.step (.guard t data (flags.test .copy) now) = some s₁ ∧
      s₁.Undisturbed (.commit t) ∧ s₁.step (.commit t) = some s₂ ∧
      ClientBase.add c (some data) flags w = .done (s.client.toSend data.length) w' ∧
      w'.clients c = some s₂.client := by
  -- the guard and the commit of one thread, with nothing in between, are `add`
  have hle : (data.take (s.client.toSend data.length)).length ≤ s.client.space := by
    unfold Client.toSend
    split
    · simp
    · simp
  have hspace : s.client.space ≤ s.client.writeSpaceRemaining := by
    unfold Client.space
    split
    · exact le_rfl
    · exact Nat.zero_le _
  obtain ⟨n, w', hadd, rfl, now, hw'⟩ := exists_done_of_wp (p := ClientBase.add c (some data) flags)
    (Q := fun n w' => n = s.client.toSend data.length ∧ ∃ now, w'.clients c =
      some (s.client.commit (flags.test .copy) now (data.take (s.client.toSend data.length))))
    (ClientBase.wp_add hc hheld (fun hzero => absurd (hzero data rfl) (Nat.ne_of_gt hsend))
      fun d o t hd _ _ => by
        cases hd
        exact ⟨rfl, t, World.put_clients_self ..⟩)
  have hself : (s.guard t data (s.client.toSend data.length) (flags.test .copy) now).adding t =
      some _ := Function.update_self ..
  refine ⟨now, _, _, w', if_pos ⟨by simp [ht], hsend⟩, ?_,
    Option.map_eq_some_iff.mpr ⟨_, hself, rfl⟩, hadd, ?_⟩
  · intro a ha
    rw [Option.mem_def, hself, Option.some.injEq] at ha
    subst ha
    exact ⟨rfl, hle⟩
  · rw [hw']
    exact congrArg some (hsound.conserved.commitWrap hsize (hle.trans hspace) _ _).symm

/-- A run of good steps comes to a reachable state. -/
theorem Reachable.run {good : Shared Thread → Action Thread → Prop}
    [∀ s act, Decidable (good s act)] (hs : Reachable good s) {acts : List (Action Thread)}
    (hrun : s.run good acts = some s') : Reachable good s' := by
  induction acts generalizing s with
  | nil =>
      cases hrun
      exact hs
  | cons act rest ih =>
      simp only [Shared.run, Option.ite_none_right_eq_some, Option.bind_eq_some_iff] at hrun
      obtain ⟨hgood, s₁, hstep, hrest⟩ := hrun
      exact ih (.step act hs hgood hstep) hrest

end Shared

end

section

attribute [local instance] Configuration.esp32

namespace Shared

/-- A run from a connected client that leads to a state in which `P` holds. -/
theorem exists_run (good : Shared Bool → Action Bool → Prop) [∀ s act, Decidable (good s act)]
    (acts : List (Action Bool)) {P : Shared Bool → Prop} [DecidablePred P]
    (h : (run good { client := Client.adopted 0 0 48 } acts).any (fun s => P s) = true) :
    ∃ s, Reachable good s ∧ P s := by
  obtain ⟨s, hs, hP⟩ := (Option.any_eq_true _ _).mp h
  exact ⟨s, .run (.adopted 0 0 48) hs, of_decide_eq_true hP⟩

/-- One thread has added two bytes while another was about to. -/
theorem add_interleaved_two : ∃ s : Shared Bool, s.client.writeSpaceRemaining = 5742 ∧
    s.client.space ≤ 5744 ∧ ∀ t a, s.adding t = some a → (a.Safe s.client ↔ a.Undisturbed) := by
  obtain ⟨s, hs, hspace⟩ := exists_run Shared.Undisturbed
    (P := fun s => s.client.writeSpaceRemaining = 5742)
    [.guard true [1, 2] true 0, .guard false [3] true 0, .commit true] (by decide +kernel)
  obtain ⟨hle, -, hsafe⟩ := add_interleaved (by decide) hs
  exact ⟨s, hspace, hle, hsafe⟩

/-- Two threads whose guards both saw an empty queue wrap the counter; and bytes accepted on one
connection enter the queue of the next, when the client is closed and connected in between. -/
theorem not_add_interleaved :
    (∃ s : Shared Bool, Reachable (fun _ _ => True) s ∧
      s.client.connected = true ∧ initialWriteSpace < s.client.space) ∧
    ∃ s : Shared Bool, Reachable (fun _ _ => True) s ∧ s.client.connected = true ∧
      (s.adding true).any (fun a => s.client.current ≠ some a.connection) = true := by
  constructor
  · refine exists_run _ [.guard true (List.replicate 5744 0) true 0,
      .guard false (List.replicate 5744 0) true 0, .commit true, .commit false] ?_
    decide +kernel
  · refine exists_run _ [.guard true [1] true 0, .closeSocket, .clearQueue, .connect 49 .any 80,
      .establish 0] ?_
    decide +kernel

end Shared

end

end AsyncTcpSock
