import AsyncTcpSock.ClientInvariants
import AsyncTcpSock.Refinement
import AsyncTcpSock.Runs
import AsyncTcpSock.WriteQueue

/-!
# DNS answers and the calls that asked for them

Whether `_sockDelayedConnect` acts for the call that asked. An answer travels in the fields `_ip`,
`_port` and `_dnsFinished`, which say nothing of the query, so it acts for whatever call has used
these fields last. It acts for its own call when there is no other call in between.
-/

namespace AsyncTcpSock

open Reentrant

/-! ## The property -/

/-- What a history says of calls, queries and answers. -/
structure Enquiry where
  /-- The latest call that asks for a connection or for its end. -/
  call : Option Call := none
  /-- The query that this call has begun. -/
  query : Option DnsQuery := none
  /-- The latest answer. -/
  answer : Option (DnsQuery × IPAddress) := none
  /-- A query has been begun, and no answer been processed since. -/
  unprocessed : Bool := false
  deriving DecidableEq, Repr

/-- The entry of an event. -/
def Enquiry.record (r : Enquiry) : Event → Enquiry
  | .call u => if u.isControl then { r with call := some u, query := none } else r
  | .query q => { r with query := some q, unprocessed := true }
  | .answer q ip => { r with answer := some (q, ip) }
  | .entered .delayedConnect => { r with unprocessed := false }
  | _ => r

/-- What a history says of calls, queries and answers. -/
def enquiry : List Event → Enquiry
  | [] => {}
  | e :: past => (enquiry past).record e

/-- The latest answer is the answer `ip` to the query that the latest call, a `connect(host, port)`,
has begun. -/
def Enquiry.Answers (r : Enquiry) (ip : IPAddress) (port : UInt16) : Prop :=
  ∃ q ∈ r.query,
    r.call = some (.connectHost q.host q.port) ∧ r.answer = some (q, ip) ∧ port = q.port

/-- If the last event is that `_sockDelayedConnect` opens a socket or reports an error, it acts for
the latest call, and a socket goes to the address of the answer and the port of the call. -/
def ActsForCall : List Event → Prop
  | .opened _ ip port :: .entered .delayedConnect :: past => (enquiry past).Answers ip port
  | .callback (.error _) :: .entered .delayedConnect :: past =>
      ∃ q ∈ (enquiry past).query, (enquiry past).call = some (.connectHost q.host q.port) ∧
        (enquiry past).answer.map Prod.fst = some q
  | _ => True

/-- The last event does not ask for a connection or for its end while an answer is to come. -/
def AwaitsAnswer : List Event → Prop
  | .call u :: past => u.isControl = true → (enquiry past).unprocessed = false
  | _ => True

instance (r : Enquiry) (ip : IPAddress) (port : UInt16) : Decidable (r.Answers ip port) := by
  unfold Enquiry.Answers
  infer_instance

instance : DecidablePred ActsForCall := fun past =>
  decidable_of_bool
    (match past with
      | .opened _ ip port :: .entered .delayedConnect :: past => (enquiry past).Answers ip port
      | .callback (.error _) :: .entered .delayedConnect :: past =>
          ∃ q ∈ (enquiry past).query, (enquiry past).call = some (.connectHost q.host q.port) ∧
            (enquiry past).answer.map Prod.fst = some q
      | _ => true)
    (by unfold ActsForCall; split <;> simp)

instance : DecidablePred AwaitsAnswer := fun past =>
  decidable_of_bool
    (match past with
      | .call u :: past => u.isControl = true → (enquiry past).unprocessed = false
      | _ => true)
    (by unfold AwaitsAnswer; split <;> simp [imp_iff_not_or])

/-! ## The invariant -/

/-- Where the query `q` of the latest call stands: its answer is still to come, or is in the fields
of the client. -/
structure Enquiry.Open (r : Enquiry) (pending : List DnsQuery) (finished : Bool) (ip : IPAddress)
    (port : UInt16) (q : DnsQuery) : Prop where
  /-- The query has been made. -/
  query : r.query = some q
  /-- It was made for the last connect call. -/
  call : r.call = some (.connectHost q.host q.port)
  /-- The port is the one of the call. -/
  port : port = q.port
  /-- The answer is still to come, or has come. -/
  answer : pending = [q] ∧ finished = false ∨
    pending = [] ∧ finished = true ∧ r.answer = some (q, ip)

/-- There is at most one query, it is the one of the latest call, and `_sockDelayedConnect` finds
its answer. -/
structure Client.Answered (cl : Client) (φ : Phase) : Prop where
  /-- Every answer has been acted upon for the last call. -/
  always : Always ActsForCall cl.history
  /-- An answer that has been processed is gone. -/
  processed : (enquiry cl.history).unprocessed = false →
    cl.dnsPending = [] ∧ cl.dnsFinished = false
  /-- Otherwise there is one query open. -/
  awaits : (enquiry cl.history).unprocessed = true →
    ∃ q, (enquiry cl.history).Open cl.dnsPending cl.dnsFinished cl.ip cl.port q
  /-- `_sockDelayedConnect` finds the answer to the last call. -/
  entered : ∀ h, φ = .running h → ∃ past, cl.history = .entered h :: past ∧
    (h = .delayedConnect → (enquiry past).Answers cl.ip cl.port)

/-- A call leaves open whether an answer is to come. -/
theorem unprocessed_call (u : Call) (past : List Event) :
    (enquiry (.call u :: past)).unprocessed = (enquiry past).unprocessed := by
  simp only [enquiry, Enquiry.record]
  split <;> rfl

section

variable [Configuration] {t₀ t : Time} {cl cl' : Client} {φ φ' : Phase} {ch : SocketChange}

namespace Client.Answered

omit [Configuration] in
/-- While no answer is to come only the fields that announce one matter. -/
theorem of_processed (halways : Always ActsForCall cl.history)
    (hprocessed : (enquiry cl.history).unprocessed = false) (hpending : cl.dnsPending = [])
    (hfinished : cl.dnsFinished = false) (hφ : ∀ h, φ ≠ .running h) : cl.Answered φ :=
  ⟨halways, fun _ => ⟨hpending, hfinished⟩,
    fun h => absurd (hprocessed.symm.trans h) Bool.false_ne_true,
    fun h hrunning => absurd hrunning (hφ h)⟩

omit [Configuration] in
/-- A pass over the queue concerns no query. -/
theorem afterPass (hcl : cl.Answered φ) (p : PassResult) (hφ : ∀ h, φ' ≠ .running h) :
    (cl.afterPass p).Answered φ' := by
  have hrecord : enquiry (cl.afterPass p).history = enquiry cl.history :=
    eq_of_wrote p.calls fun _ _ => rfl
  refine ⟨always_wrote _ (fun _ _ _ => trivial) (always_cons.mpr ⟨trivial, hcl.always⟩), ?_, ?_,
    fun h hrunning => absurd hrunning (hφ h)⟩
  · rw [hrecord]
    exact hcl.processed
  · rw [hrecord]
    exact hcl.awaits

end Client.Answered

theorem UserStep.answered (h : UserStep t₀ t cl ch cl') (hcl : cl.Answered φ)
    (hφ : ∀ h, φ ≠ .running h) (hawaits : Always AwaitsAnswer cl'.history) : cl'.Answered φ := by
  have hentered {cl : Client} (h : Handler) (hrunning : φ = .running h) : ∃ past,
      cl.history = .entered h :: past ∧
        (h = .delayedConnect → (enquiry past).Answers cl.ip cl.port) := absurd hrunning (hφ h)
  cases h with
  | stay | configure | touch => exact ⟨hcl.always, hcl.processed, hcl.awaits, hentered⟩
  | call u _ =>
      cases hu : u.isControl with
      | false =>
          have hrecord : enquiry (.call u :: cl.history) = enquiry cl.history := by
            simp [enquiry, Enquiry.record, hu]
          refine ⟨always_cons.mpr ⟨trivial, hcl.always⟩, ?_, ?_, hentered⟩
          · simp only [Client.log, hrecord]
            exact hcl.processed
          · simp only [Client.log, hrecord]
            exact hcl.awaits
      | true =>
          have hprocessed : (enquiry cl.history).unprocessed = false := hawaits.now hu
          obtain ⟨hpending, hfinished⟩ := hcl.processed hprocessed
          exact .of_processed (always_cons.mpr ⟨trivial, hcl.always⟩)
            ((unprocessed_call u _).trans hprocessed) hpending hfinished hφ
  | pass io _ _ _ _ => exact hcl.afterPass _ hφ
  | connect u ip port hu hattempt =>
      -- no answer is outstanding when the call is made
      have hidle {e e' : Event}
          (hawaits : Always AwaitsAnswer (e :: e' :: .call u :: cl.history)) :
          (enquiry cl.history).unprocessed = false :=
        (always_cons.mp (always_cons.mp hawaits).2).2.now
          (Call.isControl_of_isConnect hu.isConnect)
      cases hattempt with
      | refused =>
          have hprocessed := hidle hawaits
          obtain ⟨hpending, hfinished⟩ := hcl.processed hprocessed
          refine .of_processed ?_ ((unprocessed_call u _).trans hprocessed) hpending hfinished hφ
          simpa [Client.log, Client.refused, ActsForCall] using hcl.always
      | opened socket _ _ =>
          have hprocessed := hidle hawaits
          obtain ⟨hpending, hfinished⟩ := hcl.processed hprocessed
          refine .of_processed ?_ ((unprocessed_call u _).trans hprocessed) hpending hfinished hφ
          simpa [Client.log, Client.opened, ActsForCall] using hcl.always
  | rejected u hu =>
      have hprocessed : (enquiry cl.history).unprocessed = false :=
        (always_cons.mp hawaits).2.now (Call.isControl_of_isConnect hu)
      obtain ⟨hpending, hfinished⟩ := hcl.processed hprocessed
      refine .of_processed ?_ ((unprocessed_call u _).trans hprocessed) hpending hfinished hφ
      simpa [Client.log, ActsForCall] using hcl.always
  | wait host port =>
      have hprocessed : (enquiry cl.history).unprocessed = false :=
        (always_cons.mp (always_cons.mp hawaits).2).2.now rfl
      obtain ⟨hpending, hfinished⟩ := hcl.processed hprocessed
      refine ⟨?_, ?_, fun _ => ⟨⟨cl.nextQuery, host, port⟩, rfl, rfl, rfl, .inl ⟨?_, hfinished⟩⟩,
        hentered⟩
      · simpa [Client.log, Client.waiting, ActsForCall] using hcl.always
      · -- the query has just been made
        intro hprocessed
        cases hprocessed
      · simp only [Client.log, Client.waiting, hpending, List.nil_append]
  | answer q ip hq =>
      refine ⟨always_cons.mpr ⟨trivial, hcl.always⟩, fun hprocessed => ?_, fun hunprocessed => ?_,
        hentered⟩
      · -- an answer comes to a query only
        rw [(hcl.processed hprocessed).1] at hq
        cases hq
      · obtain ⟨q', hopen⟩ := hcl.awaits hunprocessed
        rcases hopen.answer with ⟨hpending, -⟩ | ⟨hpending, -, -⟩
        · rw [hpending] at hq
          obtain rfl := List.mem_singleton.mp hq
          refine ⟨q, hopen.query, hopen.call, hopen.port, .inr ⟨?_, rfl, rfl⟩⟩
          simp only [Client.dnsFound, hpending, List.erase_cons_head]
        · rw [hpending] at hq
          cases hq
  | _ => exact ⟨always_cons.mpr ⟨trivial, hcl.always⟩, hcl.processed, hcl.awaits, hentered⟩

theorem HandlerStep.answered (h : HandlerStep t₀ t cl φ ch cl' φ') (hcl : cl.Answered φ) :
    cl'.Answered φ' := by
  cases h with
  | enter h hfinished =>
      by_cases hdelayed : h = .delayedConnect
      · -- the answer that is there is the one that was awaited
        subst hdelayed
        have hunprocessed : (enquiry cl.history).unprocessed = true := by
          by_contra hnot
          have hnone := (hcl.processed (by simpa using hnot)).2
          rw [hfinished rfl] at hnone
          cases hnone
        obtain ⟨q, hopen⟩ := hcl.awaits hunprocessed
        rcases hopen.answer with ⟨-, hnone⟩ | ⟨hpending, -, hanswer⟩
        · rw [hfinished rfl] at hnone
          cases hnone
        · refine ⟨always_cons.mpr ⟨trivial, hcl.always⟩, fun _ => ⟨hpending, ?_⟩, ?_, ?_⟩
          · simp [Client.enter]
          · intro hunprocessed
            cases hunprocessed
          · rintro h' hh'
            obtain rfl : Handler.delayedConnect = h' := by simpa using hh'
            exact ⟨_, rfl, fun _ => ⟨q, hopen.query, hopen.call, hanswer, hopen.port⟩⟩
      · -- the other handlers neither read nor drop an answer
        have hrecord : enquiry (.entered h :: cl.history) = enquiry cl.history := by
          cases h <;> first | rfl | exact absurd rfl hdelayed
        have hkept : (cl.enter h).dnsFinished = cl.dnsFinished := by
          simp [Client.enter, hdelayed]
        refine ⟨always_cons.mpr ⟨trivial, hcl.always⟩, ?_, ?_, ?_⟩
        · rw [hkept]
          simp only [Client.enter, hrecord]
          exact hcl.processed
        · rw [hkept]
          simp only [Client.enter, hrecord]
          exact hcl.awaits
        · rintro h' hh'
          obtain rfl : h = h' := by simpa using hh'
          exact ⟨_, rfl, fun heq => absurd heq hdelayed⟩
  | attemptFailed e _ =>
      -- what the phases of the sockets report is no answer to a query
      obtain ⟨past, hhistory, -⟩ := hcl.entered .writeable rfl
      refine ⟨always_cons.mpr ⟨?_, hcl.always⟩, hcl.processed, hcl.awaits, by simp⟩
      rw [hhistory]
      trivial
  | readFailed e =>
      obtain ⟨past, hhistory, -⟩ := hcl.entered .readable rfl
      refine ⟨always_cons.mpr ⟨?_, hcl.always⟩, hcl.processed, hcl.awaits, by simp⟩
      rw [hhistory]
      trivial
  | resolved _ hattempt =>
      -- the address connected to is the one the answer carries
      obtain ⟨past, hhistory, hanswers⟩ := hcl.entered .delayedConnect rfl
      have hprocessed : (enquiry cl.history).unprocessed = false := by
        rw [hhistory]
        rfl
      obtain ⟨hpending, hfinished⟩ := hcl.processed hprocessed
      cases hattempt with
      | refused =>
          exact .of_processed (always_cons.mpr ⟨trivial, hcl.always⟩) hprocessed hpending hfinished
            (by simp)
      | opened socket _ _ =>
          refine .of_processed (always_cons.mpr ⟨?_, hcl.always⟩) hprocessed hpending hfinished
            (by simp)
          rw [hhistory]
          exact hanswers rfl
  | unresolved _ =>
      -- the answer carries no address, which is what ERROR reports
      obtain ⟨past, hhistory, hanswers⟩ := hcl.entered .delayedConnect rfl
      refine ⟨always_cons.mpr ⟨?_, hcl.always⟩, hcl.processed, hcl.awaits, by simp⟩
      rw [hhistory]
      obtain ⟨q, hquery, hcall, hanswer, -⟩ := hanswers rfl
      exact ⟨q, hquery, hcall, by rw [hanswer]; rfl⟩
  | writeFailed next e _ =>
      refine ⟨?_, hcl.processed, hcl.awaits, by simp⟩
      simpa [Client.log, Client.afterFailedScan, Client.firstError, ActsForCall] using hcl.always
  | pass activity io _ _ _ _ => exact hcl.afterPass _ (by simp)
  | cleaned next _ =>
      exact ⟨always_cons.mpr ⟨trivial, hcl.always⟩, hcl.processed, hcl.awaits,
        fun h hrunning => absurd hrunning (Phase.ne_running (Phase.yields_notify ..) h)⟩
  | notified next stats rest =>
      exact ⟨always_cons.mpr ⟨trivial, hcl.always⟩, hcl.processed, hcl.awaits,
        fun h hrunning => absurd hrunning (Phase.ne_running (Phase.yields_notify ..) h)⟩
  | failed next =>
      exact ⟨always_cons.mpr ⟨trivial, hcl.always⟩, hcl.processed, hcl.awaits,
        fun h hrunning => absurd hrunning (Phase.ne_running (Phase.yields_notify next []) h)⟩
  | nothingToWrite activity _ =>
      exact ⟨hcl.always, hcl.processed, hcl.awaits,
        fun h hrunning => absurd hrunning (Phase.ne_running (Phase.yields_notify _ []) h)⟩
  | ready | announced | touched | notPolled | poll | rxRenewed | nothingToRead | nothingDone =>
      exact ⟨hcl.always, hcl.processed, hcl.awaits, by simp⟩
  | _ => exact ⟨always_cons.mpr ⟨trivial, hcl.always⟩, hcl.processed, hcl.awaits, by simp⟩

theorem ClientRun.answered (h : ClientRun t cl φ) (hawaits : Always AwaitsAnswer cl.history) :
    cl.Answered φ := by
  have hnil : Always ActsForCall [] := always_nil.mpr trivial
  refine ClientRun.holds (fun t => .of_processed hnil rfl rfl rfl nofun) (fun t₀ t socket _ => ?_)
    (fun hrun hcl hawaits hstep => ?_) h hawaits
  · unfold Client.adopted
    split <;> exact .of_processed hnil rfl rfl rfl nofun
  · cases hstep with
    | user hφ hstep => exact hstep.answered hcl (Phase.ne_running hφ) hawaits
    | handler hstep => exact hstep.answered hcl

/-- In every run, whenever `_sockDelayedConnect` opens a socket or reports an error, the latest call
that asked for a connection or for its end is the `connect(host, port)` whose query was answered,
and the socket goes to the address of the answer and the port of the call, provided that no such
call is made between one that begins a query and the processing of the answer. -/
theorem dns_answer_acts_for_call {s : System} (hs : Reachable s) {c : ClientId}
    (hcl : s.state.clients c = some cl) (hawaits : Always AwaitsAnswer cl.history) :
    Always ActsForCall cl.history := by
  obtain ⟨φ, hrun⟩ := hs.clientRun hcl
  exact (hrun.answered hawaits).always

end

section

attribute [local instance] Configuration.esp32

/-- A client asks for a connection by name, and then `calls` are made before the answer is there and
is processed. -/
def lookup (calls : List Call) : List Label :=
  [.ext .newClient,
    .ext (.outcomes { sockets := [48], connects := [some EINPROGRESS], queries := [.inProgress] }),
    .ext (.call 0 (.connectHost "host" 80))] ++ calls.map (fun u => .ext (.call 0 u)) ++
  [.ext (.dnsFound 0 ⟨0, "host", 80⟩ (some (.v4 0x08080808))), .start (.handle .delayedConnect 0)]

/-- The connection is opened. -/
theorem dns_answer_acts_for_call_single :
    ∃ s cl, Reachable s ∧ s.state.clients 0 = some cl ∧ cl.state = .connecting ∧
      Always ActsForCall cl.history := by
  obtain ⟨s, cl, hs, hcl, hstate, hawaits⟩ := exists_reachable_client
    (P := fun cl => cl.state = .connecting ∧ Always AwaitsAnswer cl.history) (lookup []) 0
    (by decide +kernel)
  exact ⟨s, cl, hs, hcl, hstate, dns_answer_acts_for_call hs hcl hawaits⟩

/-- The client is closed while it waits for the answer, which opens a connection all the same. -/
theorem not_dns_answer_acts_for_call :
    ∃ s cl, Reachable s ∧ s.state.clients 0 = some cl ∧ ¬ Always ActsForCall cl.history :=
  exists_reachable_client (lookup [.close]) 0 (by decide +kernel)

end

end AsyncTcpSock
