import AsyncTcpSock.SentOnce

/-!
# Silence after a close

What a client hears between the close of its connection and the next connect call. It hears of the
end of the connection and of nothing else, with two exceptions. The loop that reports finished
buffers goes on when a callback closes the client. And the phases of the manager work on a snapshot,
so that a client another callback has closed is still handed to its handler, which takes the missing
socket for an error; a late DNS answer is handled as well.
-/

namespace AsyncTcpSock

open Reentrant

/-! ## The property -/

/-- The callbacks delivered since the client was closed, if no connect call has been made since. -/
def afterClose : List Event → Option (List Callback)
  | [] => none
  | .closed true :: _ => some []
  | .call u :: past => if u.isConnect then none else afterClose past
  | .callback cb :: past => (afterClose past).map (· ++ [cb])
  | _ :: past => afterClose past

/-- Since the client was closed nothing but one `DISCONNECT` has been delivered. -/
def Silent (past : List Event) : Prop := ∀ cbs ∈ afterClose past, cbs <+: [.disconnect]

/-- The last event does not close a client that has lengths still to be reported, and it does not
handle the socket of a closed client, or an answer. -/
def LeavesAlone : List Event → Prop
  | .closed true :: past => (ledger past).pending = []
  | .entered h :: past => h ≠ .poll → h ≠ .done → afterClose past = none
  | _ => True

instance : DecidablePred Silent := fun past => by
  unfold Silent
  infer_instance

instance : DecidablePred LeavesAlone := fun past =>
  decidable_of_bool
    (match past with
      | .closed true :: past => (ledger past).pending = []
      | .entered h :: past => h ≠ .poll → h ≠ .done → afterClose past = none
      | _ => true)
    (by unfold LeavesAlone; split <;> simp [imp_iff_not_or])

/-! ## The invariant -/

/-- The phases from which the handler at work goes on to its end without a callback, if the client
is closed. -/
def Phase.windsDown : Phase → Bool
  | running .poll | running .done | idle | connecting | writing _ | failing _ | polling |
    touching => true
  | _ => false

/-- User code that closes the client leaves it winding down, unless lengths are still to be
reported. -/
theorem Phase.windsDown_of_pending {φ : Phase} (hφ : φ.yields = true) (hpending : φ.pending = []) :
    φ.windsDown = true := by
  cases φ with
  | notifying next stats rest => cases hpending
  | running | writing | cleaning => cases hφ
  | _ => rfl

theorem Continuation.windsDown (next : Continuation) : next.phase.windsDown = true := by
  cases next <;> rfl

/-- A closed client has heard nothing yet and is about to hear of its end, or has heard of it. -/
structure Client.Quiet (cl : Client) (φ : Phase) : Prop where
  /-- There has been no callback too many. -/
  always : Always Silent cl.history
  /-- After a close the client has no socket. -/
  isClosed : ∀ cbs ∈ afterClose cl.history, cl.isOpen = false
  /-- Only `DISCONNECT` has been heard since, or nothing. -/
  heard : ∀ cbs ∈ afterClose cl.history,
    cbs = [] ∧ cl.state = .disconnecting ∧ φ.windsDown = true ∨
      cbs = [.disconnect] ∧ cl.state = .disconnected ∧ φ.atRest = true

variable {past : List Event}

/-- Only the close of an open client begins the silence. -/
theorem afterClose_cons {e : Event} (h : afterClose past = none) (he : e ≠ .closed true) :
    afterClose (e :: past) = none := by
  cases e with
  | closed wasOpen =>
      cases wasOpen with
      | true => exact absurd rfl he
      | false => exact h
  | call u => simp [afterClose, h]
  | callback cb => simp [afterClose, h]
  | _ => exact h

/-- A client that has not been closed may hear anything. -/
theorem always_silent_cons {e : Event} (h : Always Silent past)
    (hnone : afterClose (e :: past) = none) : Always Silent (e :: past) := by
  refine always_cons.mpr ⟨fun cbs hcbs => ?_, h⟩
  rw [hnone] at hcbs
  cases hcbs

section

variable [Configuration] {t₀ t : Time} {cl cl' : Client} {φ φ' : Phase} {ch : SocketChange}

namespace Client.Quiet

omit [Configuration] in
theorem of_none (halways : Always Silent cl.history) (hnone : afterClose cl.history = none) :
    cl.Quiet φ := by
  refine ⟨halways, fun cbs hcbs => ?_, fun cbs hcbs => ?_⟩
  all_goals
    rw [hnone] at hcbs
    cases hcbs

omit [Configuration] in
/-- An event of a client that has not been closed. -/
theorem cons_of_none {e : Event} (hcl : cl.Quiet φ) (hnone : afterClose cl.history = none)
    (hhistory : cl'.history = e :: cl.history) (he : e ≠ .closed true) : cl'.Quiet φ' := by
  have hnone' := afterClose_cons hnone he
  rw [← hhistory] at hnone'
  refine .of_none ?_ hnone'
  rw [hhistory] at hnone' ⊢
  exact always_silent_cons hcl.always hnone'

omit [Configuration] in
/-- A connect call ends the silence, and what comes with it is not a close. -/
theorem connect {u : Call} (es : List Event) (hcl : cl.Quiet φ) (hu : u.isConnect = true)
    (hhistory : cl'.history = es ++ .call u :: cl.history) (hes : ∀ e ∈ es, e ≠ .closed true) :
    cl'.Quiet φ' := by
  have hcall : afterClose (.call u :: cl.history) = none := by simp [afterClose, hu]
  suffices h : afterClose cl'.history = none ∧ Always Silent cl'.history from .of_none h.2 h.1
  rw [hhistory]
  clear hhistory
  induction es with
  | nil => exact ⟨hcall, always_silent_cons hcl.always hcall⟩
  | cons e es ih =>
      obtain ⟨hnone, halways⟩ := ih fun e he => hes e (List.mem_cons_of_mem _ he)
      have hnone' := afterClose_cons hnone (hes e List.mem_cons_self)
      exact ⟨hnone', always_silent_cons halways hnone'⟩

omit [Configuration] in
/-- An open client has not been closed. -/
theorem none_of_isOpen (hcl : cl.Quiet φ) (hopen : cl.isOpen = true) :
    afterClose cl.history = none := by
  by_contra hne
  obtain ⟨cbs, hcbs⟩ := Option.ne_none_iff_exists'.mp hne
  have hclosed := hcl.isClosed cbs hcbs
  rw [hopen] at hclosed
  cases hclosed

omit [Configuration] in
/-- Neither has one whose handler is going to deliver a callback. -/
theorem none_of_phase (hcl : cl.Quiet φ) (hwinds : φ.windsDown = false)
    (hrest : φ.atRest = false) : afterClose cl.history = none := by
  by_contra hne
  obtain ⟨cbs, hcbs⟩ := Option.ne_none_iff_exists'.mp hne
  rcases hcl.heard cbs hcbs with ⟨-, -, h⟩ | ⟨-, -, h⟩
  · rw [hwinds] at h
    cases h
  · rw [hrest] at h
    cases h

omit [Configuration] in
/-- A handler goes on, and the client does not change. -/
theorem of_phase (hcl : cl.Quiet φ) (hwinds : φ.windsDown = true → φ'.windsDown = true)
    (hrest : φ.atRest = true → φ'.atRest = true) : cl.Quiet φ' := by
  refine ⟨hcl.always, hcl.isClosed, fun cbs hcbs => ?_⟩
  rcases hcl.heard cbs hcbs with ⟨hnothing, hstate, h⟩ | ⟨hend, hstate, h⟩
  · exact .inl ⟨hnothing, hstate, hwinds h⟩
  · exact .inr ⟨hend, hstate, hrest h⟩

omit [Configuration] in
/-- A pass over the queue of an open client. -/
theorem afterPass (hcl : cl.Quiet φ) (p : PassResult) (hopen : cl.isOpen = true) :
    (cl.afterPass p).Quiet φ' := by
  have hnone := hcl.none_of_isOpen hopen
  have hpass : Always Silent (.pass :: cl.history) := always_silent_cons hcl.always hnone
  refine .of_none (always_wrote _ (fun _ _ h => h) hpass) ?_
  exact (eq_of_wrote p.calls fun _ _ => rfl).trans hnone

/-- An open client is closed. -/
theorem close_ (hcl : cl.Quiet φ) (hopen : cl.isOpen = true) (hwinds : φ'.windsDown = true) :
    cl.close_.Quiet φ' := by
  have hhistory : cl.close_.history = .closed true :: cl.history := by
    rw [← hopen]
    rfl
  refine ⟨?_, fun _ _ => rfl, ?_⟩
  · rw [hhistory]
    refine always_cons.mpr ⟨fun cbs hcbs => ?_, hcl.always⟩
    obtain rfl := Option.some.inj hcbs
    exact List.nil_prefix
  · rw [hhistory]
    intro cbs hcbs
    obtain rfl := Option.some.inj hcbs
    exact .inl ⟨rfl, rfl, hwinds⟩

/-- `_error` closes a client, which its callback may have closed already. -/
theorem failed (next : Continuation) (hcl : cl.Quiet (.failing next)) :
    cl.close_.Quiet next.phase := by
  cases hopen : cl.isOpen with
  | true => exact hcl.close_ hopen next.windsDown
  | false =>
      have hhistory : cl.close_.history = .closed false :: cl.history := by
        rw [← hopen]
        rfl
      refine ⟨?_, fun _ _ => rfl, ?_⟩
      · rw [hhistory]
        exact always_cons.mpr ⟨hcl.always.now, hcl.always⟩
      · rw [hhistory]
        intro cbs hcbs
        rcases hcl.heard cbs hcbs with ⟨hnothing, -, -⟩ | ⟨-, -, hrest⟩
        · exact .inl ⟨hnothing, rfl, next.windsDown⟩
        · cases hrest

end Client.Quiet

theorem UserStep.quiet (h : UserStep t₀ t cl ch cl') (hcl : cl.Quiet φ) (hcoherent : cl.Coherent)
    (hφ : φ.yields = true) (hpending : (ledger cl.history).pending = φ.pending)
    (hleaves : Always LeavesAlone cl'.history) : cl'.Quiet φ := by
  cases h with
  | stay | configure | touch => exact ⟨hcl.always, hcl.isClosed, hcl.heard⟩
  | call u hu =>
      have hsame : afterClose (.call u :: cl.history) = afterClose cl.history := by
        simp [afterClose, hu]
      refine ⟨always_cons.mpr ⟨?_, hcl.always⟩, ?_, ?_⟩
      · rw [Silent, hsame]
        exact hcl.always.now
      · rw [Client.log, hsame]
        exact hcl.isClosed
      · rw [Client.log, hsame]
        exact hcl.heard
  | commit owned data hconnected _ _ =>
      have hopen := hcoherent.connected (by simpa [Client.connected] using hconnected)
      exact hcl.cons_of_none (hcl.none_of_isOpen hopen) rfl (by simp)
  | pass io hconnected _ _ _ =>
      exact hcl.afterPass _ (hcoherent.connected (by simpa [Client.connected] using hconnected))
  | close hopen =>
      refine hcl.close_ hopen (Phase.windsDown_of_pending hφ ?_)
      rw [← hpending]
      -- a client that closes in a callback has no callback left to deliver
      have hclosed := hleaves.now
      rw [Client.close_, hopen] at hclosed
      exact hclosed
  | connect u ip port hu hattempt =>
      cases hattempt with
      | refused => exact hcl.connect [_, _] hu.isConnect rfl (by simp)
      | opened socket _ _ => exact hcl.connect [_, _] hu.isConnect rfl (by simp)
  | rejected u hu => exact hcl.connect [_] hu rfl (by simp)
  | wait host port => exact hcl.connect [_, _] rfl rfl (by simp)
  | answer q ip _ => exact ⟨always_cons.mpr ⟨hcl.always.now, hcl.always⟩, hcl.isClosed, hcl.heard⟩

theorem HandlerStep.quiet (h : HandlerStep t₀ t cl φ ch cl' φ') (hcl : cl.Quiet φ)
    (hcoherent : cl.Coherent) (hleaves : Always LeavesAlone cl'.history) : cl'.Quiet φ' := by
  cases h with
  | enter h _ =>
      have hentered : h ≠ .poll → h ≠ .done → afterClose cl.history = none := hleaves.now
      cases h with
      | poll =>
          have hrest : cl.Quiet (.running .poll) := hcl.of_phase (fun _ => rfl) fun _ => rfl
          exact ⟨always_cons.mpr ⟨hcl.always.now, hcl.always⟩, hcl.isClosed, hrest.heard⟩
      | done =>
          have hrest : cl.Quiet (.running .done) := hcl.of_phase (fun _ => rfl) fun _ => rfl
          exact ⟨always_cons.mpr ⟨hcl.always.now, hcl.always⟩, hcl.isClosed, hrest.heard⟩
      | writeable | readable | delayedConnect =>
          exact hcl.cons_of_none (hentered nofun nofun) rfl nofun
  | ready _ => exact .of_none hcl.always (hcl.none_of_phase rfl rfl)
  | announced => exact hcl.of_phase (fun _ => rfl) nofun
  | nothingToWrite activity _ => exact hcl.of_phase (fun _ => Continuation.windsDown _) nofun
  | pass activity io hstate _ _ _ => exact hcl.afterPass _ (hcoherent.connected hstate)
  | writeFailed next e _ =>
      have hscan : cl.afterFailedScan.Quiet (.cleaning next) :=
        hcl.cons_of_none (hcl.none_of_phase rfl rfl) rfl nofun
      exact hscan.cons_of_none (hscan.none_of_phase rfl rfl) rfl nofun
  | failed next => exact hcl.failed next
  | touched =>
      have hidle : cl.Quiet .idle := hcl.of_phase (fun _ => rfl) nofun
      exact ⟨hidle.always, hidle.isClosed, hidle.heard⟩
  | notPolled _ _ hφ => rcases hφ with rfl | rfl <;> exact hcl.of_phase (fun _ => rfl) fun _ => rfl
  | poll hstate => exact .of_none hcl.always (hcl.none_of_isOpen (hcoherent.connected hstate))
  | rxRenewed hstate => exact .of_none hcl.always (hcl.none_of_isOpen (hcoherent.connected hstate))
  | rxExpired _ hstate _ _ => exact hcl.close_ (hcoherent.connected hstate) rfl
  | ackTimeout _ _ _ hstate _ _ _ _ _ | polled hstate =>
      exact hcl.cons_of_none (hcl.none_of_isOpen (hcoherent.connected hstate)) rfl nofun
  | peerClosed hopen => exact hcl.close_ hopen rfl
  | nothingToRead => exact .of_none hcl.always (hcl.none_of_phase rfl rfl)
  | resolved _ hattempt =>
      have hnone := hcl.none_of_phase rfl rfl
      cases hattempt <;> exact hcl.cons_of_none hnone rfl nofun
  | disconnected hstate =>
      -- the client hears of the end of its connection
      have hheard : ∀ cbs ∈ afterClose cl.history, cbs = [] := by
        intro cbs hcbs
        rcases hcl.heard cbs hcbs with ⟨hnothing, -, -⟩ | ⟨-, hstate', -⟩
        · exact hnothing
        · rw [hstate] at hstate'
          cases hstate'
      have hdisconnect : ∀ cbs ∈ afterClose (.callback .disconnect :: cl.history),
          cbs = [.disconnect] := by
        intro cbs hcbs
        obtain ⟨cbs', hcbs', rfl⟩ := Option.mem_map.mp hcbs
        rw [hheard cbs' hcbs', List.nil_append]
      refine ⟨always_cons.mpr ⟨fun cbs hcbs => ?_, hcl.always⟩, ?_, fun cbs hcbs => ?_⟩
      · rw [hdisconnect cbs hcbs]
      · exact fun _ _ => hcoherent.disconnecting hstate
      · exact .inr ⟨hdisconnect cbs hcbs, rfl, rfl⟩
  | nothingDone _ => exact hcl.of_phase (fun _ => rfl) fun _ => rfl
  | _ => exact hcl.cons_of_none (hcl.none_of_phase rfl rfl) rfl nofun

theorem ClientRun.quiet (h : ClientRun t cl φ) (hleaves : Always LeavesAlone cl.history) :
    cl.Quiet φ := by
  have hnil : Always Silent [] := always_nil.mpr nofun
  refine ClientRun.holds (fun t => .of_none hnil rfl) (fun t₀ t socket _ => ?_)
    (fun hrun hcl hleaves hstep => ?_) h hleaves
  · unfold Client.adopted
    split <;> exact .of_none hnil rfl
  · cases hstep with
    | user hφ hstep => exact hstep.quiet hcl hrun.coherent hφ hrun.pending hleaves
    | handler hstep => exact hstep.quiet hcl hrun.coherent hleaves

/-- In every run, nothing but one `DISCONNECT` is delivered to a client between the close of its
connection and the next connect call, provided that no client is closed while lengths are still to
be reported to it, and that none is handed to `_sockIsWriteable`, `_sockIsReadable` or
`_sockDelayedConnect` between its close and the next connect call. -/
theorem silent_after_close {s : System} (hs : Reachable s) {c : ClientId}
    (hcl : s.state.clients c = some cl) (hleaves : Always LeavesAlone cl.history) :
    Always Silent cl.history := by
  obtain ⟨φ, hrun⟩ := hs.clientRun hcl
  exact (hrun.quiet hleaves).always

end

section

attribute [local instance] Configuration.esp32

/-- A client with two buffers in its queue is closed in the `SENT` callback of the first of them,
when `written` bytes were taken. -/
def closedInSent (writes : List WriteOutcome) : List Label :=
  [.ext (.newClientFrom 48), .ext (.call 0 (.add (some [1, 2]) (.of .copy))),
    .ext (.call 0 (.add (some [3]) (.of .copy))), .ext (.outcomes { writes }),
    .start (.handle .writeable 0), .ext (.call 0 .close), .resume]

/-- One buffer is finished: after the close, `DISCONNECT` is delivered. -/
theorem silent_after_close_disconnect :
    ∃ s cl, Reachable s ∧ s.state.clients 0 = some cl ∧
      afterClose cl.history = some [.disconnect] ∧ Always Silent cl.history := by
  obtain ⟨s, cl, hs, hcl, hclose, hleaves⟩ := exists_reachable_client
    (P := fun cl => afterClose cl.history = some [.disconnect] ∧ Always LeavesAlone cl.history)
    (closedInSent [.wrote 2] ++ [.start (.handle .done 0)]) 0 (by decide +kernel)
  exact ⟨s, cl, hs, hcl, hclose, silent_after_close hs hcl hleaves⟩

/-- Both buffers are finished: the second one is reported after the close. -/
theorem not_silent_after_close :
    ∃ s cl, Reachable s ∧ s.state.clients 0 = some cl ∧ ¬ Always Silent cl.history :=
  exists_reachable_client (closedInSent [.wrote 2, .wrote 1]) 0 (by decide +kernel)

end

end AsyncTcpSock
