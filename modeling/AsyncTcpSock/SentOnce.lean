import AsyncTcpSock.ClientInvariants
import AsyncTcpSock.Refinement
import AsyncTcpSock.Runs
import AsyncTcpSock.WriteQueue

/-!
# Every finished buffer is reported once

The history of a connection is read into a ledger: the buffers `add` accepted, the bytes of each
that were handed to the socket, the lengths the `SENT` callback reported, and the lengths still to
be reported. As long as the connection lasts the reports are, in order, those of the first buffers
accepted, and every one of these was handed over completely.

There are two exceptions. `_cleanupWriteQueue` stops at a buffer with an error without reporting the
finished buffers ahead of it, and it goes on reporting when a callback has closed the connection and
opened another one.
-/

namespace AsyncTcpSock

open Reentrant

/-! ## The ledger of a connection -/

/-- A buffer that `add` has accepted. -/
structure AcceptedBuffer where
  /-- The number of the buffer. -/
  seq : ℕ
  /-- The bytes that `add` has accepted. -/
  data : List UInt8
  deriving DecidableEq, Repr

/-- The ledger of the current connection. -/
structure Ledger where
  /-- The buffers accepted, in order. -/
  accepted : List AcceptedBuffer := []
  /-- The bytes of each buffer handed to the socket. -/
  handed : ℕ → List UInt8 := fun _ => []
  /-- The lengths reported by `SENT`, in order. -/
  reported : List ℕ := []
  /-- The lengths `_cleanupWriteQueue` has still to report. -/
  pending : List ℕ := []
  /-- The connection has been closed. -/
  ended : Bool := false

/-- The entry of an event. What is still to be reported belongs to the handler at work, so that a
new connection inherits it. -/
def Ledger.record (l : Ledger) : Event → Ledger
  | .opened _ _ _ => { pending := l.pending }
  | .accepted seq data => { l with accepted := l.accepted ++ [⟨seq, data⟩] }
  | .wrote call =>
      { l with handed := Function.update l.handed call.seq (l.handed call.seq ++ call.taken) }
  | .batch lengths => { l with pending := lengths }
  | .callback (.sent length _) =>
      { l with reported := l.reported ++ [length], pending := l.pending.tail }
  | .closed _ => { l with ended := true }
  | _ => l

/-- The ledger of the connection that is current at the end of a history. -/
def ledger : List Event → Ledger
  | [] => {}
  | e :: past => (ledger past).record e

/-! ## The property -/

/-- The reports are those of the first buffers accepted, and these were handed over completely. -/
def Ledger.InOrder (l : Ledger) : Prop :=
  l.reported <+: l.accepted.map (·.data.length) ∧
    ∀ b ∈ l.accepted.take l.reported.length, l.handed b.seq = b.data

/-- No buffer ahead of buffer `seq` was handed over completely without being reported. -/
def Ledger.NoneDropped (l : Ledger) (seq : ℕ) : Prop :=
  ∀ b ∈ l.accepted.drop l.reported.length, b.seq < seq → l.handed b.seq ≠ b.data

/-- As long as the connection lasts the reports are in order; and when `_cleanupWriteQueue` finds a
buffer with an error, to deliver `ERROR`, no finished buffer ahead of it has been dropped. -/
def SentOnce (past : List Event) : Prop :=
  (ledger past).ended = false → (ledger past).InOrder ∧
    match past with
    | .writeError _ seq :: past => (ledger past).NoneDropped seq
    | _ => True

/-- When `_cleanupWriteQueue` finds a buffer with an error, that buffer is the first in the queue;
and no connection is opened while lengths are still to be reported. -/
def ReportsAll : List Event → Prop
  | .writeError index _ :: _ => index = 0
  | .opened _ _ _ :: past => (ledger past).pending = []
  | _ => True

instance (l : Ledger) : Decidable l.InOrder := by
  unfold Ledger.InOrder
  infer_instance

instance (l : Ledger) (seq : ℕ) : Decidable (l.NoneDropped seq) := by
  unfold Ledger.NoneDropped
  infer_instance

instance : DecidablePred SentOnce := fun past =>
  decidable_of_bool
    ((ledger past).ended || ((ledger past).InOrder && match past with
      | .writeError _ seq :: past => decide ((ledger past).NoneDropped seq)
      | _ => true))
    (by unfold SentOnce; split <;> simp [imp_iff_not_or])

instance : DecidablePred ReportsAll := fun past =>
  decidable_of_bool
    (match past with
      | .writeError index _ :: _ => index = 0
      | .opened _ _ _ :: past => (ledger past).pending = []
      | _ => true)
    (by unfold ReportsAll; split <;> simp)

/-! ## Balance -/

/-- What is known of a buffer in the queue, when `handed` was handed to the socket. -/
structure AcceptedBuffer.Queued (handed : ℕ → List UInt8) (b : AcceptedBuffer)
    (buf : WriteQueueBuffer) : Prop where
  /-- The number is the same. -/
  seq : buf.seq = b.seq
  /-- No more is written than there is. -/
  amount_le : buf.amountWritten ≤ b.data.length
  /-- What has been written has been handed over. -/
  handed : handed b.seq = b.data.take buf.amountWritten
  /-- The data are released when all of it has. -/
  data : buf.data = if buf.amountWritten = b.data.length then [] else b.data

/-- The ledger balances with a queue: the buffers `gone` have left it, and been reported or are
about to be; the buffers `waiting` are in it. -/
structure Ledger.Balance (l : Ledger) (queue : List WriteQueueBuffer) (nextSeq : ℕ)
    (gone waiting : List AcceptedBuffer) : Prop where
  /-- The buffers that are gone came before those that wait. -/
  accepted : l.accepted = gone ++ waiting
  /-- Those that are gone have been reported, or are about to be. -/
  reported : l.reported ++ l.pending = gone.map (·.data.length)
  /-- Every byte of them has been handed over. -/
  handed : ∀ b ∈ gone, l.handed b.seq = b.data
  /-- Those that wait are in the queue. -/
  queued : List.Forall₂ (AcceptedBuffer.Queued l.handed) waiting queue
  /-- The numbers are in order. -/
  ordered : (gone ++ waiting).Pairwise (·.seq < ·.seq)
  /-- The numbers have been used. -/
  below : ∀ b ∈ gone ++ waiting, b.seq < nextSeq
  /-- Nothing has been handed over for a number to come. -/
  fresh : ∀ seq, nextSeq ≤ seq → l.handed seq = []

namespace AcceptedBuffer.Queued

variable {handed : ℕ → List UInt8} {b : AcceptedBuffer} {buf buf' : WriteQueueBuffer}

/-- A buffer that is fully written was handed over completely. -/
theorem complete (h : b.Queued handed buf) (hfull : buf.isFullyWritten = true) :
    buf.amountWritten = b.data.length := by
  have hdata := h.data
  have hle := h.amount_le
  simp only [WriteQueueBuffer.isFullyWritten, decide_eq_true_eq] at hfull
  split at hdata
  · assumption
  · rw [hdata] at hfull
    omega

/-- A pass hands over the next bytes of a buffer. -/
theorem advanced {calls : List WriteCall} (h : b.Queued handed buf)
    (hadvanced : buf.Advanced calls buf') :
    b.Queued (fun seq => handed seq ++ takenFor seq calls) buf' := by
  obtain ⟨hseq, n, hn, htaken, hamount, hdata⟩ := hadvanced
  have hle := h.amount_le
  rw [WriteQueueBuffer.length_unwritten] at hn hdata
  rw [h.seq] at htaken
  by_cases hfull : buf.amountWritten = b.data.length
  · -- nothing is left of the buffer, and nothing is taken
    have hnil : buf.data = [] := by rw [h.data, if_pos hfull]
    have hzero : n = 0 := by
      rw [hnil, List.length_nil] at hn
      omega
    subst hzero
    rw [Nat.add_zero] at hamount
    refine ⟨hseq.trans h.seq, hamount ▸ hle, ?_, ?_⟩
    · rw [htaken, List.take_zero, List.append_nil, hamount, h.handed]
    · rw [hdata, hamount, if_pos hfull, hnil, ite_self]
  · have hwhole : buf.data = b.data := by rw [h.data, if_neg hfull]
    rw [hwhole] at hn hdata
    refine ⟨hseq.trans h.seq, by omega, ?_, ?_⟩
    · rw [htaken, hamount, h.handed, WriteQueueBuffer.unwritten, hwhole, List.take_add]
    · -- the data is released when the last byte goes, and not before
      have hiff : (n ≠ 0 ∧ n = b.data.length - buf.amountWritten) ↔
          buf'.amountWritten = b.data.length := by omega
      rw [hdata]
      simp only [hiff]

end AcceptedBuffer.Queued

/-- Relations between three lists compose element by element. -/
theorem forall₂_comp {α β γ : Type} {R : α → β → Prop} {S : β → γ → Prop} {T : α → γ → Prop}
    (hcomp : ∀ a b c, R a b → S b c → T a c) {as : List α} {bs : List β} {cs : List γ}
    (hR : List.Forall₂ R as bs) (hS : List.Forall₂ S bs cs) : List.Forall₂ T as cs := by
  induction hR generalizing cs with
  | nil =>
      cases hS
      exact .nil
  | cons hab _ ih =>
      cases hS with
      | cons hbc hrest => exact .cons (hcomp _ _ _ hab hbc) (ih hrest)

/-- A list of fully written buffers: their lengths, and the bytes handed over. -/
theorem queued_complete {handed : ℕ → List UInt8} {waiting : List AcceptedBuffer}
    {queue : List WriteQueueBuffer} (h : List.Forall₂ (AcceptedBuffer.Queued handed) waiting queue)
    (hfull : ∀ buf ∈ queue, buf.isFullyWritten = true) :
    queue.map (·.amountWritten) = waiting.map (·.data.length) ∧
      ∀ b ∈ waiting, handed b.seq = b.data := by
  induction h with
  | nil => exact ⟨rfl, nofun⟩
  | cons hfirst _ ih =>
      obtain ⟨hlengths, hhanded⟩ := ih fun buf hbuf => hfull buf (List.mem_cons_of_mem _ hbuf)
      have hcomplete := hfirst.complete (hfull _ List.mem_cons_self)
      refine ⟨by rw [List.map_cons, List.map_cons, hlengths, hcomplete], ?_⟩
      intro b hb
      rcases List.mem_cons.mp hb with rfl | hb
      · rw [hfirst.handed, hcomplete, List.take_length]
      · exact hhanded b hb

namespace Ledger

variable {l : Ledger} {queue : List WriteQueueBuffer} {nextSeq : ℕ}
  {gone waiting : List AcceptedBuffer}

namespace Balance

/-- The buffers reported have left the queue. -/
theorem mem_gone (h : l.Balance queue nextSeq gone waiting) {b : AcceptedBuffer}
    (hb : b ∈ l.accepted.take l.reported.length) : b ∈ gone := by
  have hlength := congrArg List.length h.reported
  simp only [List.length_append, List.length_map] at hlength
  rw [h.accepted, List.take_append_of_le_length (by omega)] at hb
  exact List.mem_of_mem_take hb

theorem inOrder (h : l.Balance queue nextSeq gone waiting) : l.InOrder := by
  refine ⟨?_, fun b hb => h.handed b (h.mem_gone hb)⟩
  rw [h.accepted, List.map_append, ← h.reported, List.append_assoc]
  exact List.prefix_append ..

/-- The first buffer in the queue has no unreported buffer ahead of it. -/
theorem noneDropped {buf : WriteQueueBuffer} {rest : List WriteQueueBuffer}
    (h : l.Balance (buf :: rest) nextSeq gone waiting) (hpending : l.pending = []) :
    l.NoneDropped buf.seq := by
  have hlength : l.reported.length = gone.length := by
    have hlength := congrArg List.length h.reported
    rwa [hpending, List.append_nil, List.length_map] at hlength
  intro b hb hseq
  rw [h.accepted, List.drop_left' hlength.symm] at hb
  -- the buffers accepted and not reported are the ones in the queue, and `buf` is the first
  have hordered := (List.pairwise_append.mp h.ordered).2.1
  cases h.queued with
  | cons hfirst hrest =>
      rw [hfirst.seq] at hseq
      rcases List.mem_cons.mp hb with rfl | hb
      · exact absurd hseq (lt_irrefl _)
      · exact absurd hseq ((List.rel_of_pairwise_cons hordered hb).asymm)

/-- `add` queues a buffer. -/
theorem commit (h : l.Balance queue nextSeq gone waiting) (buf : WriteQueueBuffer)
    (hseq : buf.seq = nextSeq) (hamount : buf.amountWritten = 0) :
    (l.record (.accepted nextSeq buf.data)).Balance (queue ++ [buf]) (nextSeq + 1) gone
      (waiting ++ [⟨nextSeq, buf.data⟩]) where
  accepted := by
    simp only [record, h.accepted, List.append_assoc]
  reported := h.reported
  handed := h.handed
  queued := by
    -- an empty buffer is complete when it is accepted, the others have all to go
    have hnew : AcceptedBuffer.Queued l.handed ⟨nextSeq, buf.data⟩ buf := by
      refine ⟨hseq, by rw [hamount]; exact Nat.zero_le _, ?_, ?_⟩
      · rw [hamount, List.take_zero]
        exact h.fresh _ le_rfl
      · split
        · rename_i hempty
          rw [hamount] at hempty
          exact List.length_eq_zero_iff.mp hempty.symm
        · rfl
    exact List.rel_append h.queued (.cons hnew .nil)
  ordered := by
    rw [← List.append_assoc]
    refine List.pairwise_append.mpr ⟨h.ordered, List.pairwise_singleton .., ?_⟩
    intro b hb b' hb'
    rw [List.mem_singleton.mp hb']
    exact h.below b hb
  below := by
    intro b hb
    rw [← List.append_assoc] at hb
    rcases List.mem_append.mp hb with hb | hb
    · exact (h.below b hb).trans (Nat.lt_succ_self _)
    · rw [List.mem_singleton.mp hb]
      exact Nat.lt_succ_self _
  fresh seq hle := h.fresh seq (Nat.le_of_succ_le hle)

/-- A buffer in the queue is one of those that are waiting. -/
theorem mem_waiting (h : l.Balance queue nextSeq gone waiting) {buf : WriteQueueBuffer}
    (hbuf : buf ∈ queue) : ∃ b ∈ waiting, b.seq = buf.seq := by
  obtain ⟨i, hi, rfl⟩ := List.getElem_of_mem hbuf
  have hi' : i < waiting.length := by rwa [h.queued.length_eq]
  exact ⟨waiting[i], List.getElem_mem hi', (h.queued.get hi' hi).seq.symm⟩

/-- The buffers in the queue have different numbers. -/
theorem seqs_ne (h : l.Balance queue nextSeq gone waiting) :
    queue.Pairwise fun b₁ b₂ => b₁.seq ≠ b₂.seq := by
  have hseqs : queue.map (·.seq) = waiting.map (·.seq) := by
    refine List.ext_getElem (by simp [h.queued.length_eq]) fun i hi hi' => ?_
    rw [List.getElem_map, List.getElem_map]
    exact (h.queued.get (by simpa using hi') (by simpa using hi)).seq
  have hordered := (List.pairwise_append.mp h.ordered).2.1
  rw [← List.pairwise_map (f := WriteQueueBuffer.seq), hseqs, List.pairwise_map]
  exact hordered.imp ne_of_lt

/-- The calls of a pass are for buffers that are waiting. -/
theorem call_mem (h : l.Balance queue nextSeq gone waiting) (io : WriteIo) {call : WriteCall}
    (hcall : call ∈ (processQueue io queue).calls) : ∃ b ∈ waiting, b.seq = call.seq := by
  obtain ⟨buf, hbuf, hseq⟩ := processQueue_calls io queue call hcall
  rw [hseq]
  exact h.mem_waiting hbuf

/-- They are for no buffer that has left the queue. -/
theorem call_ne (h : l.Balance queue nextSeq gone waiting) (io : WriteIo) {call : WriteCall}
    (hcall : call ∈ (processQueue io queue).calls) {b : AcceptedBuffer} (hb : b ∈ gone) :
    call.seq ≠ b.seq := by
  obtain ⟨b', hb', hseq⟩ := h.call_mem io hcall
  have hlt := (List.pairwise_append.mp h.ordered).2.2 b hb b' hb'
  omega

/-- A pass hands bytes of the buffers in the queue to the socket. -/
theorem pass (h : l.Balance queue nextSeq gone waiting) (io : WriteIo) :
    ({ l with handed := fun seq => l.handed seq ++ takenFor seq (processQueue io queue).calls } :
      Ledger).Balance (processQueue io queue).queue nextSeq gone waiting where
  accepted := h.accepted
  reported := h.reported
  handed := by
    intro b hb
    have hnone : takenFor b.seq (processQueue io queue).calls = [] :=
      takenFor_of_ne fun call hcall => h.call_ne io hcall hb
    simp only [hnone, List.append_nil]
    exact h.handed b hb
  queued := forall₂_comp (fun _ _ _ hq hadvanced => hq.advanced hadvanced) h.queued
    (processQueue_advanced io h.seqs_ne)
  ordered := h.ordered
  below := h.below
  fresh := by
    intro seq hle
    -- a number that is still to be given has no buffer, and so no call
    have hnone : takenFor seq (processQueue io queue).calls = [] := by
      refine takenFor_of_ne fun call hcall => ?_
      obtain ⟨b', hb', hseq⟩ := h.call_mem io hcall
      have hlt := h.below b' (List.mem_append_right _ hb')
      omega
    simp only [hnone, List.append_nil]
    exact h.fresh seq hle

/-- `_cleanupWriteQueue` removes finished buffers. -/
theorem cleaned (h : l.Balance queue nextSeq gone waiting) (hpending : l.pending = []) {n : ℕ}
    (hfull : ∀ buf ∈ queue.take n, buf.isFullyWritten = true) :
    (l.record (.batch ((queue.take n).map (·.amountWritten)))).Balance (queue.drop n) nextSeq
      (gone ++ waiting.take n) (waiting.drop n) where
  accepted := by
    rw [List.append_assoc, List.take_append_drop]
    exact h.accepted
  reported := by
    -- the batch is reported in full before the next one, so nothing is pending here
    have hreported := h.reported
    rw [hpending, List.append_nil] at hreported
    rw [List.map_append, ← (queued_complete (List.forall₂_take n h.queued) hfull).1, ← hreported]
    rfl
  handed := by
    intro b hb
    rcases List.mem_append.mp hb with hb | hb
    · exact h.handed b hb
    · exact (queued_complete (List.forall₂_take n h.queued) hfull).2 b hb
  queued := List.forall₂_drop n h.queued
  ordered := by
    rw [List.append_assoc, List.take_append_drop]
    exact h.ordered
  below := by
    rw [List.append_assoc, List.take_append_drop]
    exact h.below
  fresh := h.fresh

/-- `SENT` reports a buffer. -/
theorem sent (h : l.Balance queue nextSeq gone waiting) {length : ℕ} {rest : List ℕ} (delay : ℕ)
    (hpending : l.pending = length :: rest) :
    (l.record (.callback (.sent length delay))).Balance queue nextSeq gone waiting where
  accepted := h.accepted
  reported := by
    rw [← h.reported, hpending]
    simp [record, hpending]
  handed := h.handed
  queued := h.queued
  ordered := h.ordered
  below := h.below
  fresh := h.fresh

/-- A connection begins with an empty ledger. -/
theorem empty (nextSeq : ℕ) : ({} : Ledger).Balance [] nextSeq [] [] where
  accepted := rfl
  reported := rfl
  handed := nofun
  queued := .nil
  ordered := .nil
  below := nofun
  fresh _ _ := rfl

end Balance

end Ledger

/-! ## Histories -/

variable {past : List Event}

/-- The entries of a pass. -/
theorem ledger_wrote (past : List Event) (calls : List WriteCall) :
    ledger ((calls.map Event.wrote).reverse ++ past) =
      { ledger past with handed := fun seq => (ledger past).handed seq ++ takenFor seq calls } := by
  induction calls using List.reverseRecOn with
  | nil => simp [takenFor]
  | append_singleton calls call ih =>
      rw [wrote_append_singleton, ledger, ih, Ledger.record]
      congr 1
      funext seq
      rw [takenFor_append, takenFor_singleton, ← List.append_assoc]
      by_cases hseq : seq = call.seq
      · subst hseq
        rw [Function.update_self, if_pos rfl]
      · rw [Function.update_of_ne hseq, if_neg (Ne.symm hseq), List.append_nil]

/-- What a history says after an event that is not an error of a buffer. -/
theorem sentOnce_cons {e : Event} (hne : ∀ index seq, e ≠ .writeError index seq)
    (h : (ledger (e :: past)).ended = false → (ledger (e :: past)).InOrder) :
    SentOnce (e :: past) := by
  refine fun hended => ⟨h hended, ?_⟩
  split
  · rename_i heq
    exact absurd (List.cons.inj heq).1 (hne _ _)
  · trivial

/-- The calls of a pass concern no buffer that was reported. -/
theorem always_sentOnce_wrote {calls : List WriteCall} (h : Always SentOnce past)
    (hcalls : (ledger past).ended = false → ∀ call ∈ calls,
      ∀ b ∈ (ledger past).accepted.take (ledger past).reported.length, call.seq ≠ b.seq) :
    Always SentOnce ((calls.map Event.wrote).reverse ++ past) := by
  induction calls using List.reverseRecOn with
  | nil => exact h
  | append_singleton calls call ih =>
      have hbefore := ih fun hended call hcall => hcalls hended call (List.mem_append_left _ hcall)
      rw [wrote_append_singleton, always_cons]
      refine ⟨sentOnce_cons nofun fun hended => ?_, hbefore⟩
      rw [← wrote_append_singleton, ledger_wrote] at hended ⊢
      have hinOrder := (h.now hended).1
      refine ⟨hinOrder.1, fun b hb => ?_⟩
      -- the bytes handed over for a buffer that was reported stay what they were
      have hnone : takenFor b.seq (calls ++ [call]) = [] :=
        takenFor_of_ne fun call' hcall' => hcalls hended call' hcall' b hb
      simp only [hnone, List.append_nil]
      exact hinOrder.2 b hb

/-! ## The invariant -/

/-- The lengths a handler has still to report. -/
def Phase.pending : Phase → List ℕ
  | notifying _ stats rest => (stats :: rest).map WriteStats.length
  | _ => []

theorem pending_notify (next : Continuation) (stats : List WriteStats) :
    (Phase.notify next stats).pending = stats.map WriteStats.length := by
  cases stats with
  | nil => cases next <;> rfl
  | cons stats rest => rfl

section

variable [Configuration] {t₀ t : Time} {cl cl' : Client} {φ φ' : Phase} {ch : SocketChange}

theorem UserStep.pending (h : UserStep t₀ t cl ch cl') :
    (ledger cl'.history).pending = (ledger cl.history).pending := by
  cases h with
  | pass io _ _ _ _ => exact eq_of_wrote (f := fun past => (ledger past).pending) _ fun _ _ => rfl
  | connect u ip port _ hattempt => cases hattempt <;> rfl
  | _ => rfl

theorem HandlerStep.pending (h : HandlerStep t₀ t cl φ ch cl' φ')
    (hcl : (ledger cl.history).pending = φ.pending) :
    (ledger cl'.history).pending = φ'.pending := by
  cases h with
  | pass activity io _ _ _ _ =>
      refine Eq.trans ?_ hcl
      exact eq_of_wrote (f := fun past => (ledger past).pending) _ fun _ _ => rfl
  | cleaned next _ => exact (pending_notify ..).symm
  | notified next stats rest =>
      rw [pending_notify]
      simp only [Client.log, ledger, Ledger.record, hcl]
      rfl
  | failed next => exact hcl.trans (pending_notify next []).symm
  | nothingToWrite activity _ => exact hcl.trans (pending_notify _ []).symm
  | notPolled _ _ hφ => rcases hφ with rfl | rfl <;> exact hcl
  | resolved _ hattempt => cases hattempt <;> exact hcl
  | _ => exact hcl

/-- The lengths the ledger has as pending are those the handler goes on to report. -/
theorem ClientRun.pending (h : ClientRun t cl φ) : (ledger cl.history).pending = φ.pending := by
  induction h with
  | new t => rfl
  | adopted t₀ t socket _ _ =>
      unfold Client.adopted
      split <;> rfl
  | wait _ _ ih => exact ih
  | step _ _ hstep ih =>
      cases hstep with
      | user _ hstep => exact hstep.pending.trans ih
      | handler hstep => exact hstep.pending ih

/-- The reports have always been in order, and as long as the connection lasts the ledger balances
with the queue. -/
structure Client.Accounted (cl : Client) : Prop where
  /-- Every report has been in order. -/
  always : Always SentOnce cl.history
  /-- As long as the account is open it balances. -/
  balance : (ledger cl.history).ended = false → ∃ gone waiting,
    (ledger cl.history).Balance cl.writeQueue cl.nextSeq gone waiting

namespace Client.Accounted

omit [Configuration] in
/-- An event with an entry that balances. -/
theorem cons {e : Event} (hcl : cl.Accounted) (hhistory : cl'.history = e :: cl.history)
    (hne : ∀ index seq, e ≠ .writeError index seq)
    (hbalance : (ledger (e :: cl.history)).ended = false → ∃ gone waiting,
      (ledger (e :: cl.history)).Balance cl'.writeQueue cl'.nextSeq gone waiting) :
    cl'.Accounted := by
  rw [← hhistory] at hbalance
  refine ⟨?_, hbalance⟩
  rw [hhistory] at hbalance ⊢
  refine always_cons.mpr ⟨sentOnce_cons hne fun hended => ?_, hcl.always⟩
  obtain ⟨gone, waiting, h⟩ := hbalance hended
  exact h.inOrder

/-- The end of a connection. -/
theorem close_ (hcl : cl.Accounted) : cl.close_.Accounted :=
  hcl.cons rfl nofun nofun

omit [Configuration] in
/-- The beginning of a connection, when nothing is left to report. -/
theorem attempt {ip : IPAddress} {port : UInt16} {success : Bool} (hcl : cl.Accounted)
    (hcoherent : cl.Coherent) (h : Attempt ip port cl ch cl' success)
    (hreports : ReportsAll cl'.history) : cl'.Accounted := by
  cases h with
  | refused => exact hcl.cons rfl nofun hcl.balance
  | opened socket hclosed _ =>
      refine hcl.cons rfl nofun fun _ => ⟨[], [], ?_⟩
      -- a client without a socket has an empty queue, and nothing is left to report
      have hpending : (ledger cl.history).pending = [] := hreports
      simp only [Client.opened, hcoherent.closed hclosed, ledger, Ledger.record, hpending]
      exact .empty _

omit [Configuration] in
/-- A pass over the queue. -/
theorem afterPass (hcl : cl.Accounted) (io : WriteIo) :
    (cl.afterPass (processQueue io cl.writeQueue)).Accounted := by
  have hpass : (cl.log .pass).Accounted := hcl.cons rfl nofun hcl.balance
  have hledger : ledger (cl.afterPass (processQueue io cl.writeQueue)).history = _ :=
    ledger_wrote (.pass :: cl.history) (processQueue io cl.writeQueue).calls
  refine ⟨always_sentOnce_wrote hpass.always fun hended call hcall b hb => ?_, ?_⟩
  · obtain ⟨gone, waiting, h⟩ := hcl.balance hended
    exact h.call_ne io hcall (h.mem_gone hb)
  · rw [hledger]
    intro hended
    obtain ⟨gone, waiting, h⟩ := hcl.balance hended
    exact ⟨gone, waiting, h.pass io⟩

omit [Configuration] in
/-- `_cleanupWriteQueue` finds an error, in the first buffer of the queue. -/
theorem afterFailedScan {e : ℤ} (hcl : cl.Accounted) (hpending : (ledger cl.history).pending = [])
    (herror : cl.scan.error = some e) (hreports : ReportsAll cl.afterFailedScan.history) :
    cl.afterFailedScan.Accounted := by
  refine ⟨always_cons.mpr ⟨fun hended => ?_, hcl.always⟩, hcl.balance⟩
  obtain ⟨gone, waiting, h⟩ := hcl.balance hended
  refine ⟨h.inOrder, ?_⟩
  -- by `ReportsAll` the buffer with the error is the first one: nothing is ahead of it
  have hindex : cl.writeQueue.findIdx (·.hasError) = 0 := hreports
  cases hqueue : cl.writeQueue with
  | nil => exact absurd hqueue (scanQueue_error herror)
  | cons buf rest =>
      rw [hqueue, List.findIdx_cons] at hindex
      have hfirst : buf.hasError = true := by
        by_contra hnot
        rw [Bool.eq_false_iff.mpr hnot] at hindex
        cases hindex
      simp only [Client.firstError, hqueue, List.find?_cons_of_pos hfirst, Option.elim_some]
      rw [hqueue] at h
      exact h.noneDropped hpending

omit [Configuration] in
/-- `_cleanupWriteQueue` removes the finished buffers, and goes on to report their lengths. -/
theorem afterScan (hcl : cl.Accounted) (hpending : (ledger cl.history).pending = []) :
    cl.afterScan.Accounted := by
  have hlengths : cl.scan.notifyQueue.map WriteStats.length =
      (cl.writeQueue.take cl.scan.notifyQueue.length).map (·.amountWritten) := by
    conv_lhs => rw [Client.scan, scanQueue_notifyQueue]
    rw [List.map_map]
    rfl
  refine hcl.cons rfl nofun fun hended => ?_
  obtain ⟨gone, waiting, h⟩ := hcl.balance hended
  have hcleaned := h.cleaned hpending (n := cl.scan.notifyQueue.length) fun buf hbuf =>
    (scanQueue_finished _ _ buf hbuf).1
  rw [← hlengths] at hcleaned
  exact ⟨_, _, hcleaned⟩

end Client.Accounted

theorem UserStep.accounted (h : UserStep t₀ t cl ch cl') (hcl : cl.Accounted)
    (hcoherent : cl.Coherent) (hreports : Always ReportsAll cl'.history) : cl'.Accounted := by
  cases h with
  | stay | configure | touch => exact ⟨hcl.always, hcl.balance⟩
  | commit owned data _ _ _ =>
      refine hcl.cons rfl nofun fun hended => ?_
      obtain ⟨gone, waiting, h⟩ := hcl.balance hended
      exact ⟨gone, _, h.commit { owned, queuedAt := t, data, seq := cl.nextSeq } rfl rfl⟩
  | pass io _ _ _ _ => exact hcl.afterPass io
  | close _ => exact hcl.close_
  | connect u ip port _ hattempt =>
      have hcall : (cl.log (.call u)).Accounted := hcl.cons rfl nofun hcl.balance
      have hcl' := hcall.attempt hcoherent.log hattempt (always_cons.mp hreports).2.now
      exact hcl'.cons rfl nofun hcl'.balance
  | rejected u _ =>
      have hcall : (cl.log (.call u)).Accounted := hcl.cons rfl nofun hcl.balance
      exact hcall.cons rfl nofun hcall.balance
  | wait host port =>
      have hcall : (cl.log (.call (.connectHost host port))).Accounted :=
        hcl.cons rfl nofun hcl.balance
      have hwaiting : ((cl.log (.call (.connectHost host port))).waiting host port).Accounted :=
        hcall.cons rfl nofun hcall.balance
      exact hwaiting.cons rfl nofun hwaiting.balance
  | _ => exact hcl.cons rfl nofun hcl.balance

theorem HandlerStep.accounted (h : HandlerStep t₀ t cl φ ch cl' φ') (hcl : cl.Accounted)
    (hcoherent : cl.Coherent) (hpending : (ledger cl.history).pending = φ.pending)
    (hreports : Always ReportsAll cl'.history) : cl'.Accounted := by
  cases h with
  | ready | announced | nothingToWrite | notPolled | touched | poll | rxRenewed | nothingToRead |
    nothingDone => exact ⟨hcl.always, hcl.balance⟩
  | pass activity io _ _ _ _ => exact hcl.afterPass io
  | writeFailed next e herror =>
      have hscan := hcl.afterFailedScan hpending herror (always_cons.mp hreports).2.now
      exact hscan.cons rfl nofun hscan.balance
  | cleaned next _ => exact hcl.afterScan hpending
  | notified next stats rest =>
      refine hcl.cons rfl nofun fun hended => ?_
      obtain ⟨gone, waiting, h⟩ := hcl.balance hended
      exact ⟨gone, waiting, h.sent stats.delay hpending⟩
  | failed | rxExpired | peerClosed => exact hcl.close_
  | resolved _ hattempt => exact hcl.attempt hcoherent hattempt hreports.now
  | _ => exact hcl.cons rfl nofun hcl.balance

theorem ClientRun.accounted (h : ClientRun t cl φ) (hreports : Always ReportsAll cl.history) :
    cl.Accounted := by
  have hnil : Always SentOnce [] :=
    always_nil.mpr fun _ => ⟨(Ledger.Balance.empty 0).inOrder, trivial⟩
  refine ClientRun.holds (I := fun cl _ => cl.Accounted)
    (fun t => ⟨hnil, fun _ => ⟨_, _, .empty _⟩⟩) (fun t₀ t socket _ => ?_)
    (fun hrun hcl hreports hstep => ?_) h hreports
  · unfold Client.adopted
    split <;> exact ⟨hnil, fun _ => ⟨_, _, .empty _⟩⟩
  · cases hstep with
    | user _ hstep => exact hstep.accounted hcl hrun.coherent hreports
    | handler hstep => exact hstep.accounted hcl hrun.coherent hrun.pending hreports

/-- In every run, as long as a connection lasts, `SENT` reports the first buffers accepted on it, in
order and each one once, after all its bytes were handed to the socket; and no finished buffer ahead
of one with an error is dropped, provided that the errors `_cleanupWriteQueue` finds are those of
the first buffer in the queue and that no connection is opened while an earlier one has lengths
still to be reported. -/
theorem sent_once {s : System} (hs : Reachable s) {c : ClientId}
    (hcl : s.state.clients c = some cl) (hreports : Always ReportsAll cl.history) :
    Always SentOnce cl.history := by
  obtain ⟨φ, hrun⟩ := hs.clientRun hcl
  exact (hrun.accounted hreports).always

end

section

attribute [local instance] Configuration.esp32

/-- A client with buffers `[1, 2]` and `[3]` in its queue makes a pass in which `lwip_write` has the
outcomes `writes`. -/
def twoBuffers (writes : List WriteOutcome) : List Label :=
  [.ext (.newClientFrom 48), .ext (.call 0 (.add (some [1, 2]) (.of .copy))),
    .ext (.call 0 (.add (some [3]) (.of .copy))), .ext (.outcomes { writes }),
    .start (.handle .writeable 0), .resume]

/-- Both buffers are written and reported. -/
theorem sent_once_both :
    ∃ s cl, Reachable s ∧ s.state.clients 0 = some cl ∧ (ledger cl.history).reported = [2, 1] ∧
      Always SentOnce cl.history := by
  obtain ⟨s, cl, hs, hcl, hreported, hreports⟩ := exists_reachable_client
    (P := fun cl => (ledger cl.history).reported = [2, 1] ∧ Always ReportsAll cl.history)
    (twoBuffers [.wrote 2, .wrote 1]) 0 (by decide +kernel)
  exact ⟨s, cl, hs, hcl, hreported, sent_once hs hcl hreports⟩

/-- The first buffer is written and the second one fails. -/
theorem not_sent_once :
    ∃ s cl, Reachable s ∧ s.state.clients 0 = some cl ∧ ¬ Always SentOnce cl.history :=
  exists_reachable_client (twoBuffers [.wrote 2, .failed 104]) 0 (by decide +kernel)

end

end AsyncTcpSock
