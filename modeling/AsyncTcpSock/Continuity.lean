import AsyncTcpSock.Soundness

/-!
# What goes on between two handlers

A cycle enters the handlers of a client one after another. Between two of them user code, the lwIP
thread and the rest of the handler may do a lot to the client, but nothing of it enters a handler,
takes a DNS answer, sets the activity of the client back, or changes its socket without closing it.
-/

namespace AsyncTcpSock

open Reentrant

/-- The handler that an event shows to be entered. -/
def Event.handler? : Event → Option Handler
  | entered h => some h
  | _ => none

/-- The handlers that have been entered in a history, newest first. -/
def handlersOf (history : List Event) : List Handler := history.filterMap Event.handler?

/-- How often a client has been closed in a history. -/
def closuresOf (history : List Event) : ℕ := history.countP fun e => e matches .closed _

/-- What never happens to a client: it does not become inactive, and its socket does not change
unless it is closed. -/
structure Client.Persists (cl cl' : Client) : Prop where
  /-- Activity is not taken back. -/
  lastActive : cl.lastActive ≤ cl'.lastActive
  /-- Nor is a closure. -/
  closures : closuresOf cl.history ≤ closuresOf cl'.history
  /-- The socket stays as long as the client is not closed. -/
  socket : cl.isOpen = true → closuresOf cl'.history = closuresOf cl.history →
    cl'.socket = cl.socket

/-- What may happen to a client without a handler being entered. -/
structure Client.Continues (cl cl' : Client) : Prop extends Client.Persists cl cl' where
  /-- No handler is entered. -/
  handlers : handlersOf cl'.history = handlersOf cl.history
  /-- Only `_sockDelayedConnect` takes an answer. -/
  dnsFinished : cl.dnsFinished = true → cl'.dnsFinished = true

namespace Client

variable {cl cl₁ cl' : Client}

/-- A client persists as it is. -/
theorem Persists.refl (cl : Client) : cl.Persists cl := ⟨le_rfl, le_rfl, fun _ _ => rfl⟩

/-- A client that is not closed is not closed on the way. -/
theorem Persists.closures_eq (h₁ : cl.Persists cl₁) (h₂ : cl₁.Persists cl')
    (h : closuresOf cl'.history = closuresOf cl.history) :
    closuresOf cl₁.history = closuresOf cl.history :=
  le_antisymm (h ▸ h₂.closures) h₁.closures

/-- A client that persists twice persists. -/
theorem Persists.trans (h₁ : cl.Persists cl₁) (h₂ : cl₁.Persists cl') : cl.Persists cl' where
  lastActive := h₁.lastActive.trans h₂.lastActive
  closures := h₁.closures.trans h₂.closures
  socket := by
    intro hopen hclosures
    have hfirst := h₁.closures_eq h₂ hclosures
    have hsocket := h₁.socket hopen hfirst
    have hopen₁ : cl₁.isOpen = true := by rwa [Client.isOpen, hsocket]
    exact (h₂.socket hopen₁ (hclosures.trans hfirst.symm)).trans hsocket

/-- A client continues as it is. -/
theorem Continues.refl (cl : Client) : cl.Continues cl := ⟨.refl cl, rfl, id⟩

/-- A client that continues twice continues. -/
theorem Continues.trans (h₁ : cl.Continues cl₁) (h₂ : cl₁.Continues cl') : cl.Continues cl' where
  toPersists := h₁.toPersists.trans h₂.toPersists
  handlers := h₂.handlers.trans h₁.handlers
  dnsFinished hdns := h₂.dnsFinished (h₁.dnsFinished hdns)

/-- A client is marked as active. -/
theorem Continues.touch {t : Time} (ht : cl.lastActive ≤ t) :
    cl.Continues { cl with lastActive := t } :=
  ⟨⟨ht, le_rfl, fun _ _ => rfl⟩, rfl, id⟩

/-- A handler is entered. -/
theorem Persists.enter (cl : Client) (h : Handler) : cl.Persists (cl.enter h) :=
  ⟨le_rfl, le_rfl, fun _ _ => rfl⟩

/-- A client that is closed does not keep its socket. -/
theorem Continues.close_ [Configuration] (cl : Client) : cl.Continues cl.close_ := by
  have hclosures : closuresOf cl.close_.history =
      closuresOf cl.history + 1 := List.countP_cons_of_pos rfl
  refine ⟨⟨le_rfl, ?_, fun _ heq => ?_⟩, rfl, id⟩
  · omega
  · omega

/-- A pass over the write queue enters no handler and closes nothing. -/
theorem Continues.afterPass (cl : Client) (p : PassResult) : cl.Continues (cl.afterPass p) := by
  have hcalls : (p.calls.map Event.wrote).reverse.filterMap Event.handler? = [] := by
    rw [List.filterMap_eq_nil_iff]
    intro e he
    obtain ⟨call, -, rfl⟩ := List.mem_map.mp (List.mem_reverse.mp he)
    rfl
  have hhandlers : handlersOf (cl.afterPass p).history = handlersOf cl.history := by
    rw [handlersOf, Client.afterPass, List.filterMap_append, hcalls]
    rfl
  have hclosures : closuresOf (cl.afterPass p).history =
      closuresOf cl.history := by
    simp [closuresOf, Client.afterPass]
  exact ⟨⟨le_rfl, hclosures.ge, fun _ _ => rfl⟩, hhandlers, id⟩

/-- An attempt is made without a handler being entered. -/
theorem Continues.attempt {ip : IPAddress} {port : UInt16} {ch : SocketChange} {success : Bool}
    (h : Attempt ip port cl ch cl' success) :
    cl.Continues cl' ∧ cl'.lastActive = cl.lastActive := by
  cases h with
  | refused => exact ⟨⟨⟨le_rfl, le_rfl, fun _ _ => rfl⟩, rfl, id⟩, rfl⟩
  | opened socket hclosed _ =>
      refine ⟨⟨⟨le_rfl, le_rfl, fun hopen => ?_⟩, rfl, id⟩, rfl⟩
      -- an attempt is made on a client without a socket
      rw [hclosed] at hopen
      cases hopen

end Client

section

variable [Configuration] {t₀ t : Time} {cl cl' : Client} {ch : SocketChange} {φ φ' : Phase}

/-- A step of user code enters no handler. -/
theorem UserStep.continues (h : UserStep t₀ t cl ch cl') (ht : cl.lastActive ≤ t) :
    cl.Continues cl' ∧ cl'.lastActive ≤ t := by
  cases h with
  | touch => exact ⟨.touch ht, le_rfl⟩
  | pass io => exact ⟨.afterPass cl _, ht⟩
  | close _ => exact ⟨.close_ cl, ht⟩
  | connect u ip port _ hattempt =>
      obtain ⟨hcl, hactive⟩ := Client.Continues.attempt hattempt
      have hcall : cl.Continues (cl.log (.call u)) := ⟨⟨le_rfl, le_rfl, fun _ _ => rfl⟩, rfl, id⟩
      refine ⟨(hcall.trans hcl).trans ⟨⟨le_rfl, le_rfl, fun _ _ => rfl⟩, rfl, id⟩, ?_⟩
      exact hactive.le.trans ht
  | answer q ip hq => exact ⟨⟨⟨le_rfl, le_rfl, fun _ _ => rfl⟩, rfl, fun _ => rfl⟩, ht⟩
  | _ => exact ⟨⟨⟨le_rfl, le_rfl, fun _ _ => rfl⟩, rfl, id⟩, ht⟩

/-- A handler that has been entered enters no other. -/
theorem HandlerStep.continues (h : HandlerStep t₀ t cl φ ch cl' φ') (hφ : φ ≠ .idle)
    (ht : cl.lastActive ≤ t) : cl.Continues cl' ∧ cl'.lastActive ≤ t := by
  cases h with
  | enter => exact absurd rfl hφ
  | touched => exact ⟨.touch ht, le_rfl⟩
  | pass activity io => exact ⟨.afterPass cl _, ht⟩
  | failed | rxExpired | peerClosed => exact ⟨.close_ cl, ht⟩
  | resolved _ hattempt =>
      obtain ⟨hcl, hactive⟩ := Client.Continues.attempt hattempt
      exact ⟨hcl, hactive.le.trans ht⟩
  | writeFailed next e _ => exact ⟨⟨⟨le_rfl, le_rfl, fun _ _ => rfl⟩, rfl, id⟩, ht⟩
  | _ => exact ⟨⟨⟨le_rfl, le_rfl, fun _ _ => rfl⟩, rfl, id⟩, ht⟩

/-- A run of user code enters no handler. -/
theorem UserRun.continues (h : UserRun t₀ cl t cl') (ht : cl.lastActive ≤ t₀) :
    cl.Continues cl' ∧ cl'.lastActive ≤ t := by
  induction h with
  | refl => exact ⟨.refl cl, ht⟩
  | step _ hle hstep ih =>
      obtain ⟨hcl, hactive⟩ := hstep.continues (ih.2.trans hle)
      exact ⟨ih.1.trans hcl, hactive⟩

/-- A new client has been active when it was constructed. -/
theorem Client.Constructed.lastActive (h : Client.Constructed t cl) : cl.lastActive ≤ t := by
  cases h with
  | new ht => exact ht
  | adopted ht₀ ht _ =>
      unfold Client.adopted
      split <;> exact ht₀.trans ht

/-- Nothing has happened to a new client. -/
theorem Client.Constructed.history (h : Client.Constructed t cl) : cl.history = [] := by
  cases h with
  | new => rfl
  | adopted =>
      unfold Client.adopted
      split <;> rfl

/-- The times at which a client was active have passed. -/
theorem ClientRun.lastActive {t : Time} {φ : Phase} (h : ClientRun t cl φ) :
    cl.lastActive ≤ t := by
  induction h with
  | new t => exact le_rfl
  | adopted t₀ t socket ht hsocket =>
      exact (Client.Constructed.adopted ht le_rfl hsocket).lastActive
  | wait _ ht ih => exact ih.trans ht
  | @step _ _ _ _ φ _ _ _ ht hstep ih =>
      cases hstep with
      | user _ hstep => exact (hstep.continues (ih.trans ht)).2
      | handler hstep =>
          by_cases hφ : φ = .idle
          · subst hφ
            cases hstep <;> exact ih.trans ht
          · exact (hstep.continues hφ (ih.trans ht)).2

end

end AsyncTcpSock
