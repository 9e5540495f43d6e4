import Mathlib.Logic.Function.Basic
import AsyncTcpSock.TlsContext

/-!
# Rules for TLS contexts

The weakest preconditions of the primitives of `Tls`, and what the member functions that other
functions call do to a context.
-/

namespace AsyncTcpSock

open Reentrant

namespace Tls

/-- The contract of a member function that returns `code` from an error exit in a context only if
`R code` holds of it. -/
def returning (R : ℤ → TlsContext → Prop) : Contract TlsContext Empty ℤ where
  env _ _ _ := False
  atYield _ _ := False
  atFault := R

variable {C : Contract TlsContext Empty ℤ} {R : ℤ → TlsContext → Prop} {s : TlsContext}

/-- What holds wherever a member function returns. -/
theorem exec_of_wp {m : Tls Unit} (h : wp (returning R) m (fun _ s' => R 0 s') s) :
    R (m.exec s).1 (m.exec s).2 := by
  rw [wp] at h
  rw [exec]
  cases hm : m s with
  | done a s' =>
      rw [hm] at h
      exact h
  | fault code s' =>
      rw [hm] at h
      exact h
  | yield i s' k => exact i.elim

/-- A conditional. -/
@[simp]
theorem wp_ite {α : Type} {p : Prop} [Decidable p] {a b : Tls α} {Q : α → TlsContext → Prop} :
    wp C (if p then a else b) Q s ↔ if p then wp C a Q s else wp C b Q s := by
  split <;> rfl

/-- A call of mbedTLS is recorded. -/
@[simp]
theorem wp_call {e : TlsCall} {Q : Unit → TlsContext → Prop} :
    wp C (call e) Q s ↔ Q () (s.log e) := Iff.rfl

/-- A return with a code ends the member function. -/
@[simp]
theorem wp_returnIf {p : Prop} [Decidable p] {code : ℤ} {Q : Unit → TlsContext → Prop} :
    wp C (returnIf p code) Q s ↔ (p → C.atFault code s) ∧ (¬ p → Q () s) := by
  rw [returnIf, wp_ite]
  split <;> simp [*]

end Tls

namespace TlsContext

open Tls

/-! ## The flags -/

/-- The flag of an object. -/
def has (s : TlsContext) : TlsObject → Bool
  | .caCert => s.haveCaCert
  | .clientCert => s.haveClientCert
  | .clientKey => s.haveClientKey
  | _ => false

/-- Clear the flag of an object. -/
def unset (s : TlsContext) : TlsObject → TlsContext
  | .caCert => { s with haveCaCert := false }
  | .clientCert => { s with haveClientCert := false }
  | .clientKey => { s with haveClientKey := false }
  | _ => s

/-- Free an object whose flag is set. -/
def release (s : TlsContext) (x : TlsObject) : TlsContext :=
  if s.has x then (s.log (.free x)).unset x else s

/-- The context after `_deleteHandshakeCerts`. -/
def deleted (s : TlsContext) : TlsContext :=
  ((s.release .caCert).release .clientCert).release .clientKey

variable {C : Contract TlsContext Empty ℤ} {R : ℤ → TlsContext → Prop} {s : TlsContext}
  {Q : Unit → TlsContext → Prop}

/-- A call leaves the socket alone. -/
@[simp]
theorem log_socket (e : TlsCall) : (s.log e).socket = s.socket := rfl

/-- A call leaves the flags alone. -/
@[simp]
theorem log_haveCaCert (e : TlsCall) : (s.log e).haveCaCert = s.haveCaCert := rfl

/-- The same for the certificate of the client. -/
@[simp]
theorem log_haveClientCert (e : TlsCall) :
    (s.log e).haveClientCert = s.haveClientCert := rfl

/-- The same for the key of the client. -/
@[simp]
theorem log_haveClientKey (e : TlsCall) : (s.log e).haveClientKey = s.haveClientKey := rfl

/-- A call is the latest one. -/
@[simp]
theorem log_calls (e : TlsCall) : (s.log e).calls = e :: s.calls := rfl

/-- A call leaves all three flags alone. -/
@[simp]
theorem log_has (e : TlsCall) : (s.log e).has = s.has := by
  funext x
  cases x <;> rfl

/-- Clearing a flag leaves the socket alone. -/
theorem unset_socket (x : TlsObject) : (s.unset x).socket = s.socket := by
  cases x <;> rfl

/-- Clearing a flag is no call of mbedTLS. -/
theorem unset_calls (x : TlsObject) : (s.unset x).calls = s.calls := by
  cases x <;> rfl

/-- Clearing a flag leaves the other flags alone. -/
theorem unset_has (x : TlsObject) : (s.unset x).has = Function.update s.has x false := by
  funext y
  cases x <;> cases y <;> rfl

/-- Freeing an object leaves the socket alone. -/
theorem release_socket (x : TlsObject) : (s.release x).socket = s.socket := by
  rw [release]
  split
  · rw [unset_socket, log_socket]
  · rfl

/-- An object is freed if its flag is set. -/
theorem release_calls (x : TlsObject) :
    (s.release x).calls = if s.has x then .free x :: s.calls else s.calls := by
  rw [release]
  split
  · rw [unset_calls, log_calls]
  · rfl

/-- The flag of an object that has been released is clear. -/
theorem release_has (x : TlsObject) : (s.release x).has = Function.update s.has x false := by
  rw [release]
  split
  · rw [unset_has, log_has]
  · rename_i hx
    rw [eq_comm, Function.update_eq_self_iff]
    simpa using (eq_false_of_ne_true hx).symm

/-- `_handle_error` returns the error that it is given. -/
@[simp]
theorem handleError_eq (err : ℤ) : handleError err = err := by
  rw [handleError, ite_self]

/-- `_deleteHandshakeCerts`, object by object. -/
@[simp]
theorem wp_deleteHandshakeCerts : wp C deleteHandshakeCerts Q s ↔ Q () s.deleted := by
  by_cases h₁ : s.haveCaCert <;> by_cases h₂ : s.haveClientCert <;>
    by_cases h₃ : s.haveClientKey <;>
      simp [deleteHandshakeCerts, deleted, release, has, unset, h₁, h₂, h₃]

/-- An error exit that deletes the certificates. -/
@[simp]
theorem wp_failIf {p : Prop} [Decidable p] {err : ℤ} :
    wp C (failIf p err) Q s ↔ (p → C.atFault err s.deleted) ∧ (¬ p → Q () s) := by
  rw [failIf, wp_ite]
  split <;> simp [*]

/-- `_deleteHandshakeCerts` clears the flags and leaves the socket. -/
@[simp]
theorem deleted_socket : s.deleted.socket = s.socket := by
  rw [deleted, release_socket, release_socket, release_socket]

/-- `_deleteHandshakeCerts` leaves no flag set. -/
theorem deleted_has (x : TlsObject) : s.deleted.has x = false := by
  rw [deleted, release_has, release_has, release_has]
  cases x <;> rfl

end TlsContext

end AsyncTcpSock
