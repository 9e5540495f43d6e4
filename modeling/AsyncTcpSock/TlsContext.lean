import Mathlib.Data.Int.Notation
import Mathlib.Algebra.GroupWithZero.Nat
import AsyncTcpSock.Reentrant.Routine

/-!
# TLS contexts

`AsyncTCP_TLS_Context.cpp`, function by function, over the outcomes of the lwIP and mbedTLS calls it
makes. A context also carries the list of its mbedTLS calls, newest first.

A function with an error exit is a routine that faults with the value it returns there; one that
runs to its end returns 0.
-/

namespace AsyncTcpSock

open Reentrant

/-! ## Calls and outcomes -/

/-- `MBEDTLS_PSK_MAX_LEN` -/
class TlsConfiguration where
  pskMaxLen : ℕ

/-- mbedTLS as the ESP32 builds configure it. -/
@[reducible]
def TlsConfiguration.esp32 : TlsConfiguration where
  pskMaxLen := 32

/-- `MBEDTLS_ERR_SSL_WANT_READ` -/
def MBEDTLS_ERR_SSL_WANT_READ : ℤ := -0x6900

/-- `MBEDTLS_ERR_SSL_WANT_WRITE` -/
def MBEDTLS_ERR_SSL_WANT_WRITE : ℤ := -0x6880

/-- `ASYNCTCP_TLS_CAN_RETRY` -/
def canRetry (r : ℤ) : Bool := r = MBEDTLS_ERR_SSL_WANT_READ ∨ r = MBEDTLS_ERR_SSL_WANT_WRITE

/-- The mbedTLS objects of a context. -/
inductive TlsObject where
  | ssl
  | conf
  | drbg
  | entropy
  | caCert
  | clientCert
  | clientKey
  deriving DecidableEq, Repr

/-- A call of an mbedTLS function. -/
inductive TlsCall where
  /-- One of the functions that initialise an object. -/
  | init (x : TlsObject)
  /-- `mbedtls_x509_crt_parse`, `mbedtls_pk_parse_key` -/
  | parse (x : TlsObject)
  /-- One of the functions that free an object. -/
  | free (x : TlsObject)
  | ctrDrbgSeed
  | sslConfigDefaults
  /-- `mbedtls_ssl_conf_authmode`, with `MBEDTLS_SSL_VERIFY_REQUIRED` or not. -/
  | sslConfAuthmode (required : Bool)
  | sslConfCaChain
  | sslConfPsk (psk pskIdent : List UInt8)
  | sslConfOwnCert
  | sslSetHostname (host : Option (List UInt8))
  | sslConfRng
  | sslSetup
  | sslSetBio
  | sslHandshake
  | sslGetRecordExpansion
  | sslGetVerifyResult
  | sslWrite
  | sslRead
  deriving DecidableEq, Repr

/-- The arguments of `_startSSLClient`. A null pointer is `none`; strings come without their
terminator. -/
structure StartArgs where
  sck : ℤ
  hostOrIp : Option (List UInt8)
  rootCABuff : Option (List UInt8) := none
  cliCert : Option (List UInt8) := none
  cliKey : Option (List UInt8) := none
  pskIdent : Option (List UInt8) := none
  psKey : Option (List UInt8) := none
  insecure : Bool := false
  deriving DecidableEq, Repr

/-- The outcomes of the calls `_startSSLClient` makes. -/
structure StartOutcomes where
  /-- `lwip_setsockopt(…, TCP_NODELAY, …)` -/
  noDelay : ℤ := 0
  /-- `lwip_setsockopt(…, SO_KEEPALIVE, …)` -/
  keepAlive : ℤ := 0
  /-- `mbedtls_ctr_drbg_seed` -/
  ctrDrbgSeed : ℤ := 0
  /-- `mbedtls_ssl_config_defaults` -/
  sslConfigDefaults : ℤ := 0
  /-- `mbedtls_x509_crt_parse` of the root certificate. -/
  caParse : ℤ := 0
  /-- `mbedtls_ssl_conf_psk` -/
  sslConfPsk : ℤ := 0
  /-- `mbedtls_x509_crt_parse` of the certificate of the client. -/
  certParse : ℤ := 0
  /-- `mbedtls_pk_parse_key` -/
  keyParse : ℤ := 0
  /-- `mbedtls_ssl_set_hostname` -/
  sslSetHostname : ℤ := 0
  /-- `mbedtls_ssl_setup` -/
  sslSetup : ℤ := 0
  deriving DecidableEq, Repr

/-- The outcomes of the calls `runSSLHandshake` makes. -/
structure HandshakeOutcomes where
  /-- `millis()` at the start of the handshake. -/
  startMillis : UInt32 := 0
  /-- `mbedtls_ssl_handshake` -/
  sslHandshake : ℤ := 0
  /-- `millis()` after `mbedtls_ssl_handshake`. -/
  nowMillis : UInt32 := 0
  /-- `mbedtls_ssl_get_record_expansion` -/
  sslGetRecordExpansion : ℤ := 0
  /-- `mbedtls_ssl_get_verify_result` -/
  sslGetVerifyResult : ℤ := 0
  deriving DecidableEq, Repr

/-! ## The context -/

/-- The fields of `AsyncTCP_TLS_Context`. The constructor leaves `handshake_start_time` as it is;
nothing reads it before a successful start has set it. -/
structure TlsContext where
  /-- `_socket` -/
  socket : ℤ := -1
  /-- `_have_ca_cert` -/
  haveCaCert : Bool := false
  /-- `_have_client_cert` -/
  haveClientCert : Bool := false
  /-- `_have_client_key` -/
  haveClientKey : Bool := false
  /-- `handshake_timeout` -/
  handshakeTimeout : UInt32 := 120000
  /-- `handshake_start_time` -/
  handshakeStartTime : UInt32 := 0
  /-- The mbedTLS calls that have been made, newest first. -/
  calls : List TlsCall := []
  deriving DecidableEq, Repr

/-- The monad of the member functions. -/
abbrev Tls (α : Type) : Type := Routine TlsContext Empty ℤ α

namespace TlsContext

/-- Record an mbedTLS call. -/
def log (s : TlsContext) (e : TlsCall) : TlsContext := { s with calls := e :: s.calls }

/-- `AsyncTCP_TLS_Context()` -/
def new : TlsContext := { calls := [.init .drbg, .init .conf, .init .ssl] }

end TlsContext

namespace Tls

/-- Make an mbedTLS call. -/
def call (e : TlsCall) : Tls Unit := Routine.modify (·.log e)

/-- Return `code` if `p` holds. -/
def returnIf (p : Prop) [Decidable p] (code : ℤ) : Tls Unit :=
  if p then Routine.fault code else pure ()

/-- What a member function returns, and what it makes of the context. -/
def exec (m : Tls Unit) (s : TlsContext) : ℤ × TlsContext :=
  match m s with
  | .done () s' => (0, s')
  | .fault code s' => (code, s')
  | .yield i _ _ => i.elim

end Tls

namespace TlsContext

open Tls

variable [TlsConfiguration]

/-- `_handle_error` -/
def handleError (err : ℤ) : ℤ := if err = -30848 then err else err

/-- `_deleteHandshakeCerts` -/
def deleteHandshakeCerts : Tls Unit := do
  if (← Routine.get).haveCaCert then
    call (.free .caCert)
    Routine.modify fun s => { s with haveCaCert := false }
  if (← Routine.get).haveClientCert then
    call (.free .clientCert)
    Routine.modify fun s => { s with haveClientCert := false }
  if (← Routine.get).haveClientKey then
    call (.free .clientKey)
    Routine.modify fun s => { s with haveClientKey := false }

/-- Delete the certificates and return `err` if `p` holds. -/
def failIf (p : Prop) [Decidable p] (err : ℤ) : Tls Unit :=
  if p then do
    deleteHandshakeCerts
    Routine.fault (handleError err)
  else pure ()

/-! ## Starting -/

/-- The value of a hexadecimal digit. -/
def hexDigit (c : UInt8) : Option UInt8 :=
  if '0'.toUInt8 ≤ c ∧ c ≤ '9'.toUInt8 then some (c - '0'.toUInt8)
  else if 'A'.toUInt8 ≤ c ∧ c ≤ 'F'.toUInt8 then some (c - ('A'.toUInt8 - 10))
  else if 'a'.toUInt8 ≤ c ∧ c ≤ 'f'.toUInt8 then some (c - ('a'.toUInt8 - 10))
  else none

/-- The loop that decodes a pre-shared key of even length; `none` when it returns -1. -/
def decodePsk : List UInt8 → Option (List UInt8)
  | c₁ :: c₂ :: rest => do
      let high ← hexDigit c₁
      let low ← hexDigit c₂
      let bytes ← decodePsk rest
      return (high <<< 4 ||| low) :: bytes
  -- a single digit cannot be left over: the length is even
  | _ => some []

/-- The branch of `_startSSLClient` for a root certificate. -/
def loadCaCert (o : StartOutcomes) : Tls Unit := do
  call (.init .caCert)
  -- verification is required before the certificate is known to parse
  call (.sslConfAuthmode true)
  call (.parse .caCert)
  Routine.modify fun s => { s with haveCaCert := true }
  call .sslConfCaChain
  -- a positive result counts certificates that could not be parsed, and is not an error
  failIf (o.caParse < 0) o.caParse

/-- The branch of `_startSSLClient` for a pre-shared key. -/
def loadPsk (o : StartOutcomes) (pskIdent psKey : List UInt8) : Tls Unit := do
  -- neither exit frees anything: no certificate has been loaded
  returnIf (psKey.length % 2 = 1 ∨ psKey.length > 2 * TlsConfiguration.pskMaxLen) (-1)
  match decodePsk psKey with
  | none => Routine.fault (-1)
  | some psk =>
      call (.sslConfPsk psk pskIdent)
      returnIf (o.sslConfPsk ≠ 0) (handleError o.sslConfPsk)

/-- How `_startSSLClient` sets up the verification of the peer. -/
def loadCredentials (a : StartArgs) (o : StartOutcomes) : Tls Unit :=
  if a.insecure then call (.sslConfAuthmode false)
  else
    match a.rootCABuff, a.pskIdent, a.psKey with
    | some _, _, _ => loadCaCert o
    | none, some pskIdent, some psKey => loadPsk o pskIdent psKey
    -- an identity without a key, or a key without an identity
    | none, _, _ => Routine.fault (-1)

/-- How `_startSSLClient` loads the certificate and the key of the client. -/
def loadOwnCert (a : StartArgs) (o : StartOutcomes) : Tls Unit := do
  if !a.insecure ∧ a.cliCert.isSome ∧ a.cliKey.isSome then
    call (.init .clientCert)
    call (.init .clientKey)
    call (.parse .clientCert)
    -- the flag is set before the result is looked at, so that the certificate is freed
    Routine.modify fun s => { s with haveClientCert := true }
    failIf (o.certParse < 0) o.certParse
    call (.parse .clientKey)
    Routine.modify fun s => { s with haveClientKey := true }
    failIf (o.keyParse ≠ 0) o.keyParse
    call .sslConfOwnCert

/-- `_startSSLClient` -/
def startSSLClient_ (a : StartArgs) (o : StartOutcomes) : Tls Unit := do
  -- verification must be possible, unless the start is insecure
  returnIf (a.rootCABuff = none ∧ a.pskIdent = none ∧ a.psKey = none ∧ !a.insecure) (-1)
  returnIf (o.noDelay < 0) (-1)
  returnIf (o.keepAlive < 0) (-1)
  -- from here on there is an entropy context, which only the destructor frees
  call (.init .entropy)
  call .ctrDrbgSeed
  returnIf (o.ctrDrbgSeed < 0) (handleError o.ctrDrbgSeed)
  call .sslConfigDefaults
  returnIf (o.sslConfigDefaults ≠ 0) (handleError o.sslConfigDefaults)
  loadCredentials a o
  loadOwnCert a o
  call (.sslSetHostname a.hostOrIp)
  failIf (o.sslSetHostname ≠ 0) o.sslSetHostname
  call .sslConfRng
  call .sslSetup
  failIf (o.sslSetup ≠ 0) o.sslSetup
  -- every exit before this line leaves the context without a socket
  Routine.modify fun s => { s with socket := a.sck }
  call .sslSetBio
  Routine.modify fun s => { s with handshakeStartTime := 0 }

end TlsContext

/-- The entry points that start a context. -/
inductive TlsStart where
  /-- `startSSLClientInsecure` -/
  | insecure (sck : ℤ) (hostOrIp : Option (List UInt8))
  /-- `startSSLClient` with a pre-shared key. -/
  | psk (sck : ℤ) (hostOrIp pskIdent psKey : Option (List UInt8))
  /-- `startSSLClient` with certificates as strings; the length includes the terminator. -/
  | pem (sck : ℤ) (hostOrIp rootCABuff cliCert cliKey : Option (List UInt8))
  /-- `startSSLClient` with certificates in buffers. -/
  | buffers (sck : ℤ) (hostOrIp rootCABuff cliCert cliKey : Option (List UInt8))
  deriving DecidableEq, Repr

/-- What an entry point passes to `_startSSLClient`. -/
def TlsStart.args : TlsStart → StartArgs
  | insecure sck hostOrIp => { sck, hostOrIp, insecure := true }
  | psk sck hostOrIp pskIdent psKey => { sck, hostOrIp, pskIdent, psKey }
  | pem sck hostOrIp rootCABuff cliCert cliKey => {
      sck, hostOrIp
      rootCABuff := rootCABuff.map (· ++ [0])
      cliCert := cliCert.map (· ++ [0])
      cliKey := cliKey.map (· ++ [0]) }
  | buffers sck hostOrIp rootCABuff cliCert cliKey => { sck, hostOrIp, rootCABuff, cliCert, cliKey }

namespace TlsContext

open Tls

/-! ## Running and ending -/

/-- `runSSLHandshake` takes the time when it is called first. -/
def startTimer (o : HandshakeOutcomes) : Tls Unit := do
  -- 0 stands for a handshake that has not begun, and `millis()` may be 0 as well
  if (← Routine.get).handshakeStartTime = 0 then
    Routine.modify fun s => { s with handshakeStartTime := o.startMillis }

/-- The exits of `runSSLHandshake` when the handshake is not completed. -/
def handshakePending (o : HandshakeOutcomes) : Tls Unit := do
  returnIf (!canRetry o.sslHandshake) (handleError o.sslHandshake)
  let s ← Routine.get
  -- the subtraction is unsigned and wraps, as the counter does
  returnIf (o.nowMillis - s.handshakeStartTime > s.handshakeTimeout) (-1)
  Routine.fault o.sslHandshake

/-- What `ret` holds in `runSSLHandshake` when the peer is verified. -/
def retBeforeVerify (o : HandshakeOutcomes) : Tls ℤ := do
  let s ← Routine.get
  if s.haveClientCert ∧ s.haveClientKey then
    call .sslGetRecordExpansion
    return o.sslGetRecordExpansion
  else return o.sslHandshake

/-- `runSSLHandshake` once the handshake is completed. -/
def verifyPeer (o : HandshakeOutcomes) : Tls Unit := do
  let ret ← retBeforeVerify o
  call .sslGetVerifyResult
  -- the result of the verification is in `flags`, and `ret` is what an earlier call returned
  failIf (o.sslGetVerifyResult ≠ 0) ret
  deleteHandshakeCerts

/-- `runSSLHandshake` -/
def runSSLHandshake (o : HandshakeOutcomes) : Tls Unit := do
  -- no start has succeeded
  returnIf ((← Routine.get).socket < 0) (-1)
  startTimer o
  call .sslHandshake
  if o.sslHandshake ≠ 0 then handshakePending o
  else verifyPeer o

/-- `write`, where mbedTLS returns `ret`. -/
def write (ret : ℤ) : Tls Unit := do
  returnIf ((← Routine.get).socket < 0) (-1)
  call .sslWrite
  Routine.fault (if !canRetry ret ∧ ret < 0 then handleError ret else ret)

/-- `read`, where mbedTLS returns `ret`. -/
def read (ret : ℤ) : Tls Unit := do
  call .sslRead
  Routine.fault (if !canRetry ret ∧ ret < 0 then handleError ret else ret)

/-- `~AsyncTCP_TLS_Context` -/
def destroy : Tls Unit := do
  deleteHandshakeCerts
  call (.free .ssl)
  call (.free .conf)
  call (.free .drbg)
  call (.free .entropy)

end TlsContext

end AsyncTcpSock
