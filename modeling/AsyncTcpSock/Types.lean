import Mathlib.Algebra.GroupWithZero.Nat
import Mathlib.Data.Int.Notation

/-!
# Basic types

The enumerations, flags and small records of the library, the build configuration it is compiled
against, and the outcomes of the operating system calls it makes.

Time is counted in ticks of `std::chrono::steady_clock` since boot, so a default-constructed
`time_point` is `0`.
-/

namespace AsyncTcpSock

/-- The macros the library takes from lwIP and from the build. -/
class Configuration where
  /-- `TCP_SND_BUF` -/
  tcpSndBuf : ℕ
  /-- `TCP_MSS` -/
  tcpMss : ℕ
  /-- `CONFIG_LWIP_MAX_SOCKETS`, when the macro is defined -/
  maxSockets : Option ℕ
  /-- `CONFIG_ASYNC_TCP_POLL_INTERVAL`, in milliseconds -/
  pollInterval : ℕ := 125
  /-- `CONFIG_ASYNC_TCP_MAX_ACK_TIME`, in milliseconds -/
  maxAckTime : ℕ := 5000

/-- lwIP's defaults on the ESP32, with the fallbacks of `Configuration.hpp`. -/
@[reducible]
def Configuration.esp32 : Configuration where
  tcpSndBuf := 5744
  tcpMss := 1436
  maxSockets := some 10

/-- A point in time or a duration, in ticks of the steady clock. -/
abbrev Time := ℕ

/-- A duration given in milliseconds. -/
def milliseconds (n : ℕ) : Time := n * 1000000

/-- `duration_cast` to `std::uint32_t` milliseconds. -/
def delayMillis (d : Time) : ℕ := d / 1000000 % 2 ^ 32

/-! ## Error numbers -/

/-- `EBADF` -/
def EBADF : ℤ := 9

/-- `EAGAIN` -/
def EAGAIN : ℤ := 11

/-- `EWOULDBLOCK` -/
def EWOULDBLOCK : ℤ := EAGAIN

/-- `EINPROGRESS`; the source refuses to compile against any other value. -/
def EINPROGRESS : ℤ := 119

/-- `ClientBase::ERR_DNS_RESOLUTION_FAILED` -/
def ERR_DNS_RESOLUTION_FAILED : ℤ := -55

/-! ## Addresses, states and flags -/

/-- `IPAddress`: an IPv4 address, or an IPv6 address with its zone. -/
inductive IPAddress where
  | v4 (address : BitVec 32)
  | v6 (address : BitVec 128) (zone : BitVec 8)
  deriving DecidableEq, Repr

namespace IPAddress

/-- `IPAddress()` -/
def any : IPAddress := v4 0

/-- `IPAddress::operator std::uint32_t`: an IPv6 address converts to zero. -/
def toUInt32 : IPAddress → BitVec 32
  | v4 address => address
  | v6 _ _ => 0

/-- The condition `if (_ip)`, which goes through the conversion to an integer. -/
def isSet (ip : IPAddress) : Bool := ip.toUInt32 ≠ 0

end IPAddress

/-- `enum class ConnectionState` -/
inductive ConnectionState where
  | disconnected
  | waitingForDns
  | connecting
  | connected
  | disconnecting
  deriving DecidableEq, Repr

/-- `enum class ClientApiFlag` -/
inductive ClientApiFlag where
  | copy
  | immediate
  deriving DecidableEq, Repr

/-- The bit of a flag. -/
def ClientApiFlag.bits : ClientApiFlag → BitVec 8
  | copy => 0b00000001
  | immediate => 0b00000010

/-- `struct ClientApiFlags` -/
structure ClientApiFlags where
  bits : BitVec 8 := 0
  deriving DecidableEq, Repr

namespace ClientApiFlags

/-- `ClientApiFlags(ClientApiFlag)` -/
def of (flag : ClientApiFlag) : ClientApiFlags := ⟨flag.bits⟩

/-- `ClientApiFlags::test` -/
def test (flags : ClientApiFlags) (flag : ClientApiFlag) : Bool := flags.bits &&& flag.bits ≠ 0

end ClientApiFlags

/-- The callbacks of a client, with the data they deliver. -/
inductive Callback where
  | connect
  | disconnect
  | poll
  | sent (length : ℕ) (delay : ℕ)
  | recv (data : List UInt8)
  | error (errorCode : ℤ)
  | timeout (delay : ℕ)
  deriving DecidableEq, Repr

/-! ## Outcomes of system calls -/

/-- What `lwip_write` reports: the number of bytes it took, or an error number. -/
inductive WriteOutcome where
  | wrote (n : ℕ)
  | failed (errno : ℤ)
  deriving DecidableEq, Repr

/-- What `lwip_read` reports: the bytes it read (none when the peer has closed the connection), or
an error number. -/
inductive ReadOutcome where
  | read (data : List UInt8)
  | failed (errno : ℤ)
  deriving DecidableEq, Repr

/-- What `getsockopt(…, SO_ERROR, …)` reports: the pending socket error, or its own failure. -/
inductive SockoptOutcome where
  | socketError (e : ℤ)
  | failed (errno : ℤ)
  deriving DecidableEq, Repr

/-- What `dns_gethostbyname` reports: `ERR_OK` with a cached address, `ERR_INPROGRESS`, or another
error. -/
inductive DnsOutcome where
  | cached (ip : IPAddress)
  | inProgress
  | failed (err : ℤ)
  deriving DecidableEq, Repr

end AsyncTcpSock
