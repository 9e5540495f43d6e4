import AsyncTcpSock.Client
import AsyncTcpSock.Memory.LittleEndian

/-!
# Addresses and ports of a connection

The four getters of `Client.cpp`. They have the operating system store a socket address of either
family in one buffer, and tell the families apart by the length of what was stored. The getters pass
that length to their lambdas by value, so that the length `withSockAddr` looks at is still the size
of the buffer.
-/

namespace AsyncTcpSock

open Memory

/-! ## Socket addresses -/

/-- The sizes of the structs for socket addresses. The fields are where lwIP has them; what follows
the last one is padding. -/
class SockAddrSizes where
  /-- `sizeof(sockaddr_in)` -/
  sockaddrIn : ℕ
  /-- `sizeof(sockaddr_in6)` -/
  sockaddrIn6 : ℕ
  /-- `sizeof(sockaddr_storage)` -/
  storage : ℕ
  /-- The fields of a `sockaddr_in` up to `sin_addr` fit in. -/
  sockaddrIn_ge : 8 ≤ sockaddrIn
  sockaddrIn6_ge : 28 ≤ sockaddrIn6
  /-- The getters tell the families apart by the sizes. -/
  sizes_ne : sockaddrIn ≠ sockaddrIn6
  /-- Either struct fits into the storage. -/
  sockaddrIn_le : sockaddrIn ≤ storage
  sockaddrIn6_le : sockaddrIn6 ≤ storage

/-- lwIP with IPv6 enabled. -/
@[reducible]
def SockAddrSizes.lwip : SockAddrSizes where
  sockaddrIn := 16
  sockaddrIn6 := 28
  storage := 28
  sockaddrIn_ge := by decide
  sockaddrIn6_ge := by decide
  sizes_ne := by decide
  sockaddrIn_le := by decide
  sockaddrIn6_le := by decide

/-- A socket address of either family, the port in host order. -/
inductive SockAddr where
  | v4 (address : BitVec 32) (port : UInt16)
  | v6 (address : BitVec 128) (port : UInt16) (flowinfo scope : BitVec 32)
  deriving DecidableEq, Repr

/-- `ntohs`, and `htons`: the two bytes change places. -/
def ntohs (port : UInt16) : UInt16 := UInt16.ofNat (port.toNat % 256 * 256 + port.toNat / 256)

/-- `ntohs` exchanges the two bytes of a port. -/
theorem toNat_ntohs (port : UInt16) :
    (ntohs port).toNat = port.toNat % 256 * 256 + port.toNat / 256 := by
  have hport := port.toNat_lt
  rw [ntohs, UInt16.toNat_ofNat']
  omega

/-- `ntohs` is its own inverse. -/
theorem ntohs_ntohs (port : UInt16) : ntohs (ntohs port) = port := by
  have hport := port.toNat_lt
  rw [← UInt16.toNat_inj, toNat_ntohs, toNat_ntohs]
  omega

namespace SockAddr

def port : SockAddr → UInt16
  | v4 _ port => port
  | v6 _ port _ _ => port

variable [SockAddrSizes]

/-- `sizeof` the struct of the family. -/
def size : SockAddr → ℕ
  | v4 .. => SockAddrSizes.sockaddrIn
  | v6 .. => SockAddrSizes.sockaddrIn6

/-- What follows the port in memory. -/
def tail : SockAddr → List UInt8
  | v4 address _ =>
      toBytes 4 address.toNat ++ List.replicate (SockAddrSizes.sockaddrIn - 8) 0
  | v6 address _ flowinfo scope =>
      toBytes 4 flowinfo.toNat ++ (toBytes 16 address.toNat ++ (toBytes 4 scope.toNat ++
        List.replicate (SockAddrSizes.sockaddrIn6 - 28) 0))

/-- `AF_INET`, `AF_INET6` -/
def family : SockAddr → UInt8
  | v4 .. => 2
  | v6 .. => 10

/-- A socket address in memory. -/
def bytes (a : SockAddr) : List UInt8 :=
  [UInt8.ofNat a.size, a.family] ++ (toBytes 2 (ntohs a.port).toNat ++ a.tail)

end SockAddr

/-- What the operating system reports about a socket; `none` when the call fails. -/
structure SocketNames where
  /-- `getpeername` -/
  peername : Option SockAddr
  /-- `getsockname` -/
  sockname : Option SockAddr

/-! ## The getters -/

section

variable [SockAddrSizes]

/-- `getpeername`, `getsockname`: the buffer and the length that `*namelen` is set to. -/
def storeName (name : Option SockAddr) (addr : List UInt8) (size : ℕ) : List UInt8 × ℕ :=
  match name with
  | some a => (a.bytes.take size ++ addr.drop a.bytes.length, a.bytes.length)
  | none => (addr, size)

/-- `withSockAddr`. `getter` takes the length by value, so all it leaves is the buffer. -/
def withSockAddr {Result : Type} (getter : List UInt8 → ℕ → List UInt8)
    (useIpv4 useIpv6 : List UInt8 → Result) (default : Result) : Result :=
  let size := SockAddrSizes.storage
  let addr := getter (List.replicate size 0) size
  if size = SockAddrSizes.sockaddrIn then useIpv4 (addr.take SockAddrSizes.sockaddrIn)
  else if size = SockAddrSizes.sockaddrIn6 then useIpv6 (addr.take SockAddrSizes.sockaddrIn6)
  else default

/-- `sin_port` and `sin6_port`. -/
def sinPort (s : List UInt8) : UInt16 := UInt16.ofNat (ofBytes (field 2 2 s))

/-- `IPAddress(s.sin_addr.s_addr)` -/
def ipv4Address (s : List UInt8) : IPAddress := .v4 (BitVec.ofNat 32 (ofBytes (field 4 4 s)))

/-- `IPAddress(IPType::IPv6, s.sin6_addr.s6_addr, static_cast<std::uint8_t>(s.sin6_scope_id))` -/
def ipv6Address (s : List UInt8) : IPAddress :=
  .v6 (BitVec.ofNat 128 (ofBytes (field 8 16 s))) (BitVec.ofNat 8 (ofBytes (field 24 4 s)))

namespace Client

/-- The getters of an address, where `name` is what the operating system reports. -/
def nameIP (cl : Client) (name : Option SockAddr) : IPAddress :=
  if !cl.isOpen then .any
  else withSockAddr (fun addr size => (storeName name addr size).1) ipv4Address ipv6Address .any

/-- The getters of a port. -/
def namePort (cl : Client) (name : Option SockAddr) : UInt16 :=
  if !cl.isOpen then 0
  else withSockAddr (fun addr size => (storeName name addr size).1) (fun s => ntohs (sinPort s))
    (fun s => ntohs (sinPort s)) 0

/-- `Client::remoteIP` -/
def remoteIP (cl : Client) (names : SocketNames) : IPAddress := cl.nameIP names.peername

/-- `Client::remotePort` -/
def remotePort (cl : Client) (names : SocketNames) : UInt16 := cl.namePort names.peername

/-- `Client::localIP` -/
def localIP (cl : Client) (names : SocketNames) : IPAddress := cl.nameIP names.sockname

/-- `Client::localPort` -/
def localPort (cl : Client) (names : SocketNames) : UInt16 := cl.namePort names.sockname

end Client

/-! ## What they report -/

/-- An address that a getter returns is the one the operating system has reported. -/
def ReportsIP (ip : IPAddress) : Option SockAddr → Prop
  | none => ip = .any
  | some (.v4 address _) => ip = .v4 address
  | some (.v6 address _ _ scope) => ∃ zone, ip = .v6 address zone ∧ zone.toNat = scope.toNat

/-- A port that a getter returns is the one the operating system has reported. -/
def ReportsPort (port : UInt16) : Option SockAddr → Prop
  | none => port = 0
  | some a => port = a.port

/-- The condition on the getters of an address: the buffer has the size of the struct that the
operating system has stored in it. When the call has failed, or the address is `0.0.0.0`, it is
enough that the buffer has not the size of the struct for IPv6. -/
def IPReadable : Option SockAddr → Prop
  | none => SockAddrSizes.storage ≠ SockAddrSizes.sockaddrIn6
  | some (.v4 address _) => SockAddrSizes.storage = SockAddrSizes.sockaddrIn ∨
      SockAddrSizes.storage ≠ SockAddrSizes.sockaddrIn6 ∧ address = 0
  | some (.v6 ..) => SockAddrSizes.storage = SockAddrSizes.sockaddrIn6

/-- The condition on the getters of a port: the buffer has the size of either struct, or there is no
port to report. -/
def PortReadable : Option SockAddr → Prop
  | none => True
  | some a => SockAddrSizes.storage = SockAddrSizes.sockaddrIn ∨
      SockAddrSizes.storage = SockAddrSizes.sockaddrIn6 ∨ a.port = 0

/-! ## The buffer -/

/-- The bytes of an address are as many as its size says. -/
theorem SockAddr.length_bytes (a : SockAddr) : a.bytes.length = a.size := by
  have h4 := SockAddrSizes.sockaddrIn_ge
  have h6 := SockAddrSizes.sockaddrIn6_ge
  cases a with
  | v4 address port => simp [bytes, tail, size]; omega
  | v6 address port flowinfo scope => simp [bytes, tail, size]; omega

/-- Every address fits into a `sockaddr_storage`. -/
theorem SockAddr.size_le (a : SockAddr) : a.size ≤ SockAddrSizes.storage := by
  cases a with
  | v4 address port => exact SockAddrSizes.sockaddrIn_le
  | v6 address port flowinfo scope => exact SockAddrSizes.sockaddrIn6_le

/-- The buffer after a call that has succeeded begins with the address. -/
theorem storeName_some (a : SockAddr) :
    ∃ rest, (storeName (some a) (List.replicate SockAddrSizes.storage 0)
      SockAddrSizes.storage).1 = a.bytes ++ rest := by
  have hle : a.bytes.length ≤ SockAddrSizes.storage := a.length_bytes ▸ a.size_le
  exact ⟨_, by rw [storeName, List.take_of_length_le hle]⟩

/-- What follows the port. -/
theorem field_bytes (a : SockAddr) (rest : List UInt8) {off n : ℕ} (hoff : 4 ≤ off) :
    field off n (a.bytes ++ rest) = field (off - 2 - 2) n (a.tail ++ rest) := by
  rw [SockAddr.bytes, List.append_assoc, List.append_assoc, field_append (k := 2) rfl (by omega),
    field_append (length_toBytes ..) (by omega)]

/-- Either struct has its port at the same place. -/
theorem sinPort_bytes (a : SockAddr) (rest : List UInt8) {k : ℕ} (hk : 4 ≤ k) :
    ntohs (sinPort ((a.bytes ++ rest).take k)) = a.port := by
  rw [sinPort, field_take hk, SockAddr.bytes, List.append_assoc, List.append_assoc,
    field_append (k := 2) rfl le_rfl, field_zero (length_toBytes ..),
    ofBytes_toBytes (ntohs a.port).toNat_lt, UInt16.ofNat_toNat, ntohs_ntohs]

/-- An IPv4 address is read from its first 8 bytes. -/
theorem ipv4Address_bytes (address : BitVec 32) (port : UInt16) (rest : List UInt8) {k : ℕ}
    (hk : 8 ≤ k) :
    ipv4Address (((SockAddr.v4 address port).bytes ++ rest).take k) = .v4 address := by
  rw [ipv4Address, field_take hk, field_bytes _ _ le_rfl, SockAddr.tail, List.append_assoc,
    field_zero (length_toBytes ..), ofNat_ofBytes_toBytes address (by decide)]

/-- An IPv6 address is read from its first 28 bytes. -/
theorem ipv6Address_bytes (address : BitVec 128) (port : UInt16) (flowinfo scope : BitVec 32)
    (rest : List UInt8) {k : ℕ} (hk : 28 ≤ k) :
    ipv6Address (((SockAddr.v6 address port flowinfo scope).bytes ++ rest).take k) =
      .v6 address (BitVec.ofNat 8 scope.toNat) := by
  have haddress : field 8 16 ((SockAddr.v6 address port flowinfo scope).bytes ++ rest) =
      toBytes 16 address.toNat := by
    rw [field_bytes _ _ (by decide), SockAddr.tail, List.append_assoc, List.append_assoc,
      field_append (length_toBytes ..) (by decide), field_zero (length_toBytes ..)]
  have hscope : field 24 4 ((SockAddr.v6 address port flowinfo scope).bytes ++ rest) =
      toBytes 4 scope.toNat := by
    rw [field_bytes _ _ (by decide), SockAddr.tail, List.append_assoc, List.append_assoc,
      List.append_assoc, field_append (length_toBytes ..) (by decide),
      field_append (length_toBytes ..) (by decide), field_zero (length_toBytes ..)]
  rw [ipv6Address, field_take (by omega), field_take hk, haddress, hscope,
    ofNat_ofBytes_toBytes address (by decide), ofBytes_toBytes scope.isLt]

omit [SockAddrSizes] in
/-- The buffer is zero before the call. -/
theorem field_replicate {off n k l : ℕ} (hk : off + n ≤ k) :
    ofBytes (field off n ((List.replicate l (0 : UInt8)).take k)) = 0 := by
  rw [field_take hk, field, List.drop_replicate, List.take_replicate, ofBytes_replicate_zero]

/-! ## The getters report what they should, or not -/

namespace Client

variable {cl : Client}

/-- An address is right exactly when the size of the buffer happens to be that of the struct. -/
theorem nameIP_iff (hopen : cl.isOpen = true) {name : Option SockAddr}
    (hscope : ∀ address port flowinfo scope, name = some (.v6 address port flowinfo scope) →
      scope.toNat ≤ 255) : ReportsIP (cl.nameIP name) name ↔ IPReadable name := by
  have hIn := SockAddrSizes.sockaddrIn_ge
  have hIn6 := SockAddrSizes.sockaddrIn6_ge
  have hne := SockAddrSizes.sizes_ne
  rw [nameIP, if_neg (by simp [hopen])]
  simp only [withSockAddr]
  cases name with
  | none =>
      -- `getsockname` has failed, and the zeroed storage is read
      simp only [storeName, ReportsIP, IPReadable]
      split
      · rename_i hsize
        rw [ipv4Address, field_replicate hIn]
        exact iff_of_true rfl fun h => hne (hsize.symm.trans h)
      · split
        · rename_i hsize
          exact iff_of_false nofun fun h => h hsize
        · rename_i hsize
          exact iff_of_true rfl hsize
  | some a =>
      obtain ⟨rest, hstored⟩ := storeName_some a
      rw [hstored]
      cases a with
      | v4 address port =>
          simp only [ReportsIP, IPReadable]
          split
          · rename_i hsize
            exact iff_of_true (ipv4Address_bytes address port rest hIn) (.inl hsize)
          · rename_i hsize
            split
            · rename_i hsize6
              exact iff_of_false nofun fun h => h.elim hsize fun h => h.1 hsize6
            · rename_i hsize6
              rw [IPAddress.any, IPAddress.v4.injEq]
              exact ⟨fun h => .inr ⟨hsize6, h.symm⟩, fun h => (h.resolve_left hsize).2.symm⟩
      | v6 address port flowinfo scope =>
          simp only [ReportsIP, IPReadable]
          split
          · rename_i hsize
            exact iff_of_false nofun fun h => hne (hsize.symm.trans h)
          · split
            · rename_i hsize6
              refine iff_of_true
                ⟨_, ipv6Address_bytes address port flowinfo scope rest hIn6, ?_⟩ hsize6
              -- the zone of an address has eight bits
              have := hscope address port flowinfo scope rfl
              rw [BitVec.toNat_ofNat]
              omega
            · rename_i hsize6
              exact iff_of_false nofun hsize6

/-- A port is right exactly when the size of the buffer is that of either struct, or there is none
to report. -/
theorem namePort_iff (hopen : cl.isOpen = true) (name : Option SockAddr) :
    ReportsPort (cl.namePort name) name ↔ PortReadable name := by
  have hIn := SockAddrSizes.sockaddrIn_ge
  have hIn6 := SockAddrSizes.sockaddrIn6_ge
  rw [namePort, if_neg (by simp [hopen])]
  simp only [withSockAddr]
  cases name with
  | none =>
      -- no name was stored, and the storage is still all zeroes
      refine iff_of_true ?_ trivial
      simp only [storeName, ReportsPort]
      split
      · rw [sinPort, field_replicate (by omega)]
        rfl
      · split
        · rw [sinPort, field_replicate (by omega)]
          rfl
        · rfl
  | some a =>
      -- the name lies at the front of the storage, and its port at one offset in both families
      obtain ⟨rest, hstored⟩ := storeName_some a
      rw [hstored]
      simp only [ReportsPort, PortReadable]
      split
      · rename_i hsize
        exact iff_of_true (sinPort_bytes a rest (by omega)) (.inl hsize)
      · split
        · rename_i hsize
          exact iff_of_true (sinPort_bytes a rest (by omega)) (.inr (.inl hsize))
        · rename_i hsize hsize6
          simp [hsize, hsize6, eq_comm]

end Client

/-- On every open client, and whatever the operating system reports, each getter reports the same
exactly under its condition. -/
theorem names_reported_iff {cl : Client} (hopen : cl.isOpen = true) (names : SocketNames)
    (hscope : ∀ address port flowinfo scope,
      names.peername = some (.v6 address port flowinfo scope) ∨
      names.sockname = some (.v6 address port flowinfo scope) → scope.toNat ≤ 255) :
    (ReportsIP (cl.remoteIP names) names.peername ↔ IPReadable names.peername) ∧
      (ReportsIP (cl.localIP names) names.sockname ↔ IPReadable names.sockname) ∧
      (ReportsPort (cl.remotePort names) names.peername ↔ PortReadable names.peername) ∧
      (ReportsPort (cl.localPort names) names.sockname ↔ PortReadable names.sockname) :=
  ⟨Client.nameIP_iff hopen fun a p f s h => hscope a p f s (.inl h),
    Client.nameIP_iff hopen fun a p f s h => hscope a p f s (.inr h),
    Client.namePort_iff hopen _, Client.namePort_iff hopen _⟩

end

section

attribute [local instance] SockAddrSizes.lwip Configuration.esp32

/-- With the sizes of lwIP the ports are right, and an address is if it is an IPv6 address. -/
theorem readable_lwip (name : Option SockAddr) :
    (IPReadable name ↔ ∃ address port flowinfo scope,
      name = some (.v6 address port flowinfo scope)) ∧ PortReadable name := by
  have h6 : SockAddrSizes.storage = SockAddrSizes.sockaddrIn6 := rfl
  have h4 : SockAddrSizes.storage ≠ SockAddrSizes.sockaddrIn := by decide
  rcases name with _ | ⟨address, port⟩ | ⟨address, port, flowinfo, scope⟩
  · exact ⟨iff_of_false (fun h => h h6) (by simp), trivial⟩
  · exact ⟨iff_of_false (fun h => h.elim h4 fun h => h.1 h6) (by simp), .inr (.inl h6)⟩
  · exact ⟨iff_of_true h6 ⟨address, port, flowinfo, scope, rfl⟩, .inr (.inl h6)⟩

/-- A connection over IPv6, through interface 3. -/
theorem names_reported_ipv6 :
    ReportsIP (((Client.new 0).opened 48 .any 80).remoteIP ⟨some (.v6 1 80 0 3), none⟩)
      (some (.v6 1 80 0 3)) := by
  have hopen : ((Client.new 0).opened 48 .any 80).isOpen = true := rfl
  refine (names_reported_iff hopen ⟨some (.v6 1 80 0 3), none⟩ ?_).1.mpr rfl
  rintro address port flowinfo scope (h | h)
  · cases h
    decide
  · cases h

/-- A connection over IPv4 is reported to have an IPv6 address. -/
theorem not_names_reported :
    ((Client.new 0).opened 48 .any 80).isOpen = true ∧
      ¬ ReportsIP (((Client.new 0).opened 48 .any 80).remoteIP ⟨some (.v4 0x0201A8C0 80), none⟩)
        (some (.v4 0x0201A8C0 80)) := by
  refine ⟨rfl, fun h => ?_⟩
  have hv6 : ((Client.new 0).opened 48 .any 80).remoteIP ⟨some (.v4 0x0201A8C0 80), none⟩ =
      .v6 0 0 := by decide +kernel
  cases hv6.symm.trans h

end

end AsyncTcpSock
