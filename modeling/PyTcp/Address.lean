import Mathlib.Data.Nat.Bitwise
import Mathlib.Tactic.Ring

namespace PyTcp

/-- `struct.unpack` of unsigned big-endian fields, read as one value. -/
def bigEndian (bytes : List UInt8) : Nat := bytes.foldl (fun acc byte => acc * 256 + byte.toNat) 0

theorem foldl_bigEndian_lt (acc : Nat) (bytes : List UInt8) :
    bytes.foldl (fun acc byte => acc * 256 + byte.toNat) acc < (acc + 1) * 2 ^ (8 * bytes.length) := by
  induction bytes generalizing acc with
  | nil => simp
  | cons byte rest ih =>
    have small : byte.toNat < 256 := byte.toNat_lt_size
    calc _ < (acc * 256 + byte.toNat + 1) * 2 ^ (8 * rest.length) := ih _
      _ ≤ (acc + 1) * 256 * 2 ^ (8 * rest.length) := Nat.mul_le_mul_right _ (by omega)
      _ = (acc + 1) * 2 ^ (8 * (byte :: rest).length) := by
        rw [List.length_cons, Nat.mul_add, Nat.pow_add]; ring

theorem bigEndian_lt (bytes : List UInt8) : bigEndian bytes < 2 ^ (8 * bytes.length) := by
  simpa using foldl_bigEndian_lt 0 bytes

/-- Modelled from the spec: `MacAddress` (lib/mac_address.py) is absent; a 48-bit value. -/
structure MacAddress where
  toNat : Nat
  toNat_lt : toNat < 2 ^ 48
  deriving DecidableEq, Repr

/-- Modelled from the spec: `Ip4Address` (lib/ip4_address.py) is absent; a 32-bit value. -/
structure Ip4Address where
  toNat : Nat
  toNat_lt : toNat < 2 ^ 32
  deriving DecidableEq, Repr

/-- The 128-bit integer `_address` an `Ip6Address` object holds. Every constructor of the
source leaves a value below `2 ^ 128` there. -/
structure Ip6Address where
  toNat : Nat
  toNat_lt : toNat < 2 ^ 128
  deriving DecidableEq, Repr

namespace Ip6Address

@[ext]
theorem ext {a b : Ip6Address} (same : a.toNat = b.toNat) : a = b := by
  cases a; cases b; cases same; rfl

/-- `Ip6Address("::")`, equally `Ip6Address(0)`. -/
def unspecified : Ip6Address := ⟨0, by decide⟩

/-- `Ip6Address("ff02::1")`, the all-nodes group. -/
def allNodes : Ip6Address := ⟨0xff020000000000000000000000000001, by decide⟩

/-- Modelled from the spec: `IpAddress.is_unspecified` (lib/ip_address.py) is absent;
the unspecified address is `::`. -/
def isUnspecified (a : Ip6Address) : Bool := a.toNat == 0

/-- `is_multicast`: `_address in range(...)`, the block `ff00::/8`. -/
def isMulticast (a : Ip6Address) : Bool :=
  decide (338953138925153547590470800371487866880 ≤ a.toNat ∧
    a.toNat < 340282366920938463463374607431768211456)

/-- `is_solicited_node_multicast`: the block `ff02::1:ff00:0/104`. -/
def isSolicitedNodeMulticast (a : Ip6Address) : Bool :=
  decide (338963523518870617245727861372719464448 ≤ a.toNat ∧
    a.toNat < 338963523518870617245727861372736241664)

/-- `int(Ip6Address("ff02::1:ff00:0"))`. -/
def solicitedNodePrefix : Nat := 0xff0200000000000000000001ff000000

/-- `solicited_node_multicast`: `self._address & 0xFFFFFF | int(Ip6Address("ff02::1:ff00:0"))`. -/
def solicitedNodeMulticast (a : Ip6Address) : Ip6Address :=
  ⟨a.toNat &&& 0xFFFFFF ||| solicitedNodePrefix,
    Nat.or_lt_two_pow (Nat.and_lt_two_pow _ (by decide)) (by decide)⟩

/-- `Ip6Address(b)` for a 16-byte `b`: `struct.unpack("!LLLL", b)` joined big-endian. -/
def ofBytes16 (bytes : List UInt8) (length : bytes.length = 16) : Ip6Address :=
  ⟨bigEndian bytes, by simpa [length] using bigEndian_lt bytes⟩

@[simp]
theorem isUnspecified_iff (a : Ip6Address) : a.isUnspecified = true ↔ a = unspecified := by
  simp only [isUnspecified, beq_iff_eq, Ip6Address.ext_iff, unspecified]

@[simp]
theorem unspecified_isMulticast : unspecified.isMulticast = false := by decide

@[simp]
theorem allNodes_isMulticast : allNodes.isMulticast = true := by decide

@[simp]
theorem allNodes_isUnspecified : allNodes.isUnspecified = false := by decide

end Ip6Address

/-- The 128-bit integer `_mask` an `Ip6Mask` object holds. Every constructor leaves a run of
ones followed by zeros there: the `/n` form builds one, and `_validate_bits` rejects any other
integer or 16 bytes. -/
structure Ip6Mask where
  toNat : Nat
  toNat_lt : toNat < 2 ^ 128
  contiguous : ∃ bits ≤ 128, toNat = 2 ^ 128 - 2 ^ (128 - bits)
  deriving DecidableEq, Repr

/-- An `Ip6Network`: its `_address` and `_mask`. Every constructor stores the address already
masked, `Ip6Address(int(address) & int(mask))`. -/
structure Ip6Network where
  address : Ip6Address
  mask : Ip6Mask
  masked : address.toNat &&& mask.toNat = address.toNat
  deriving DecidableEq, Repr

/-- Modelled from the spec: `IpNetwork.__contains__` (lib/ip_address.py) is absent; a network
contains the addresses that agree with its address on the bits of its mask. -/
def Ip6Network.contains (network : Ip6Network) (a : Ip6Address) : Bool :=
  a.toNat &&& network.mask.toNat == network.address.toNat

/-- An `Ip6Host`: `_address`, `_network` and the `gateway` SLAAC sets from the RA. -/
structure Ip6Host where
  address : Ip6Address
  network : Ip6Network
  gateway : Option Ip6Address
  deriving DecidableEq, Repr

end PyTcp
