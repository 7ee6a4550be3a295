import PyTcp.Struct

namespace PyTcp

/-- Modelled from the spec: protocols/arp/ps.py and protocols/ether/ps.py are absent; the ARP
header length for Ethernet and IPv4, the two operations, and the ARP EtherType. -/
def arpHeaderLen : Nat := 28
def arpOpRequest : Nat := 1
def arpOpReply : Nat := 2
def etherTypeArp : Nat := 0x0806

/-- An `ArpAssembler` after its constructor: the fields `assemble` packs besides the four
constants the constructor sets; `oper` has passed its assert. -/
structure ArpAssembler where
  sha : MacAddress
  spa : Ip4Address
  tha : MacAddress
  tpa : Ip4Address
  oper : Nat
  oper_valid : oper = arpOpRequest ∨ oper = arpOpReply

namespace ArpAssembler

/-- The constants `_hrtype`, `_prtype`, `_hrlen` and `_prlen` the constructor sets. -/
def hrtype : Nat := 1
def prtype : Nat := 0x0800
def hrlen : Nat := 6
def prlen : Nat := 4

/-- `ArpAssembler(...)`: `none` for the `AssertionError` of an operation that is neither a
request nor a reply. -/
def init (sha : MacAddress) (spa : Ip4Address) (tha : MacAddress) (tpa : Ip4Address)
    (oper : Nat) : Option ArpAssembler :=
  if valid : oper = arpOpRequest ∨ oper = arpOpReply then some ⟨sha, spa, tha, tpa, oper, valid⟩
  else none

theorem init_isSome_iff (sha : MacAddress) (spa : Ip4Address) (tha : MacAddress) (tpa : Ip4Address)
    (oper : Nat) : (init sha spa tha tpa oper).isSome ↔ oper = arpOpRequest ∨ oper = arpOpReply := by
  unfold init
  split <;> simp_all

/-- `assemble`: the bytes `struct.pack_into("!HH BBH 6s 4s 6s 4s", frame, 0, ...)` writes at the
start of the frame, `none` for a `struct.error`. -/
def assemble (arp : ArpAssembler) : Option (List UInt8) := do
  let header ← packFields [(2, hrtype), (2, prtype), (1, hrlen), (1, prlen), (2, arp.oper)]
  pure (header ++ arp.sha.toBytes ++ arp.spa.toBytes ++ arp.tha.toBytes ++ arp.tpa.toBytes)

theorem oper_lt (arp : ArpAssembler) : arp.oper < 2 ^ (8 * 2) := by
  rcases arp.oper_valid with request | reply
  · rw [request]; decide
  · rw [reply]; decide

/-- `assemble` never raises: every field it packs fits its width. -/
theorem assemble_eq_some (arp : ArpAssembler) :
    arp.assemble = some (bytesBE 2 hrtype ++ bytesBE 2 prtype ++ bytesBE 1 hrlen ++
      bytesBE 1 prlen ++ bytesBE 2 arp.oper ++ arp.sha.toBytes ++ arp.spa.toBytes ++
      arp.tha.toBytes ++ arp.tpa.toBytes) := by
  have fit : FieldsFit [(2, hrtype), (2, prtype), (1, hrlen), (1, prlen), (2, arp.oper)] := by
    simpa [FieldsFit, hrtype, prtype, hrlen, prlen] using oper_lt arp
  simp [assemble, packFields_eq_some fit]

/-- What `assemble` writes is `__len__` bytes long, and `struct.unpack_from` at each field's
offset reads the field back: the constants, the operation, and the four addresses. -/
theorem unpackFrom_assemble (arp : ArpAssembler) :
    ∃ frame, arp.assemble = some frame ∧ frame.length = arpHeaderLen ∧
      unpackFrom frame 0 2 = hrtype ∧ unpackFrom frame 2 2 = prtype ∧
      unpackFrom frame 4 1 = hrlen ∧ unpackFrom frame 5 1 = prlen ∧
      unpackFrom frame 6 2 = arp.oper ∧ unpackFrom frame 8 6 = arp.sha.toNat ∧
      unpackFrom frame 14 4 = arp.spa.toNat ∧ unpackFrom frame 18 6 = arp.tha.toNat ∧
      unpackFrom frame 24 4 = arp.tpa.toNat := by
  refine ⟨_, assemble_eq_some arp, ?_⟩
  simp only [List.append_assoc, MacAddress.toBytes, Ip4Address.toBytes]
  have operFits := oper_lt arp
  have shaFits : arp.sha.toNat < 2 ^ (8 * 6) := arp.sha.toNat_lt
  have spaFits : arp.spa.toNat < 2 ^ (8 * 4) := arp.spa.toNat_lt
  have thaFits : arp.tha.toNat < 2 ^ (8 * 6) := arp.tha.toNat_lt
  have tpaFits : arp.tpa.toNat < 2 ^ (8 * 4) := arp.tpa.toNat_lt
  refine ⟨by simp [arpHeaderLen], ?_⟩
  simp (disch := first | assumption | decide | ((try simp only [length_bytesBE]); omega)) only
    [unpackFrom_append_of_le, length_bytesBE, unpackFrom_bytesBE_append, unpackFrom_bytesBE_self,
    Nat.reduceSub, and_self]

end ArpAssembler

end PyTcp
