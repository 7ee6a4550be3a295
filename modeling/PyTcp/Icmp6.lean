import PyTcp.Address

namespace PyTcp

/-- The Prefix Information option an RA carries (its `prefix` is `network` here). -/
structure Icmp6NdOptPi where
  flagL : Bool
  flagA : Bool
  validLifetime : Nat
  preferredLifetime : Nat
  network : Ip6Network
  deriving DecidableEq, Repr

/-- An ND option: SLLA (type 1), TLLA (type 2), PI (type 3), or one the stack skips. -/
inductive Icmp6NdOpt
  | slla (mac : MacAddress)
  | tlla (mac : MacAddress)
  | pi (info : Icmp6NdOptPi)
  | unknown (code : Nat)
  deriving DecidableEq, Repr

namespace Icmp6NdOpt

/-- Modelled from the spec: the parser's `nd_opt_slla` (icmp6/fpp.py) is absent; the link
address of the first SLLA option, if any. -/
def ndOptSlla : List Icmp6NdOpt → Option MacAddress
  | [] => none
  | slla mac :: _ => some mac
  | _ :: rest => ndOptSlla rest

/-- Modelled from the spec: the parser's `nd_opt_tlla`, the first TLLA option's address. -/
def ndOptTlla : List Icmp6NdOpt → Option MacAddress
  | [] => none
  | tlla mac :: _ => some mac
  | _ :: rest => ndOptTlla rest

/-- Modelled from the spec: the parser's `nd_opt_pi`, every PI option in order. -/
def ndOptPi : List Icmp6NdOpt → List Icmp6NdOptPi
  | [] => []
  | pi info :: rest => info :: ndOptPi rest
  | _ :: rest => ndOptPi rest

@[simp] theorem ndOptSlla_slla (mac : MacAddress) : ndOptSlla [slla mac] = some mac := rfl
@[simp] theorem ndOptSlla_tlla (mac : MacAddress) : ndOptSlla [tlla mac] = none := rfl
@[simp] theorem ndOptTlla_tlla (mac : MacAddress) : ndOptTlla [tlla mac] = some mac := rfl
@[simp] theorem ndOptSlla_nil : ndOptSlla [] = none := rfl

end Icmp6NdOpt

/-- The ICMPv6 message `Icmp6Parser` leaves in `packet_rx.icmp6`, by type, with the fields
`_phrx_icmp6` reads. -/
inductive Icmp6Rx
  | unreachable (unData : List UInt8)
  | echoRequest (ecId ecSeq : Nat) (ecData : List UInt8)
  | routerSolicitation (ndOptions : List Icmp6NdOpt)
  | routerAdvertisement (ndOptions : List Icmp6NdOpt)
  | neighborSolicitation (nsTargetAddress : Ip6Address) (ndOptions : List Icmp6NdOpt)
  | neighborAdvertisement (naTargetAddress : Ip6Address) (ndOptions : List Icmp6NdOpt)
  | other (type : Nat)
  deriving DecidableEq, Repr

/-- The ICMPv6 message one call of `_phtx_icmp6` asks for: its `icmp6_type` and the
keyword arguments for that type. -/
inductive Icmp6Message
  | echoReply (ecId ecSeq : Nat) (ecData : List UInt8)
  | neighborSolicitation (nsTargetAddress : Ip6Address) (ndOptions : List Icmp6NdOpt)
  | neighborAdvertisement (naFlagS naFlagO : Bool) (naTargetAddress : Ip6Address)
      (ndOptions : List Icmp6NdOpt)
  deriving DecidableEq, Repr

/-- One call of `_phtx_icmp6`: `ip6_src`, `ip6_dst`, `ip6_hop` and the message. -/
structure Icmp6Tx where
  ip6Src : Ip6Address
  ip6Dst : Ip6Address
  ip6Hop : Nat
  message : Icmp6Message
  deriving DecidableEq, Repr

/-- `IP6_NEXT_ICMP6`, `IP6_NEXT_UDP`, `IP6_NEXT_TCP` and `IP6_NEXT_EXT_FRAG` (protocols/ip6/ps.py). -/
def ip6NextIcmp6 : Nat := 58
def ip6NextUdp : Nat := 17
def ip6NextTcp : Nat := 6
def ip6NextExtFrag : Nat := 44

/-- The fields of `packet_rx.ip6` that the handlers read. -/
structure Ip6Header where
  src : Ip6Address
  dst : Ip6Address
  hop : Nat
  next : Nat
  deriving DecidableEq, Repr

/-- An inbound frame as the absent parsers leave it: `ip6` is `none` when `Ip6Parser`, and
`icmp6` when `Icmp6Parser`, sets `parse_failed`. -/
structure PacketRx where
  ip6 : Option Ip6Header
  icmp6 : Option Icmp6Rx
  deriving DecidableEq, Repr

/-- What a parser makes of a message of the type one call of `_phtx_icmp6` sends. -/
def Icmp6Message.received : Icmp6Message → Icmp6Rx
  | .echoReply .. => .other 129
  | .neighborSolicitation target options => .neighborSolicitation target options
  | .neighborAdvertisement _ _ target options => .neighborAdvertisement target options

/-- Modelled from the spec: the assemblers and parsers are absent; a message one stack hands
to `_phtx_icmp6` reaches every stack on the link with the same fields (`parse(assemble(f)) == f`). -/
def Icmp6Tx.deliver (tx : Icmp6Tx) : PacketRx :=
  { ip6 := some ⟨tx.ip6Src, tx.ip6Dst, tx.ip6Hop, ip6NextIcmp6⟩, icmp6 := some tx.message.received }

end PyTcp
