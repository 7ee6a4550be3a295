import PyTcp.NdCache

namespace PyTcp

/-- The counters of `packet_stats_rx` that `_phrx_ip6` updates. -/
structure PacketStatsRx where
  ip6PreParse : Nat
  ip6FailedParseDrop : Nat
  ip6DstUnknownDrop : Nat
  ip6DstUnicast : Nat
  ip6DstMulticast : Nat
  deriving DecidableEq, Repr

/-- `UdpMetadata` as the Unreachable branch builds it from the offending datagram. -/
structure UdpMetadata where
  localIpAddress : Ip6Address
  remoteIpAddress : Ip6Address
  localPort : Nat
  remotePort : Nat
  deriving DecidableEq, Repr

/-- Modelled from the spec: `UdpMetadata.socket_patterns` (udp/metadata.py) and the registry
`stack.sockets` are absent; the patterns to try, most specific first, and the socket each
pattern names, as a number. -/
structure SocketRegistry where
  socketPatterns : UdpMetadata → List String
  get : String → Option Nat

/-- The state of `stack.packet_handler` that the IPv6 and ICMPv6 handlers read and write.
`event_icmp6_nd_dad` and `event_icmp6_ra` are semaphores: their value, the releases not yet
acquired, is kept. -/
structure PacketHandler where
  macUnicast : MacAddress
  ip6Host : List Ip6Host
  ip6Unicast : List Ip6Address
  ip6Multicast : List Ip6Address
  ip6UnicastCandidate : Option Ip6Address
  icmp6NdCache : NdCache
  icmp6NdDadTlla : Option MacAddress
  eventIcmp6NdDad : Nat
  icmp6RaPrefixes : List (Icmp6NdOptPi × Ip6Address)
  eventIcmp6Ra : Nat
  packetStatsRx : PacketStatsRx

/-- A stack with MAC `macUnicast` and nothing else set up yet: no addresses, no DAD candidate,
an empty ND cache, no pending events and zero counters. -/
def PacketHandler.init (macUnicast : MacAddress) : PacketHandler :=
  ⟨macUnicast, [], [], [], none, NdCache.empty, none, 0, [], 0, ⟨0, 0, 0, 0, 0⟩⟩

/-- What a handler does besides changing the packet handler's state. -/
inductive Action
  | icmp6 (tx : Icmp6Tx)
  | notifyUnreachable (socket : Nat)
  | handOff (next : Nat)
  deriving DecidableEq, Repr

/-- `IP6_HEADER_LEN`, `UDP_HEADER_LEN` and `IP6_NEXT_HEADER_UDP` (absent ps modules). -/
def ip6HeaderLen : Nat := 40
def udpHeaderLen : Nat := 8
def ip6NextHeaderUdp : Nat := 17

/-- The Unreachable branch of `_phrx_icmp6`: the 4-tuple of an IPv6+UDP offending datagram,
and the first socket one of its patterns names. -/
def phrxIcmp6Unreachable (sockets : SocketRegistry) (frame : List UInt8) : List Action :=
  if valid : ip6HeaderLen + udpHeaderLen ≤ frame.length ∧ frame.getD 0 0 >>> 4 = 6 ∧
      frame.getD 6 0 = ip6NextHeaderUdp.toUInt8 then
    let packet : UdpMetadata :=
      { localIpAddress := Ip6Address.ofBytes16 ((frame.drop 8).take 16)
          (by simp [ip6HeaderLen, udpHeaderLen] at valid; simp; omega)
        remoteIpAddress := Ip6Address.ofBytes16 ((frame.drop 24).take 16)
          (by simp [ip6HeaderLen, udpHeaderLen] at valid; simp; omega)
        localPort := bigEndian ((frame.drop ip6HeaderLen).take 2)
        remotePort := bigEndian ((frame.drop (ip6HeaderLen + 2)).take 2) }
    match (sockets.socketPatterns packet).findSome? sockets.get with
    | some socket => [.notifyUnreachable socket]
    | none => []
  else []

section Handlers

variable (now : Int) (sockets : SocketRegistry)

/-- `_phrx_icmp6`, given the parsed IPv6 header and the result of `Icmp6Parser` (`none` when it
sets `parse_failed`); `now` is the clock `add_entry` reads. -/
def phrxIcmp6 (ph : PacketHandler) (ip6 : Ip6Header) : Option Icmp6Rx → PacketHandler × List Action
  | none => (ph, [])
  | some (.neighborSolicitation nsTargetAddress ndOptions) =>
    if nsTargetAddress ∉ ph.ip6Unicast then (ph, [])
    else
      let cache :=
        match !(ip6.src.isUnspecified || ip6.src.isMulticast), Icmp6NdOpt.ndOptSlla ndOptions with
        | true, some slla => addEntry ph.icmp6NdCache ip6.src slla now
        | _, _ => ph.icmp6NdCache
      let ip6NdDad := ip6.src.isUnspecified
      ({ ph with icmp6NdCache := cache },
        [.icmp6 { ip6Src := nsTargetAddress
                  ip6Dst := if ip6NdDad then Ip6Address.allNodes else ip6.src
                  ip6Hop := 255
                  message := .neighborAdvertisement (!ip6NdDad) ip6NdDad nsTargetAddress
                    [.tlla ph.macUnicast] }])
  | some (.neighborAdvertisement naTargetAddress ndOptions) =>
    if some naTargetAddress = ph.ip6UnicastCandidate then
      ({ ph with icmp6NdDadTlla := Icmp6NdOpt.ndOptTlla ndOptions
                 eventIcmp6NdDad := ph.eventIcmp6NdDad + 1 }, [])
    else
      match Icmp6NdOpt.ndOptTlla ndOptions with
      | some tlla => ({ ph with icmp6NdCache := addEntry ph.icmp6NdCache naTargetAddress tlla now }, [])
      | none => (ph, [])
  | some (.routerSolicitation _) => (ph, [])
  | some (.routerAdvertisement ndOptions) =>
    ({ ph with icmp6RaPrefixes := (Icmp6NdOpt.ndOptPi ndOptions).map (·, ip6.src)
               eventIcmp6Ra := ph.eventIcmp6Ra + 1 }, [])
  | some (.echoRequest ecId ecSeq ecData) =>
    (ph, [.icmp6 { ip6Src := ip6.dst, ip6Dst := ip6.src, ip6Hop := 255
                   message := .echoReply ecId ecSeq ecData }])
  | some (.unreachable unData) => (ph, phrxIcmp6Unreachable sockets unData)
  | some (.other _) => (ph, [])

/-- `_phrx_ip6`: parse, the destination check and its counters, then the hand-off by next
header; ICMPv6 goes to `_phrx_icmp6`, the other handlers are outside the model. -/
def phrxIp6 (ph : PacketHandler) (packetRx : PacketRx) : PacketHandler × List Action :=
  let stats := ph.packetStatsRx
  let ph := { ph with packetStatsRx := { stats with ip6PreParse := stats.ip6PreParse + 1 } }
  let stats := ph.packetStatsRx
  match packetRx.ip6 with
  | none => ({ ph with packetStatsRx :=
      { stats with ip6FailedParseDrop := stats.ip6FailedParseDrop + 1 } }, [])
  | some ip6 =>
    if ip6.dst ∉ ph.ip6Unicast ∧ ip6.dst ∉ ph.ip6Multicast then
      ({ ph with packetStatsRx :=
        { stats with ip6DstUnknownDrop := stats.ip6DstUnknownDrop + 1 } }, [])
    else
      let stats := if ip6.dst ∈ ph.ip6Unicast then
        { stats with ip6DstUnicast := stats.ip6DstUnicast + 1 } else stats
      let stats := if ip6.dst ∈ ph.ip6Multicast then
        { stats with ip6DstMulticast := stats.ip6DstMulticast + 1 } else stats
      let ph := { ph with packetStatsRx := stats }
      if ip6.next = ip6NextExtFrag then (ph, [.handOff ip6.next])
      else if ip6.next = ip6NextIcmp6 then phrxIcmp6 now sockets ph ip6 packetRx.icmp6
      else if ip6.next = ip6NextUdp ∨ ip6.next = ip6NextTcp then (ph, [.handOff ip6.next])
      else (ph, [])

end Handlers

end PyTcp

namespace PyTcp

section Spec

variable {now : Int} {sockets : SocketRegistry}

/-- `_phrx_ip6` hands a packet whose destination is one of the stack's addresses and whose
next header is ICMPv6 to `_phrx_icmp6`, after counting it. -/
theorem phrxIp6_of_accepted (ph : PacketHandler) (ip6 : Ip6Header) (icmp6 : Option Icmp6Rx)
    (accepted : ip6.dst ∈ ph.ip6Unicast ∨ ip6.dst ∈ ph.ip6Multicast) (next : ip6.next = ip6NextIcmp6) :
    ∃ stats, phrxIp6 now sockets ph ⟨some ip6, icmp6⟩ =
      phrxIcmp6 now sockets { ph with packetStatsRx := stats } ip6 icmp6 := by
  have notFrag : ip6.next ≠ ip6NextExtFrag := by rw [next]; decide
  have notForeign : ¬(ip6.dst ∉ ph.ip6Unicast ∧ ip6.dst ∉ ph.ip6Multicast) := by tauto
  simp only [phrxIp6]
  rw [if_neg notForeign, if_neg notFrag, if_pos next]
  exact ⟨_, rfl⟩

/-- A packet for none of the stack's addresses is counted and dropped. -/
theorem phrxIp6_of_not_accepted (ph : PacketHandler) (packetRx : PacketRx) (ip6 : Ip6Header)
    (parsed : packetRx.ip6 = some ip6)
    (foreign : ip6.dst ∉ ph.ip6Unicast ∧ ip6.dst ∉ ph.ip6Multicast) :
    ∃ stats, phrxIp6 now sockets ph packetRx = ({ ph with packetStatsRx := stats }, []) := by
  simp only [phrxIp6, parsed]
  rw [if_pos foreign]
  exact ⟨_, rfl⟩

/-- The advertisement answering a solicitation for one of the stack's addresses. -/
theorem phrxIcmp6_neighborSolicitation_sent (ph : PacketHandler) (ip6 : Ip6Header)
    (target : Ip6Address) (options : List Icmp6NdOpt) (owned : target ∈ ph.ip6Unicast) :
    (phrxIcmp6 now sockets ph ip6 (some (.neighborSolicitation target options))).2 =
      [.icmp6 { ip6Src := target
                ip6Dst := if ip6.src.isUnspecified then Ip6Address.allNodes else ip6.src
                ip6Hop := 255
                message := .neighborAdvertisement (!ip6.src.isUnspecified) ip6.src.isUnspecified
                  target [.tlla ph.macUnicast] }] := by
  simp [phrxIcmp6, owned]

/-- A solicitation from a unicast source with an SLLA teaches the cache that binding. -/
theorem phrxIcmp6_neighborSolicitation_learns (ph : PacketHandler) (ip6 : Ip6Header)
    (target : Ip6Address) (options : List Icmp6NdOpt) (mac : MacAddress)
    (owned : target ∈ ph.ip6Unicast) (unicast : ip6.src.isUnspecified = false ∧ ip6.src.isMulticast = false)
    (slla : Icmp6NdOpt.ndOptSlla options = some mac) :
    (phrxIcmp6 now sockets ph ip6 (some (.neighborSolicitation target options))).1 =
      { ph with icmp6NdCache := addEntry ph.icmp6NdCache ip6.src mac now } := by
  simp [phrxIcmp6, owned, slla, unicast]

/-- A solicitation from `::` (a DAD probe) changes nothing. -/
theorem phrxIcmp6_neighborSolicitation_dad (ph : PacketHandler) (ip6 : Ip6Header)
    (target : Ip6Address) (options : List Icmp6NdOpt) (probe : ip6.src = Ip6Address.unspecified) :
    (phrxIcmp6 now sockets ph ip6 (some (.neighborSolicitation target options))).1 = ph := by
  simp only [phrxIcmp6, probe, Ip6Address.unspecified_isMulticast]
  split
  · rfl
  · simp [Ip6Address.isUnspecified, Ip6Address.unspecified]

/-- A solicitation for an address the stack does not own is dropped. -/
theorem phrxIcmp6_neighborSolicitation_foreign (ph : PacketHandler) (ip6 : Ip6Header)
    (target : Ip6Address) (options : List Icmp6NdOpt) (foreign : target ∉ ph.ip6Unicast) :
    phrxIcmp6 now sockets ph ip6 (some (.neighborSolicitation target options)) = (ph, []) := by
  simp [phrxIcmp6, foreign]

/-- An advertisement for the DAD candidate records its TLLA and releases the DAD event. -/
theorem phrxIcmp6_neighborAdvertisement_dad (ph : PacketHandler) (ip6 : Ip6Header)
    (target : Ip6Address) (options : List Icmp6NdOpt) (candidate : ph.ip6UnicastCandidate = some target) :
    phrxIcmp6 now sockets ph ip6 (some (.neighborAdvertisement target options)) =
      ({ ph with icmp6NdDadTlla := Icmp6NdOpt.ndOptTlla options
                 eventIcmp6NdDad := ph.eventIcmp6NdDad + 1 }, []) := by
  simp [phrxIcmp6, candidate]

/-- Any other advertisement with a TLLA teaches the cache the target's binding. -/
theorem phrxIcmp6_neighborAdvertisement_learns (ph : PacketHandler) (ip6 : Ip6Header)
    (target : Ip6Address) (options : List Icmp6NdOpt) (mac : MacAddress)
    (other : ph.ip6UnicastCandidate ≠ some target) (tlla : Icmp6NdOpt.ndOptTlla options = some mac) :
    phrxIcmp6 now sockets ph ip6 (some (.neighborAdvertisement target options)) =
      ({ ph with icmp6NdCache := addEntry ph.icmp6NdCache target mac now }, []) := by
  simp [phrxIcmp6, Ne.symm other, tlla]

/-- A solicitation with an SLLA for an address the stack owns, through `_phrx_ip6`: one
advertisement, and the source's binding learnt when the source is unicast. -/
theorem phrxIp6_solicitation (ph : PacketHandler) (src dst target : Ip6Address) (mac : MacAddress)
    (heard : dst ∈ ph.ip6Unicast ∨ dst ∈ ph.ip6Multicast) (owned : target ∈ ph.ip6Unicast) :
    let out := phrxIp6 now sockets ph
      ⟨some ⟨src, dst, 255, ip6NextIcmp6⟩, some (.neighborSolicitation target [.slla mac])⟩
    out.2 = [.icmp6 { ip6Src := target
                      ip6Dst := if src.isUnspecified then Ip6Address.allNodes else src
                      ip6Hop := 255
                      message := .neighborAdvertisement (!src.isUnspecified) src.isUnspecified
                        target [.tlla ph.macUnicast] }] ∧
    out.1.icmp6NdCache = if !(src.isUnspecified || src.isMulticast) then
      addEntry ph.icmp6NdCache src mac now else ph.icmp6NdCache := by
  obtain ⟨stats, accepted⟩ := @phrxIp6_of_accepted now sockets ph ⟨src, dst, 255, ip6NextIcmp6⟩
    (some (.neighborSolicitation target [.slla mac])) heard rfl
  simp only [accepted]
  refine ⟨phrxIcmp6_neighborSolicitation_sent { ph with packetStatsRx := stats } _ target _ owned, ?_⟩
  cases unicast : !(src.isUnspecified || src.isMulticast) <;> simp [phrxIcmp6, owned, unicast]

/-- An advertisement with a TLLA for an address other than the DAD candidate, through
`_phrx_ip6`: the target's binding is learnt and nothing is sent. -/
theorem phrxIp6_advertisement (ph : PacketHandler) (src dst target : Ip6Address) (mac : MacAddress)
    (heard : dst ∈ ph.ip6Unicast ∨ dst ∈ ph.ip6Multicast) (other : ph.ip6UnicastCandidate ≠ some target) :
    let out := phrxIp6 now sockets ph
      ⟨some ⟨src, dst, 255, ip6NextIcmp6⟩, some (.neighborAdvertisement target [.tlla mac])⟩
    out.2 = [] ∧ out.1.icmp6NdCache = addEntry ph.icmp6NdCache target mac now := by
  obtain ⟨stats, accepted⟩ := @phrxIp6_of_accepted now sockets ph ⟨src, dst, 255, ip6NextIcmp6⟩
    (some (.neighborAdvertisement target [.tlla mac])) heard rfl
  simp only [accepted, phrxIcmp6_neighborAdvertisement_learns { ph with packetStatsRx := stats } _
    target [.tlla mac] mac other rfl, and_self]

end Spec

end PyTcp
