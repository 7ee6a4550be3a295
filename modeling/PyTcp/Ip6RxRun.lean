import PyTcp.PacketHandler
import PyTcp.Ip6Address

namespace PyTcp

/-- The packet handler after `_phrx_ip6` has processed packets, each with the clock reading
`add_entry` sees. -/
def ip6Run (sockets : SocketRegistry) (ph : PacketHandler) : List (Int × PacketRx) → PacketHandler
  | [] => ph
  | (now, packetRx) :: packets => ip6Run sockets (phrxIp6 now sockets ph packetRx).1 packets

/-- What the RA branch of `_phrx_icmp6` stores in `icmp6_ra_prefixes` for a message: for a
Router Advertisement, its Prefix Information options paired with the router. -/
def advertisedPrefixes (ip6 : Ip6Header) : Option Icmp6Rx → Option (List (Icmp6NdOptPi × Ip6Address))
  | some (.routerAdvertisement ndOptions) => some ((Icmp6NdOpt.ndOptPi ndOptions).map (·, ip6.src))
  | _ => none

namespace PacketRx

/-- Whether the packet parsed and is addressed to one of `addresses`. -/
def dstIn (addresses : List Ip6Address) (packetRx : PacketRx) : Bool :=
  match packetRx.ip6 with
  | some ip6 => decide (ip6.dst ∈ addresses)
  | none => false

/-- Whether the packet parsed and is addressed to none of the stack's addresses. -/
def foreign (unicast multicast : List Ip6Address) (packetRx : PacketRx) : Bool :=
  packetRx.ip6.isSome && !packetRx.dstIn unicast && !packetRx.dstIn multicast

/-- What `_phrx_ip6` makes the RA branch store for a packet: the advertised prefixes of an
ICMPv6 packet that passed the destination check. -/
def acceptedPrefixes (unicast multicast : List Ip6Address) (packetRx : PacketRx) :
    Option (List (Icmp6NdOptPi × Ip6Address)) :=
  match packetRx.ip6 with
  | some ip6 =>
    if (ip6.dst ∈ unicast ∨ ip6.dst ∈ multicast) ∧ ip6.next = ip6NextIcmp6 then
      advertisedPrefixes ip6 packetRx.icmp6
    else none
  | none => none

end PacketRx

section Frame

variable {sockets : SocketRegistry}

/-- `_phrx_icmp6` leaves the addresses and the receive counters, and changes
`icmp6_ra_prefixes` and `event_icmp6_ra` only for a Router Advertisement. -/
theorem phrxIcmp6_frame (now : Int) (ph : PacketHandler) (ip6 : Ip6Header) (icmp6 : Option Icmp6Rx) :
    let next := (phrxIcmp6 now sockets ph ip6 icmp6).1
    next.ip6Unicast = ph.ip6Unicast ∧ next.ip6Multicast = ph.ip6Multicast ∧
    next.packetStatsRx = ph.packetStatsRx ∧
    next.icmp6RaPrefixes = (advertisedPrefixes ip6 icmp6).getD ph.icmp6RaPrefixes ∧
    next.eventIcmp6Ra = ph.eventIcmp6Ra + if (advertisedPrefixes ip6 icmp6).isSome then 1 else 0 := by
  rcases icmp6 with _ | ⟨_ | _ | _ | _ | _ | _ | _⟩ <;>
    simp only [phrxIcmp6, advertisedPrefixes, Option.isSome_none, Option.isSome_some,
      Option.getD_none, Option.getD_some, Bool.false_eq_true, ↓reduceIte, Nat.add_zero, true_and] <;>
    split_ifs <;> (try split) <;> exact ⟨rfl, rfl, rfl, rfl, rfl⟩

/-- One packet: `_phrx_ip6` keeps the addresses, adds the packet to `ip6__pre_parse` and to the
counter of its kind, and records the prefixes of an accepted Router Advertisement. -/
theorem phrxIp6_frame (now : Int) (ph : PacketHandler) (packetRx : PacketRx) :
    let next := (phrxIp6 now sockets ph packetRx).1
    let before := ph.packetStatsRx
    let accepted := packetRx.acceptedPrefixes ph.ip6Unicast ph.ip6Multicast
    next.ip6Unicast = ph.ip6Unicast ∧ next.ip6Multicast = ph.ip6Multicast ∧
    next.packetStatsRx =
      { ip6PreParse := before.ip6PreParse + 1
        ip6FailedParseDrop := before.ip6FailedParseDrop + if packetRx.ip6.isNone then 1 else 0
        ip6DstUnknownDrop := before.ip6DstUnknownDrop +
          if packetRx.foreign ph.ip6Unicast ph.ip6Multicast then 1 else 0
        ip6DstUnicast := before.ip6DstUnicast + if packetRx.dstIn ph.ip6Unicast then 1 else 0
        ip6DstMulticast := before.ip6DstMulticast +
          if packetRx.dstIn ph.ip6Multicast then 1 else 0 } ∧
    next.icmp6RaPrefixes = accepted.getD ph.icmp6RaPrefixes ∧
    next.eventIcmp6Ra = ph.eventIcmp6Ra + if accepted.isSome then 1 else 0 := by
  rcases packetRx with ⟨_ | ip6, icmp6⟩
  · exact ⟨rfl, rfl, rfl, rfl, rfl⟩
  by_cases foreign : ip6.dst ∉ ph.ip6Unicast ∧ ip6.dst ∉ ph.ip6Multicast
  · simp only [phrxIp6, foreign, not_false_eq_true, and_self, ↓reduceIte, Option.isNone_some,
      Bool.false_eq_true, add_zero, PacketRx.foreign, Option.isSome_some, PacketRx.dstIn,
      decide_False, Bool.not_false, Bool.and_self, PacketRx.acceptedPrefixes, or_self, false_and,
      Option.getD_none, Option.isSome_none]
  have accepted : ip6.dst ∈ ph.ip6Unicast ∨ ip6.dst ∈ ph.ip6Multicast :=
    (not_and_or.mp foreign).imp not_not.mp not_not.mp
  simp only [phrxIp6]
  rw [if_neg foreign]
  by_cases next : ip6.next = ip6NextIcmp6
  on_goal 1 =>
    have notFrag : ip6.next ≠ ip6NextExtFrag := by rw [next]; decide
    rw [if_neg notFrag, if_pos next]
    obtain ⟨unicast, multicast, stats, prefixes, event⟩ := @phrxIcmp6_frame sockets now
      { ph with packetStatsRx := _ } ip6 icmp6
    rw [unicast, multicast, stats, prefixes, event]
  on_goal 2 => simp only [apply_ite Prod.fst, ite_self, if_neg next]
  -- either way, the counters and the prefixes follow from where the destination is
  all_goals
    by_cases inUnicast : ip6.dst ∈ ph.ip6Unicast <;>
      by_cases inMulticast : ip6.dst ∈ ph.ip6Multicast <;>
      simp only [inUnicast, inMulticast, or_self, or_false, or_true, ↓reduceIte, Option.isNone_some,
        Bool.false_eq_true, add_zero, PacketRx.foreign, Option.isSome_some, PacketRx.dstIn,
        decide_True, decide_False, Bool.not_true, Bool.not_false, Bool.and_false, Bool.and_true,
        Bool.and_self, PacketRx.acceptedPrefixes, next, and_self, and_false, Option.getD_none,
        Option.isSome_none] at accepted ⊢

end Frame

/-- The receive counters account for every packet: `ip6__pre_parse` is the sum of the four
counters a packet can end in. -/
def PacketStatsRx.Balanced (stats : PacketStatsRx) : Prop :=
  stats.ip6PreParse =
    stats.ip6FailedParseDrop + stats.ip6DstUnknownDrop + stats.ip6DstUnicast + stats.ip6DstMulticast

section Run

variable {sockets : SocketRegistry}

/-- Over any sequence of packets, `_phrx_ip6` counts every packet in `ip6__pre_parse`, and each
other counter grows by exactly the packets of its kind: those that failed to parse, those for
none of the stack's addresses, and those for one of its unicast, or multicast, addresses. -/
theorem ip6Run_packetStatsRx :
    ∀ (packets : List (Int × PacketRx)) (ph : PacketHandler),
      let final := (ip6Run sockets ph packets).packetStatsRx
      let before := ph.packetStatsRx
      final.ip6PreParse = before.ip6PreParse + packets.length ∧
      final.ip6FailedParseDrop =
        before.ip6FailedParseDrop + packets.countP (fun packet => packet.2.ip6.isNone) ∧
      final.ip6DstUnknownDrop = before.ip6DstUnknownDrop +
        packets.countP (fun packet => packet.2.foreign ph.ip6Unicast ph.ip6Multicast) ∧
      final.ip6DstUnicast =
        before.ip6DstUnicast + packets.countP (fun packet => packet.2.dstIn ph.ip6Unicast) ∧
      final.ip6DstMulticast =
        before.ip6DstMulticast + packets.countP (fun packet => packet.2.dstIn ph.ip6Multicast)
  | [], _ => ⟨rfl, rfl, rfl, rfl, rfl⟩
  | (now, packetRx) :: packets, ph => by
    obtain ⟨unicast, multicast, stats, -⟩ := @phrxIp6_frame sockets now ph packetRx
    obtain ⟨preParse, failed, unknown, toUnicast, toMulticast⟩ :=
      ip6Run_packetStatsRx packets (phrxIp6 now sockets ph packetRx).1
    simp only [unicast, multicast, stats] at preParse failed unknown toUnicast toMulticast
    simp only [ip6Run, List.length_cons, List.countP_cons]
    omega

/-- Over any sequence of packets, `icmp6_ra_prefixes` ends as the prefixes of the last Router
Advertisement `_phrx_ip6` accepted, each paired with its router: an advertisement replaces the
list, also when it carries no Prefix Information, and never adds to it. `event_icmp6_ra` is
released once per accepted advertisement. -/
theorem ip6Run_icmp6RaPrefixes :
    ∀ (packets : List (Int × PacketRx)) (ph : PacketHandler),
      let final := ip6Run sockets ph packets
      let accepted := packets.filterMap fun packet =>
        packet.2.acceptedPrefixes ph.ip6Unicast ph.ip6Multicast
      final.icmp6RaPrefixes = accepted.getLast?.getD ph.icmp6RaPrefixes ∧
      final.eventIcmp6Ra = ph.eventIcmp6Ra + accepted.length
  | [], _ => ⟨rfl, rfl⟩
  | (now, packetRx) :: packets, ph => by
    obtain ⟨unicast, multicast, -, prefixes, event⟩ := @phrxIp6_frame sockets now ph packetRx
    obtain ⟨lastPrefixes, released⟩ := ip6Run_icmp6RaPrefixes packets (phrxIp6 now sockets ph packetRx).1
    simp only [unicast, multicast, prefixes, event] at lastPrefixes released
    rcases accepted : packetRx.acceptedPrefixes ph.ip6Unicast ph.ip6Multicast with _ | recorded <;>
      simp only [accepted, Option.getD_none, Option.getD_some, Option.isSome_none, Option.isSome_some,
        Bool.false_eq_true, ↓reduceIte, Nat.add_zero] at lastPrefixes released <;>
      simp only [ip6Run, List.filterMap_cons, accepted, List.length_cons]
    · exact ⟨lastPrefixes, released⟩
    · refine ⟨?_, by omega⟩
      rw [lastPrefixes, List.getLast?_cons]
      cases (packets.filterMap _).getLast? <;> rfl

/-- With no address on both lists, a packet lands in exactly one of the four counters. -/
theorem kinds_add_eq_one {unicast multicast : List Ip6Address}
    (disjoint : ∀ a ∈ unicast, a ∉ multicast) (packetRx : PacketRx) :
    (if packetRx.ip6.isNone then 1 else 0) + (if packetRx.foreign unicast multicast then 1 else 0) +
      (if packetRx.dstIn unicast then 1 else 0) + (if packetRx.dstIn multicast then 1 else 0) = 1 := by
  rcases packetRx with ⟨_ | ip6, icmp6⟩
  · rfl
  by_cases inUnicast : ip6.dst ∈ unicast
  · simp [PacketRx.foreign, PacketRx.dstIn, inUnicast, disjoint _ inUnicast]
  · by_cases inMulticast : ip6.dst ∈ multicast <;>
      simp [PacketRx.foreign, PacketRx.dstIn, inUnicast, inMulticast]

theorem balanced_phrxIp6 (now : Int) {ph : PacketHandler} {packetRx : PacketRx}
    (disjoint : ∀ a ∈ ph.ip6Unicast, a ∉ ph.ip6Multicast) (balanced : ph.packetStatsRx.Balanced) :
    (phrxIp6 now sockets ph packetRx).1.packetStatsRx.Balanced := by
  obtain ⟨-, -, stats, -⟩ := @phrxIp6_frame sockets now ph packetRx
  have one := kinds_add_eq_one disjoint packetRx
  unfold PacketStatsRx.Balanced at balanced ⊢
  rw [stats]
  dsimp only
  omega

/-- While no address of the stack is both a unicast and a multicast one, `_phrx_ip6` puts every
packet in exactly one of its four other counters: counters that add up to `ip6__pre_parse` keep
adding up over any sequence of packets. -/
theorem ip6Run_balanced :
    ∀ (packets : List (Int × PacketRx)) (ph : PacketHandler),
      (∀ a ∈ ph.ip6Unicast, a ∉ ph.ip6Multicast) → ph.packetStatsRx.Balanced →
      (ip6Run sockets ph packets).packetStatsRx.Balanced
  | [], _, _, balanced => balanced
  | (now, packetRx) :: packets, ph, disjoint, balanced => by
    obtain ⟨unicast, multicast, -⟩ := @phrxIp6_frame sockets now ph packetRx
    refine ip6Run_balanced packets _ ?_ (balanced_phrxIp6 now disjoint balanced)
    rw [unicast, multicast]
    exact disjoint

end Run

/-- A stack with one unicast address and the all-nodes group, counters at zero. -/
theorem ip6Run_balanced_fresh_stack :
    let ph := { PacketHandler.init ⟨1, by decide⟩ with
      ip6Unicast := [⟨5, by decide⟩], ip6Multicast := [Ip6Address.allNodes] }
    (∀ a ∈ ph.ip6Unicast, a ∉ ph.ip6Multicast) ∧ ph.packetStatsRx.Balanced ∧
      ∀ packets, (ip6Run ⟨fun _ => [], fun _ => none⟩ ph packets).packetStatsRx.Balanced :=
  ⟨by decide, rfl, fun packets => ip6Run_balanced packets _ (by decide) rfl⟩

section Unreachable

/-- The Unreachable branch reads the datagram a message quotes at the offsets of an IPv6 header
and the UDP header after it: for a quoted IPv6 datagram carrying UDP, whatever its other header
bytes, UDP length, checksum and payload, it notifies the first socket the registry names for
the datagram's source and destination addresses and ports, and nothing else. -/
theorem phrxIcmp6Unreachable_quoted (sockets : SocketRegistry) {header : List UInt8}
    (headerLen : header.length = 8) (version : header.getD 0 0 >>> 4 = 6)
    (next : header.getD 6 0 = ip6NextHeaderUdp.toUInt8) (src dst : Ip6Address) {sport dport : Nat}
    (sportFits : sport < 2 ^ (8 * 2)) (dportFits : dport < 2 ^ (8 * 2)) {rest : List UInt8}
    (udpRest : 4 ≤ rest.length) :
    phrxIcmp6Unreachable sockets (header ++ bytesBE 16 src.toNat ++ bytesBE 16 dst.toNat ++
        bytesBE 2 sport ++ bytesBE 2 dport ++ rest) =
      ((sockets.socketPatterns ⟨src, dst, sport, dport⟩).findSome? sockets.get).toList.map
        .notifyUnreachable := by
  simp only [List.append_assoc]
  have address : ∀ a : Ip6Address, (bytesBE 16 a.toNat).length = 16 := fun _ => length_bytesBE _ _
  have port : ∀ value : Nat, (bytesBE 2 value).length = 2 := fun _ => length_bytesBE _ _
  have srcBytes : ((header ++ (bytesBE 16 src.toNat ++ (bytesBE 16 dst.toNat ++ (bytesBE 2 sport ++
      (bytesBE 2 dport ++ rest))))).drop 8).take 16 = bytesBE 16 src.toNat := by
    rw [List.drop_left' headerLen, List.take_left' (address src)]
  have dstBytes : ((header ++ (bytesBE 16 src.toNat ++ (bytesBE 16 dst.toNat ++ (bytesBE 2 sport ++
      (bytesBE 2 dport ++ rest))))).drop 24).take 16 = bytesBE 16 dst.toNat := by
    rw [show 24 = 8 + 16 from rfl, ← List.drop_drop, List.drop_left' headerLen,
      List.drop_left' (address src), List.take_left' (address dst)]
  have sportRead : bigEndian (((header ++ (bytesBE 16 src.toNat ++ (bytesBE 16 dst.toNat ++
      (bytesBE 2 sport ++ (bytesBE 2 dport ++ rest))))).drop ip6HeaderLen).take 2) = sport := by
    rw [ip6HeaderLen, show 40 = 8 + 16 + 16 from rfl, ← List.drop_drop, ← List.drop_drop,
      List.drop_left' headerLen, List.drop_left' (address src), List.drop_left' (address dst),
      List.take_left' (port sport), bigEndian_bytesBE_of_lt sportFits]
  have dportRead : bigEndian (((header ++ (bytesBE 16 src.toNat ++ (bytesBE 16 dst.toNat ++
      (bytesBE 2 sport ++ (bytesBE 2 dport ++ rest))))).drop (ip6HeaderLen + 2)).take 2) = dport := by
    rw [ip6HeaderLen, show 40 + 2 = 8 + 16 + 16 + 2 from rfl, ← List.drop_drop,
      ← List.drop_drop, ← List.drop_drop, List.drop_left' headerLen, List.drop_left' (address src),
      List.drop_left' (address dst), List.drop_left' (port sport), List.take_left' (port dport),
      bigEndian_bytesBE_of_lt dportFits]
  unfold phrxIcmp6Unreachable
  rw [dif_pos ⟨by simp only [List.length_append, address, port, headerLen, ip6HeaderLen,
      udpHeaderLen]; omega, by rwa [List.getD_append _ _ _ _ (by omega)],
    by rwa [List.getD_append _ _ _ _ (by omega)]⟩]
  simp only [srcBytes, dstBytes, sportRead, dportRead, Ip6Address.ofBytes16_bytesBE]
  cases (sockets.socketPatterns ⟨src, dst, sport, dport⟩).findSome? sockets.get <;> rfl

/-- A datagram from `::1` port 7 to `::2` port 9 quoted back, under a registry that names socket
3 for every pattern. -/
theorem phrxIcmp6Unreachable_quoted_datagram :
    let header : List UInt8 := [0x60, 0, 0, 0, 0, 12, 17, 64]
    let sockets : SocketRegistry := ⟨fun _ => ["any"], fun _ => some 3⟩
    header.length = 8 ∧ header.getD 0 0 >>> 4 = 6 ∧ header.getD 6 0 = ip6NextHeaderUdp.toUInt8 ∧
      4 ≤ [0, 12, 0, 0].length ∧
      phrxIcmp6Unreachable sockets (header ++ bytesBE 16 (⟨1, by decide⟩ : Ip6Address).toNat ++
        bytesBE 16 (⟨2, by decide⟩ : Ip6Address).toNat ++ bytesBE 2 7 ++ bytesBE 2 9 ++
        [0, 12, 0, 0]) = [.notifyUnreachable 3] := by
  intro header sockets
  exact ⟨rfl, by decide, by decide, by decide, @phrxIcmp6Unreachable_quoted sockets header rfl
    (by decide) (by decide) ⟨1, by decide⟩ ⟨2, by decide⟩ 7 9 (by decide) (by decide) _ (by decide)⟩

end Unreachable

end PyTcp
