import PyTcp.PacketHandler

namespace PyTcp

/-- The packet handler after `_phrx_icmp6` has processed packets, each with its IPv6 header, the
parser's result and the clock reading `add_entry` sees. -/
def icmp6Run (sockets : SocketRegistry) (ph : PacketHandler) :
    List (Int × Ip6Header × Option Icmp6Rx) → PacketHandler
  | [] => ph
  | (now, ip6, icmp6) :: packets => icmp6Run sockets (phrxIcmp6 now sockets ph ip6 icmp6).1 packets

/-- The TLLA (possibly none) an ICMPv6 message carries if it is an advertisement for `C`. -/
def dadAnswer (C : Ip6Address) : Option Icmp6Rx → Option (Option MacAddress)
  | some (.neighborAdvertisement target ndOptions) =>
    if target = C then some (Icmp6NdOpt.ndOptTlla ndOptions) else none
  | _ => none

/-- The TLLA of the last advertisement for `C` among the packets. -/
def lastDadAnswer (C : Ip6Address) (packets : List (Int × Ip6Header × Option Icmp6Rx)) :
    Option (Option MacAddress) :=
  packets.foldl (fun last packet => (dadAnswer C packet.2.2).orElse fun _ => last) none

section Dad

variable {sockets : SocketRegistry}

/-- One packet while `C` is the candidate: the candidate stays, and the DAD event and TLLA change
exactly when the packet is an advertisement for `C`. -/
theorem phrxIcmp6_dad (now : Int) (ph : PacketHandler) (ip6 : Ip6Header) (icmp6 : Option Icmp6Rx)
    {C : Ip6Address} (candidate : ph.ip6UnicastCandidate = some C) :
    let next := (phrxIcmp6 now sockets ph ip6 icmp6).1
    next.ip6UnicastCandidate = some C ∧
    next.eventIcmp6NdDad = ph.eventIcmp6NdDad + (if (dadAnswer C icmp6).isSome then 1 else 0) ∧
    next.icmp6NdDadTlla = (dadAnswer C icmp6).getD ph.icmp6NdDadTlla := by
  rcases icmp6 with _ | ⟨frame⟩ | ⟨ecId, ecSeq, ecData⟩ | ⟨options⟩ | ⟨options⟩ |
    ⟨target, options⟩ | ⟨target, options⟩ | ⟨type⟩
  all_goals simp only [phrxIcmp6, dadAnswer, candidate]
  all_goals try simp
  · split <;> simp [candidate]
  · by_cases same : target = C
    · subst same; simp
    · simp only [Option.some.injEq, same, if_false, Option.isSome_none, Option.getD_none]
      split <;> simp [candidate]

theorem icmp6Run_dad (C : Ip6Address) :
    ∀ (packets : List (Int × Ip6Header × Option Icmp6Rx)) (ph : PacketHandler)
      (last : Option (Option MacAddress)) (fallback : Option MacAddress),
      ph.ip6UnicastCandidate = some C → ph.icmp6NdDadTlla = last.getD fallback →
      let final := icmp6Run sockets ph packets
      final.ip6UnicastCandidate = some C ∧
      final.eventIcmp6NdDad = ph.eventIcmp6NdDad + packets.countP (fun p => (dadAnswer C p.2.2).isSome) ∧
      final.icmp6NdDadTlla = (packets.foldl (fun last packet =>
        (dadAnswer C packet.2.2).orElse fun _ => last) last).getD fallback
  | [], ph, last, fallback, candidate, recorded => ⟨candidate, rfl, recorded⟩
  | (now, ip6, icmp6) :: packets, ph, last, fallback, candidate, recorded => by
    obtain ⟨kept, released, answered⟩ := @phrxIcmp6_dad sockets now ph ip6 icmp6 C candidate
    obtain ⟨keptAll, releasedAll, answeredAll⟩ := icmp6Run_dad C packets _
      ((dadAnswer C icmp6).orElse fun _ => last) fallback kept
      (by rw [answered, recorded]; cases dadAnswer C icmp6 <;> rfl)
    refine ⟨keptAll, ?_, answeredAll⟩
    rw [icmp6Run, releasedAll, released, List.countP_cons]
    split <;> omega

/-- While `C` stays the DAD candidate, every advertisement for `C` that `_phrx_icmp6` processes
releases `event_icmp6_nd_dad` once more, and `icmp6_nd_dad_tlla` ends with the TLLA (or none) of
the last of them: a second owner's or a repeated answer releases the event again. -/
theorem dad_releases_per_advertisement (ph : PacketHandler) (C : Ip6Address)
    (candidate : ph.ip6UnicastCandidate = some C) (packets : List (Int × Ip6Header × Option Icmp6Rx)) :
    let final := icmp6Run sockets ph packets
    final.ip6UnicastCandidate = some C ∧
    final.eventIcmp6NdDad = ph.eventIcmp6NdDad + packets.countP (fun p => (dadAnswer C p.2.2).isSome) ∧
    final.icmp6NdDadTlla = (lastDadAnswer C packets).getD ph.icmp6NdDadTlla :=
  icmp6Run_dad C packets ph none _ candidate rfl

theorem dad_releases_per_advertisement_two_owners :
    let ph := { PacketHandler.init ⟨1, by decide⟩ with ip6UnicastCandidate := some ⟨1, by decide⟩ }
    let answer := fun mac : MacAddress => ((0 : Int), (⟨⟨2, by decide⟩, Ip6Address.allNodes, 255,
      ip6NextIcmp6⟩ : Ip6Header), some (Icmp6Rx.neighborAdvertisement ⟨1, by decide⟩ [.tlla mac]))
    let packets := [answer ⟨10, by decide⟩, answer ⟨20, by decide⟩]
    let final := icmp6Run ⟨fun _ => [], fun _ => none⟩ ph packets
    final.ip6UnicastCandidate = some ⟨1, by decide⟩ ∧
    final.eventIcmp6NdDad = ph.eventIcmp6NdDad +
      packets.countP (fun p => (dadAnswer ⟨1, by decide⟩ p.2.2).isSome) ∧
    final.icmp6NdDadTlla = (lastDadAnswer ⟨1, by decide⟩ packets).getD ph.icmp6NdDadTlla :=
  @dad_releases_per_advertisement ⟨fun _ => [], fun _ => none⟩
    { PacketHandler.init ⟨1, by decide⟩ with ip6UnicastCandidate := some ⟨1, by decide⟩ }
    ⟨1, by decide⟩ rfl _

/-- Two owners of the candidate `::1` answering one probe release the DAD event twice, and the
TLLA left is the second answer's, not that of the answer which released it first. -/
theorem dad_event_released_twice :
    let answer := fun mac : MacAddress => ((0 : Int), (⟨⟨2, by decide⟩, Ip6Address.allNodes, 255,
      ip6NextIcmp6⟩ : Ip6Header), some (Icmp6Rx.neighborAdvertisement ⟨1, by decide⟩ [.tlla mac]))
    let final := icmp6Run ⟨fun _ => [], fun _ => none⟩
      { PacketHandler.init ⟨1, by decide⟩ with ip6UnicastCandidate := some ⟨1, by decide⟩ }
      [answer ⟨10, by decide⟩, answer ⟨20, by decide⟩]
    final.eventIcmp6NdDad = 2 ∧ final.icmp6NdDadTlla = some ⟨20, by decide⟩ := by
  decide

end Dad

end PyTcp
