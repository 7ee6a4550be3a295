import PyTcp.PacketHandler

namespace PyTcp

section Link

variable {now : Int} {sockets : SocketRegistry}

/-- A DAD probe for an address `C` that `B` owns draws exactly one advertisement from `B` and
leaves `B`'s cache alone; `A`, probing `C`, takes that advertisement in its DAD branch and not
in its cache; and `A`'s own probe, looped back to it, does nothing. -/
theorem dad_probe_exchange (A B : PacketHandler) (C : Ip6Address)
    (owned : C ∈ B.ip6Unicast) (joined : C.solicitedNodeMulticast ∈ B.ip6Multicast)
    (probing : A.ip6UnicastCandidate = some C) (tentative : C ∉ A.ip6Unicast)
    (allNodes : Ip6Address.allNodes ∈ A.ip6Multicast) :
    let probe : Icmp6Tx :=
      ⟨Ip6Address.unspecified, C.solicitedNodeMulticast, 255, .neighborSolicitation C []⟩
    let answer : Icmp6Tx :=
      ⟨C, Ip6Address.allNodes, 255, .neighborAdvertisement false true C [.tlla B.macUnicast]⟩
    let atB := phrxIp6 now sockets B probe.deliver
    let atA := phrxIp6 now sockets A answer.deliver
    let looped := phrxIp6 now sockets A probe.deliver
    (atB.2 = [.icmp6 answer] ∧ atB.1.icmp6NdCache = B.icmp6NdCache) ∧
    (atA.2 = [] ∧ atA.1.icmp6NdDadTlla = some B.macUnicast ∧
      atA.1.eventIcmp6NdDad = A.eventIcmp6NdDad + 1 ∧ atA.1.icmp6NdCache = A.icmp6NdCache) ∧
    (looped.2 = [] ∧ looped.1.icmp6NdDadTlla = A.icmp6NdDadTlla ∧
      looped.1.eventIcmp6NdDad = A.eventIcmp6NdDad ∧ looped.1.icmp6NdCache = A.icmp6NdCache) := by
  intro probe answer atB atA looped
  refine ⟨?_, ?_, ?_⟩
  · obtain ⟨stats, atB_eq⟩ := @phrxIp6_of_accepted now sockets B
      ⟨Ip6Address.unspecified, C.solicitedNodeMulticast, 255, ip6NextIcmp6⟩
      (some (.neighborSolicitation C [])) (.inr joined) rfl
    simp [atB, Icmp6Tx.deliver, Icmp6Message.received, atB_eq, answer,
      phrxIcmp6_neighborSolicitation_sent { B with packetStatsRx := stats } _ C [] owned,
      phrxIcmp6_neighborSolicitation_dad { B with packetStatsRx := stats }
        ⟨Ip6Address.unspecified, C.solicitedNodeMulticast, 255, ip6NextIcmp6⟩ C [] rfl]
  · obtain ⟨stats, atA_eq⟩ := @phrxIp6_of_accepted now sockets A
      ⟨C, Ip6Address.allNodes, 255, ip6NextIcmp6⟩
      (some (.neighborAdvertisement C [.tlla B.macUnicast])) (.inr allNodes) rfl
    simp [atA, Icmp6Tx.deliver, Icmp6Message.received, atA_eq,
      phrxIcmp6_neighborAdvertisement_dad { A with packetStatsRx := stats } _ C _ probing]
  · by_cases heard : C.solicitedNodeMulticast ∈ A.ip6Unicast ∨ C.solicitedNodeMulticast ∈ A.ip6Multicast
    · obtain ⟨stats, looped_eq⟩ := @phrxIp6_of_accepted now sockets A
        ⟨Ip6Address.unspecified, C.solicitedNodeMulticast, 255, ip6NextIcmp6⟩
        (some (.neighborSolicitation C [])) heard rfl
      simp [looped, Icmp6Tx.deliver, Icmp6Message.received, looped_eq,
        phrxIcmp6_neighborSolicitation_foreign { A with packetStatsRx := stats } _ C [] tentative]
    · obtain ⟨stats, looped_eq⟩ := @phrxIp6_of_not_accepted now sockets A probe.deliver
        ⟨Ip6Address.unspecified, C.solicitedNodeMulticast, 255, ip6NextIcmp6⟩ rfl (not_or.mp heard)
      simp [looped, looped_eq]

theorem dad_probe_exchange_fresh_stacks :
    let C : Ip6Address := ⟨5, by decide⟩
    let A := { PacketHandler.init ⟨1, by decide⟩ with
      ip6Multicast := [Ip6Address.allNodes], ip6UnicastCandidate := some C }
    let B := { PacketHandler.init ⟨2, by decide⟩ with
      ip6Unicast := [C], ip6Multicast := [C.solicitedNodeMulticast] }
    let probe : Icmp6Tx :=
      ⟨Ip6Address.unspecified, C.solicitedNodeMulticast, 255, .neighborSolicitation C []⟩
    let answer : Icmp6Tx :=
      ⟨C, Ip6Address.allNodes, 255, .neighborAdvertisement false true C [.tlla B.macUnicast]⟩
    let atB := phrxIp6 0 ⟨fun _ => [], fun _ => none⟩ B probe.deliver
    let atA := phrxIp6 0 ⟨fun _ => [], fun _ => none⟩ A answer.deliver
    let looped := phrxIp6 0 ⟨fun _ => [], fun _ => none⟩ A probe.deliver
    (atB.2 = [.icmp6 answer] ∧ atB.1.icmp6NdCache = B.icmp6NdCache) ∧
    (atA.2 = [] ∧ atA.1.icmp6NdDadTlla = some B.macUnicast ∧
      atA.1.eventIcmp6NdDad = A.eventIcmp6NdDad + 1 ∧ atA.1.icmp6NdCache = A.icmp6NdCache) ∧
    (looped.2 = [] ∧ looped.1.icmp6NdDadTlla = A.icmp6NdDadTlla ∧
      looped.1.eventIcmp6NdDad = A.eventIcmp6NdDad ∧ looped.1.icmp6NdCache = A.icmp6NdCache) :=
  @dad_probe_exchange 0 ⟨fun _ => [], fun _ => none⟩
    { PacketHandler.init ⟨1, by decide⟩ with
      ip6Multicast := [Ip6Address.allNodes], ip6UnicastCandidate := some ⟨5, by decide⟩ }
    { PacketHandler.init ⟨2, by decide⟩ with
      ip6Unicast := [⟨5, by decide⟩], ip6Multicast := [Ip6Address.solicitedNodeMulticast ⟨5, by decide⟩] }
    ⟨5, by decide⟩ (by decide) (by decide) rfl (by decide) (by decide)

/-- When `A`'s lookup of an address `T` that `B` owns misses, the solicitation it sends passes
`B`'s destination check and draws exactly one advertisement for `T` with `B`'s MAC. `B` learns
`A`'s binding when the solicitation's source is not `::`, and its cache is untouched when it
is. The advertisement passes `A`'s destination check and teaches `A`'s cache `T`, so `A`'s next
lookup of `T` returns `B`'s MAC with no solicitation. -/
theorem solicitation_exchange (now1 now2 : Int) (sockets : SocketRegistry) (A B : PacketHandler)
    (T : Ip6Address) (owned : T ∈ B.ip6Unicast)
    (joined : ∀ u ∈ B.ip6Unicast, u.solicitedNodeMulticast ∈ B.ip6Multicast)
    (hosts : ∀ host ∈ A.ip6Host, host.address ∈ A.ip6Unicast ∧
      host.address.isUnspecified = false ∧ host.address.isMulticast = false)
    (allNodes : Ip6Address.allNodes ∈ A.ip6Multicast) (notCandidate : A.ip6UnicastCandidate ≠ some T)
    (missing : A.icmp6NdCache.ndCache.get T = none) :
    let miss := findEntry A.ip6Host A.macUnicast A.icmp6NdCache T
    ∃ ns na : Icmp6Tx, miss.found = none ∧ miss.sent = [ns] ∧
      (ns.ip6Dst ∈ B.ip6Unicast ∨ ns.ip6Dst ∈ B.ip6Multicast) ∧
      (phrxIp6 now1 sockets B ns.deliver).2 = [.icmp6 na] ∧
      (∃ flagS flagO, na.message = .neighborAdvertisement flagS flagO T [.tlla B.macUnicast]) ∧
      (ns.ip6Src ≠ Ip6Address.unspecified → (phrxIp6 now1 sockets B ns.deliver).1.icmp6NdCache =
        addEntry B.icmp6NdCache ns.ip6Src A.macUnicast now1) ∧
      (ns.ip6Src = Ip6Address.unspecified →
        (phrxIp6 now1 sockets B ns.deliver).1.icmp6NdCache = B.icmp6NdCache) ∧
      (na.ip6Dst ∈ A.ip6Unicast ∨ na.ip6Dst ∈ A.ip6Multicast) ∧
      let atA := (phrxIp6 now2 sockets { A with icmp6NdCache := miss.cache } na.deliver).1
      atA.icmp6NdCache = addEntry A.icmp6NdCache T B.macUnicast now2 ∧
      (findEntry atA.ip6Host atA.macUnicast atA.icmp6NdCache T).found = some B.macUnicast ∧
      (findEntry atA.ip6Host atA.macUnicast atA.icmp6NdCache T).sent = [] := by
  intro miss
  have missEq : miss = ⟨A.icmp6NdCache, none,
      [sendIcmp6NeighborSolicitation A.ip6Host A.macUnicast T]⟩ := findEntry_of_get_none missing
  obtain ⟨src, atSrc⟩ : ∃ src, solicitationSource A.ip6Host T = src := ⟨_, rfl⟩
  have nsDeliver : (sendIcmp6NeighborSolicitation A.ip6Host A.macUnicast T).deliver =
      ⟨some ⟨src, T.solicitedNodeMulticast, 255, ip6NextIcmp6⟩,
        some (.neighborSolicitation T [.slla A.macUnicast])⟩ := by
    rw [← atSrc]; rfl
  have srcCases : src = Ip6Address.unspecified ∨
      src ∈ A.ip6Unicast ∧ src.isUnspecified = false ∧ src.isMulticast = false := by
    rcases solicitationSource_cases A.ip6Host T with probe | ⟨host, member, atHost⟩
    · exact .inl (atSrc ▸ probe)
    · exact .inr (atSrc ▸ atHost ▸ hosts host member)
  obtain ⟨sentB, cacheB⟩ := @phrxIp6_solicitation now1 sockets B src T.solicitedNodeMulticast T
    A.macUnicast (.inr (joined T owned)) owned
  let na : Icmp6Tx := ⟨T, if src.isUnspecified then Ip6Address.allNodes else src, 255,
    .neighborAdvertisement (!src.isUnspecified) src.isUnspecified T [.tlla B.macUnicast]⟩
  have naHeard : na.ip6Dst ∈ A.ip6Unicast ∨ na.ip6Dst ∈ A.ip6Multicast := by
    rcases srcCases with probe | ⟨inUnicast, specified, -⟩
    · simp [na, probe, allNodes]
    · simp [na, specified, inUnicast]
  have missCache : miss.cache = A.icmp6NdCache := by rw [missEq]
  obtain ⟨-, cacheA⟩ := @phrxIp6_advertisement now2 sockets { A with icmp6NdCache := miss.cache }
    T na.ip6Dst T B.macUnicast naHeard notCandidate
  rw [missCache] at cacheA
  refine ⟨sendIcmp6NeighborSolicitation A.ip6Host A.macUnicast T, na, by rw [missEq],
    by rw [missEq], .inr (joined T owned), by rw [nsDeliver]; exact sentB, ⟨_, _, rfl⟩,
    fun specified => ?_, fun probe => ?_, naHeard, ?_⟩
  · obtain ⟨-, unspecifiedFalse, multicastFalse⟩ := srcCases.resolve_left (atSrc ▸ specified)
    have srcEq : (sendIcmp6NeighborSolicitation A.ip6Host A.macUnicast T).ip6Src = src := atSrc
    rw [srcEq, nsDeliver, cacheB]
    simp [unspecifiedFalse, multicastFalse]
  · have probe : src = Ip6Address.unspecified := atSrc ▸ probe
    subst probe
    rw [nsDeliver, cacheB]
    simp
  · have naDeliver : na.deliver = ⟨some ⟨T, na.ip6Dst, 255, ip6NextIcmp6⟩,
        some (.neighborAdvertisement T [.tlla B.macUnicast])⟩ := rfl
    dsimp only
    rw [missCache, naDeliver]
    refine ⟨cacheA, findEntry_of_present ⟨CacheEntry.new B.macUnicast now2, ?_, rfl⟩⟩
    rw [cacheA, get_addEntry, if_pos rfl]

theorem solicitation_exchange_same_network :
    let T : Ip6Address := ⟨5, by decide⟩
    let A := { PacketHandler.init ⟨1, by decide⟩ with
      ip6Host := [⟨⟨4, by decide⟩, ⟨⟨0, by decide⟩, ⟨0, by decide, ⟨0, by decide, by decide⟩⟩, by decide⟩, none⟩]
      ip6Unicast := [⟨4, by decide⟩], ip6Multicast := [Ip6Address.allNodes] }
    let B := { PacketHandler.init ⟨2, by decide⟩ with
      ip6Unicast := [T], ip6Multicast := [T.solicitedNodeMulticast] }
    let sockets : SocketRegistry := ⟨fun _ => [], fun _ => none⟩
    let miss := findEntry A.ip6Host A.macUnicast A.icmp6NdCache T
    ∃ ns na : Icmp6Tx, miss.found = none ∧ miss.sent = [ns] ∧
      (ns.ip6Dst ∈ B.ip6Unicast ∨ ns.ip6Dst ∈ B.ip6Multicast) ∧
      (phrxIp6 0 sockets B ns.deliver).2 = [.icmp6 na] ∧
      (∃ flagS flagO, na.message = .neighborAdvertisement flagS flagO T [.tlla B.macUnicast]) ∧
      (ns.ip6Src ≠ Ip6Address.unspecified → (phrxIp6 0 sockets B ns.deliver).1.icmp6NdCache =
        addEntry B.icmp6NdCache ns.ip6Src A.macUnicast 0) ∧
      (ns.ip6Src = Ip6Address.unspecified →
        (phrxIp6 0 sockets B ns.deliver).1.icmp6NdCache = B.icmp6NdCache) ∧
      (na.ip6Dst ∈ A.ip6Unicast ∨ na.ip6Dst ∈ A.ip6Multicast) ∧
      let atA := (phrxIp6 1 sockets { A with icmp6NdCache := miss.cache } na.deliver).1
      atA.icmp6NdCache = addEntry A.icmp6NdCache T B.macUnicast 1 ∧
      (findEntry atA.ip6Host atA.macUnicast atA.icmp6NdCache T).found = some B.macUnicast ∧
      (findEntry atA.ip6Host atA.macUnicast atA.icmp6NdCache T).sent = [] :=
  solicitation_exchange 0 1 ⟨fun _ => [], fun _ => none⟩
    { PacketHandler.init ⟨1, by decide⟩ with
      ip6Host := [⟨⟨4, by decide⟩, ⟨⟨0, by decide⟩, ⟨0, by decide, ⟨0, by decide, by decide⟩⟩, by decide⟩, none⟩]
      ip6Unicast := [⟨4, by decide⟩], ip6Multicast := [Ip6Address.allNodes] }
    { PacketHandler.init ⟨2, by decide⟩ with
      ip6Unicast := [⟨5, by decide⟩], ip6Multicast := [Ip6Address.solicitedNodeMulticast ⟨5, by decide⟩] }
    ⟨5, by decide⟩ (by decide) (by decide) (by decide) (by decide) (by decide) rfl

end Link

end PyTcp
