import PyTcp.PacketHandler

namespace PyTcp

/-- Where a message the stack sends comes from: hop limit 255; a solicitation from one of the
stack's unicast addresses or `::`; an advertisement from one of its unicast addresses; an echo
reply from one of its unicast or multicast addresses. -/
def SentFrom (ph : PacketHandler) (tx : Icmp6Tx) : Prop :=
  tx.ip6Hop = 255 ∧
    match tx.message with
    | .neighborSolicitation .. => tx.ip6Src ∈ ph.ip6Unicast ∨ tx.ip6Src = Ip6Address.unspecified
    | .neighborAdvertisement .. => tx.ip6Src ∈ ph.ip6Unicast
    | .echoReply .. => tx.ip6Src ∈ ph.ip6Unicast ∨ tx.ip6Src ∈ ph.ip6Multicast

/-- Whether a message is a Neighbor Solicitation or Advertisement. -/
def Icmp6Tx.isNd (tx : Icmp6Tx) : Bool :=
  match tx.message with
  | .echoReply .. => false
  | _ => true

section Sources

variable {now : Int} {sockets : SocketRegistry}

theorem notify_of_mem_phrxIcmp6Unreachable {frame : List UInt8} {action : Action}
    (member : action ∈ phrxIcmp6Unreachable sockets frame) :
    ∃ socket, action = .notifyUnreachable socket := by
  unfold phrxIcmp6Unreachable at member
  split at member
  · dsimp only at member
    split at member
    · exact ⟨_, List.mem_singleton.mp member⟩
    · simp at member
  · simp at member

/-- What `_phrx_ip6` sends, `_phrx_icmp6` sent for a packet that passed the destination check. -/
theorem phrxIp6_icmp6_sent {ph : PacketHandler} {packetRx : PacketRx} {tx : Icmp6Tx}
    (sent : Action.icmp6 tx ∈ (phrxIp6 now sockets ph packetRx).2) :
    ∃ ip6 stats, packetRx.ip6 = some ip6 ∧ (ip6.dst ∈ ph.ip6Unicast ∨ ip6.dst ∈ ph.ip6Multicast) ∧
      Action.icmp6 tx ∈ (phrxIcmp6 now sockets { ph with packetStatsRx := stats } ip6 packetRx.icmp6).2 := by
  rcases packetRx with ⟨_ | ip6, icmp6⟩
  · simp [phrxIp6] at sent
  · by_cases foreign : ip6.dst ∉ ph.ip6Unicast ∧ ip6.dst ∉ ph.ip6Multicast
    · obtain ⟨stats, dropped⟩ := @phrxIp6_of_not_accepted now sockets ph ⟨some ip6, icmp6⟩ ip6 rfl foreign
      simp [dropped] at sent
    · have accepted : ip6.dst ∈ ph.ip6Unicast ∨ ip6.dst ∈ ph.ip6Multicast := by tauto
      by_cases next : ip6.next = ip6NextIcmp6
      · obtain ⟨stats, handled⟩ := @phrxIp6_of_accepted now sockets ph ip6 icmp6 accepted next
        rw [handled] at sent
        exact ⟨ip6, stats, rfl, accepted, sent⟩
      · have handOff : ∀ action ∈ (phrxIp6 now sockets ph ⟨some ip6, icmp6⟩).2,
            action = .handOff ip6.next := by
          simp only [phrxIp6, if_neg foreign, if_neg next]
          by_cases frag : ip6.next = ip6NextExtFrag
          · simp [frag]
          · by_cases transport : ip6.next = ip6NextUdp ∨ ip6.next = ip6NextTcp <;> simp [frag, transport]
        cases handOff _ sent

/-- Every message `_phrx_icmp6` sends for a packet that passed the destination check. -/
theorem sentFrom_phrxIcmp6 (ph : PacketHandler) (ip6 : Ip6Header) (icmp6 : Option Icmp6Rx)
    (accepted : ip6.dst ∈ ph.ip6Unicast ∨ ip6.dst ∈ ph.ip6Multicast) {tx : Icmp6Tx}
    (sent : Action.icmp6 tx ∈ (phrxIcmp6 now sockets ph ip6 icmp6).2) : SentFrom ph tx := by
  rcases icmp6 with _ | ⟨frame⟩ | ⟨ecId, ecSeq, ecData⟩ | ⟨options⟩ | ⟨options⟩ |
    ⟨target, options⟩ | ⟨target, options⟩ | ⟨type⟩
  · simp [phrxIcmp6] at sent
  · obtain ⟨socket, notify⟩ := notify_of_mem_phrxIcmp6Unreachable sent
    cases notify
  · simp only [phrxIcmp6, List.mem_singleton, Action.icmp6.injEq] at sent
    subst sent
    exact ⟨rfl, accepted⟩
  · simp [phrxIcmp6] at sent
  · simp [phrxIcmp6] at sent
  · by_cases owned : target ∈ ph.ip6Unicast
    · rw [phrxIcmp6_neighborSolicitation_sent ph ip6 target options owned] at sent
      simp only [List.mem_singleton, Action.icmp6.injEq] at sent
      subst sent
      exact ⟨rfl, owned⟩
    · simp [phrxIcmp6_neighborSolicitation_foreign ph ip6 target options owned] at sent
  · simp only [phrxIcmp6] at sent
    split_ifs at sent
    · simp at sent
    · split at sent <;> simp at sent
  · simp [phrxIcmp6] at sent

/-- Every message `_phrx_ip6` sends, for any inbound packet. -/
theorem sentFrom_phrxIp6 (ph : PacketHandler) (packetRx : PacketRx) {tx : Icmp6Tx}
    (sent : Action.icmp6 tx ∈ (phrxIp6 now sockets ph packetRx).2) : SentFrom ph tx := by
  obtain ⟨ip6, stats, -, accepted, handled⟩ := phrxIp6_icmp6_sent sent
  exact sentFrom_phrxIcmp6 { ph with packetStatsRx := stats } ip6 packetRx.icmp6 accepted handled

/-- A solicitation the cache sends comes from `::` or from a host address. -/
theorem sentFrom_sendIcmp6NeighborSolicitation (ph : PacketHandler)
    (hosts : ∀ host ∈ ph.ip6Host, host.address ∈ ph.ip6Unicast) (target : Ip6Address) :
    SentFrom ph (sendIcmp6NeighborSolicitation ph.ip6Host ph.macUnicast target) := by
  refine ⟨rfl, ?_⟩
  show solicitationSource ph.ip6Host target ∈ ph.ip6Unicast ∨ _
  rcases solicitationSource_cases ph.ip6Host target with probe | ⟨host, member, atHost⟩
  · exact .inr probe
  · exact .inl (atHost ▸ hosts host member)

/-- The solicitation a missed lookup sends. -/
theorem sentFrom_findEntry (ph : PacketHandler)
    (hosts : ∀ host ∈ ph.ip6Host, host.address ∈ ph.ip6Unicast) (cache : NdCache) (k : Ip6Address)
    {tx : Icmp6Tx} (sent : tx ∈ (findEntry ph.ip6Host ph.macUnicast cache k).sent) : SentFrom ph tx := by
  unfold findEntry at sent
  split at sent
  · simp at sent
  · rw [List.mem_singleton.mp sent]
    exact sentFrom_sendIcmp6NeighborSolicitation ph hosts k

/-- The refresh solicitations of a sweep. -/
theorem sentFrom_maintainCache (ph : PacketHandler)
    (hosts : ∀ host ∈ ph.ip6Host, host.address ∈ ph.ip6Unicast) (cfg : Config) (cache : NdCache)
    {tx : Icmp6Tx} (sent : tx ∈ (maintainCache cfg ph.ip6Host ph.macUnicast now cache).2) :
    SentFrom ph tx := by
  rw [sent_maintainCache] at sent
  obtain ⟨k, -, rfl⟩ := List.mem_map.mp sent
  exact sentFrom_sendIcmp6NeighborSolicitation ph hosts k

/-- With no multicast address among the stack's unicast ones, a solicitation or advertisement
meeting the rule never has a multicast source. -/
theorem isMulticast_of_sentFrom {ph : PacketHandler}
    (unicastOnly : ∀ a ∈ ph.ip6Unicast, a.isMulticast = false) {tx : Icmp6Tx}
    (sentFrom : SentFrom ph tx) (nd : tx.isNd = true) : tx.ip6Src.isMulticast = false := by
  obtain ⟨-, source⟩ := sentFrom
  rcases message : tx.message with _ | _ | _ <;> rw [message] at source
  · simp [Icmp6Tx.isNd, message] at nd
  · rcases source with own | probe
    · exact unicastOnly _ own
    · rw [probe]; rfl
  · exact unicastOnly _ source

/-- Every ICMPv6 message the stack sends, on any of its three paths (the replies of
`_phrx_ip6`, the solicitation of a missed `find_entry`, the refreshes of `_maintain_cache`),
has hop limit 255 and a source among its unicast addresses, or `::` for a solicitation; the
one exception is an Echo Reply, whose source is the group an Echo Request was sent to. No
solicitation or advertisement has a multicast source. -/
theorem sent_from_own_addresses (cfg : Config) (ph : PacketHandler)
    (hosts : ∀ host ∈ ph.ip6Host, host.address ∈ ph.ip6Unicast)
    (unicastOnly : ∀ a ∈ ph.ip6Unicast, a.isMulticast = false) :
    (∀ packetRx tx, Action.icmp6 tx ∈ (phrxIp6 now sockets ph packetRx).2 → SentFrom ph tx) ∧
    (∀ cache k tx, tx ∈ (findEntry ph.ip6Host ph.macUnicast cache k).sent → SentFrom ph tx) ∧
    (∀ cache tx, tx ∈ (maintainCache cfg ph.ip6Host ph.macUnicast now cache).2 → SentFrom ph tx) ∧
    (∀ tx, SentFrom ph tx → tx.isNd = true → tx.ip6Src.isMulticast = false) :=
  ⟨fun packetRx _ sent => sentFrom_phrxIp6 ph packetRx sent,
    fun cache k _ sent => sentFrom_findEntry ph hosts cache k sent,
    fun cache _ sent => sentFrom_maintainCache ph hosts cfg cache sent,
    fun _ sentFrom nd => isMulticast_of_sentFrom unicastOnly sentFrom nd⟩

/-- A stack with the unicast address `::1` on the network `::/0`, so that every solicitation it
sends is from `::1`. -/
theorem sent_from_own_addresses_loopback :
    let host : Ip6Host :=
      ⟨⟨1, by decide⟩, ⟨Ip6Address.unspecified, ⟨0, by decide, ⟨0, by decide, by decide⟩⟩, by decide⟩,
        none⟩
    let ph := { PacketHandler.init ⟨1, by decide⟩ with
      ip6Host := [host], ip6Unicast := [⟨1, by decide⟩], ip6Multicast := [Ip6Address.allNodes] }
    (∀ host ∈ ph.ip6Host, host.address ∈ ph.ip6Unicast) ∧
    (∀ a ∈ ph.ip6Unicast, a.isMulticast = false) ∧
    ((∀ packetRx tx, Action.icmp6 tx ∈ (phrxIp6 0 ⟨fun _ => [], fun _ => none⟩ ph packetRx).2 →
        SentFrom ph tx) ∧
      (∀ cache k tx, tx ∈ (findEntry ph.ip6Host ph.macUnicast cache k).sent → SentFrom ph tx) ∧
      (∀ cache tx, tx ∈ (maintainCache ⟨60, 5⟩ ph.ip6Host ph.macUnicast 0 cache).2 →
        SentFrom ph tx) ∧
      (∀ tx, SentFrom ph tx → tx.isNd = true → tx.ip6Src.isMulticast = false)) := by
  intro host ph
  have hosts : ∀ host ∈ ph.ip6Host, host.address ∈ ph.ip6Unicast := by decide
  have unicastOnly : ∀ a ∈ ph.ip6Unicast, a.isMulticast = false := by decide
  exact ⟨hosts, unicastOnly,
    @sent_from_own_addresses 0 ⟨fun _ => [], fun _ => none⟩ ⟨60, 5⟩ ph hosts unicastOnly⟩

/-- An Echo Request sent to the all-nodes group, which the stack has joined, is answered from
that group: the reply's source is multicast. -/
theorem echo_reply_from_multicast :
    let ph := { PacketHandler.init ⟨1, by decide⟩ with
      ip6Unicast := [⟨1, by decide⟩], ip6Multicast := [Ip6Address.allNodes] }
    let request : PacketRx :=
      ⟨some ⟨⟨2, by decide⟩, Ip6Address.allNodes, 64, ip6NextIcmp6⟩, some (.echoRequest 7 1 [])⟩
    (phrxIp6 0 ⟨fun _ => [], fun _ => none⟩ ph request).2 =
        [.icmp6 ⟨Ip6Address.allNodes, ⟨2, by decide⟩, 255, .echoReply 7 1 []⟩] ∧
      Ip6Address.allNodes.isMulticast = true ∧ Ip6Address.allNodes ∉ ph.ip6Unicast := by
  decide

end Sources

end PyTcp
