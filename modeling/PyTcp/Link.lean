import PyTcp.CacheKeys
import PyTcp.Emission

namespace PyTcp

/-- Modelled from the spec: stacks sharing one link. Each stack's packet handler, and every
ICMPv6 message a stack has handed to `_phtx_icmp6` so far; the link may deliver any of them to
any stack, any number of times and in any order, or never. -/
structure Link (n : Nat) where
  handlers : Fin n → PacketHandler
  sent : List Icmp6Tx

/-- What can happen next on the link: a stack looks an address up, a stack sweeps its cache, or
the link delivers a message to a stack whose clock reads `now`. -/
inductive LinkEvent (n : Nat)
  | findEntry (i : Fin n) (ip6Address : Ip6Address)
  | maintainCache (i : Fin n) (now : Int)
  | deliver (i : Fin n) (now : Int) (tx : Icmp6Tx)

/-- The message an action hands to `_phtx_icmp6`, if it is one. -/
def Action.icmp6Tx? : Action → Option Icmp6Tx
  | .icmp6 tx => some tx
  | _ => none

section Steps

variable (cfg : Config) (sockets : SocketRegistry) {n : Nat}

def linkStep (link : Link n) : LinkEvent n → Link n
  | .findEntry i k =>
    let ph := link.handlers i
    let out := findEntry ph.ip6Host ph.macUnicast ph.icmp6NdCache k
    ⟨Function.update link.handlers i { ph with icmp6NdCache := out.cache }, link.sent ++ out.sent⟩
  | .maintainCache i now =>
    let ph := link.handlers i
    let out := maintainCache cfg ph.ip6Host ph.macUnicast now ph.icmp6NdCache
    ⟨Function.update link.handlers i { ph with icmp6NdCache := out.1 }, link.sent ++ out.2⟩
  | .deliver i now tx =>
    if tx ∈ link.sent then
      let out := phrxIp6 now sockets (link.handlers i) tx.deliver
      ⟨Function.update link.handlers i out.1, link.sent ++ out.2.filterMap Action.icmp6Tx?⟩
    else link

def linkRun (link : Link n) : List (LinkEvent n) → Link n
  | [] => link
  | event :: events => linkRun (linkStep cfg sockets link event) events

end Steps

/-- Whether some stack on the link has the MAC address `mac` and the unicast address `k`. -/
def Owns {n : Nat} (handlers : Fin n → PacketHandler) (k : Ip6Address) (mac : MacAddress) : Prop :=
  ∃ j, (handlers j).macUnicast = mac ∧ k ∈ (handlers j).ip6Unicast

/-- A message binds addresses only to their owners' MAC addresses: the SLLA of a solicitation
from a source other than `::` is the MAC of a stack owning the source, and the TLLA of an
advertisement is the MAC of a stack owning the target. -/
def Vouched {n : Nat} (handlers : Fin n → PacketHandler) (tx : Icmp6Tx) : Prop :=
  match tx.message with
  | .neighborSolicitation _ options => ∀ mac, Icmp6NdOpt.ndOptSlla options = some mac →
      tx.ip6Src.isUnspecified = false → Owns handlers tx.ip6Src mac
  | .neighborAdvertisement _ _ target options => ∀ mac, Icmp6NdOpt.ndOptTlla options = some mac →
      Owns handlers target mac
  | .echoReply .. => True

/-- A cache binds addresses only to their owners' MAC addresses. -/
def CacheOwned {n : Nat} (handlers : Fin n → PacketHandler) (cache : NdCache) : Prop :=
  ∀ k entry, cache.ndCache.get k = some entry → Owns handlers k entry.macAddress

/-- The invariant of the link: each stack's hosts have its own unicast addresses, every message
on the link binds addresses only to their owners' MAC addresses, and so does every cache. -/
structure Honest {n : Nat} (link : Link n) : Prop where
  hosts : ∀ i, ∀ host ∈ (link.handlers i).ip6Host, host.address ∈ (link.handlers i).ip6Unicast
  vouched : ∀ tx ∈ link.sent, Vouched link.handlers tx
  cached : ∀ i, CacheOwned link.handlers (link.handlers i).icmp6NdCache

/-- The fields that say who a stack is: its MAC address, unicast addresses and hosts. -/
def SameIdentity (ph' ph : PacketHandler) : Prop :=
  ph'.macUnicast = ph.macUnicast ∧ ph'.ip6Unicast = ph.ip6Unicast ∧ ph'.ip6Host = ph.ip6Host

section Identity

variable {cfg : Config} {sockets : SocketRegistry} {n : Nat}

theorem sameIdentity_phrxIcmp6 (now : Int) (ph : PacketHandler) (ip6 : Ip6Header)
    (icmp6 : Option Icmp6Rx) : SameIdentity (phrxIcmp6 now sockets ph ip6 icmp6).1 ph := by
  unfold phrxIcmp6
  split <;> (try split_ifs) <;> (try split) <;> exact ⟨rfl, rfl, rfl⟩

/-- `_phrx_ip6` only counts the packet, or counts it and does to the stack what `_phrx_icmp6`
does with it. -/
theorem phrxIp6_cases (ph : PacketHandler) (packetRx : PacketRx) :
    (∃ stats, (phrxIp6 now sockets ph packetRx).1 = { ph with packetStatsRx := stats }) ∨
    ∃ ip6 stats, packetRx.ip6 = some ip6 ∧ (phrxIp6 now sockets ph packetRx).1 =
      (phrxIcmp6 now sockets { ph with packetStatsRx := stats } ip6 packetRx.icmp6).1 := by
  rcases packetRx with ⟨_ | ip6, icmp6⟩
  · exact .inl ⟨_, rfl⟩
  · by_cases foreign : ip6.dst ∉ ph.ip6Unicast ∧ ip6.dst ∉ ph.ip6Multicast
    · obtain ⟨stats, dropped⟩ :=
        @phrxIp6_of_not_accepted now sockets ph ⟨some ip6, icmp6⟩ ip6 rfl foreign
      exact .inl ⟨stats, by rw [dropped]⟩
    · by_cases next : ip6.next = ip6NextIcmp6
      · have accepted : ip6.dst ∈ ph.ip6Unicast ∨ ip6.dst ∈ ph.ip6Multicast :=
          by_contra fun heard => foreign (not_or.mp heard)
        obtain ⟨stats, handled⟩ := @phrxIp6_of_accepted now sockets ph ip6 icmp6 accepted next
        exact .inr ⟨ip6, stats, rfl, by rw [handled]⟩
      · left
        dsimp only [phrxIp6]
        rw [if_neg foreign, if_neg next]
        simp only [apply_ite Prod.fst, ite_self]
        exact ⟨_, rfl⟩

theorem sameIdentity_phrxIp6 (now : Int) (ph : PacketHandler) (packetRx : PacketRx) :
    SameIdentity (phrxIp6 now sockets ph packetRx).1 ph := by
  rcases phrxIp6_cases ph packetRx with ⟨stats, counted⟩ | ⟨ip6, stats, -, handled⟩
  · rw [counted]
    exact ⟨rfl, rfl, rfl⟩
  · rw [handled]
    exact sameIdentity_phrxIcmp6 now _ ip6 _

/-- No event changes who a stack is. -/
theorem sameIdentity_linkStep (link : Link n) (event : LinkEvent n) (j : Fin n) :
    SameIdentity ((linkStep cfg sockets link event).handlers j) (link.handlers j) := by
  cases event with
  | findEntry i k | maintainCache i now =>
    by_cases same : j = i
    · subst same
      simp only [linkStep, Function.update_same]
      exact ⟨rfl, rfl, rfl⟩
    · simp only [linkStep, Function.update_noteq same]
      exact ⟨rfl, rfl, rfl⟩
  | deliver i now tx =>
    simp only [linkStep]
    split_ifs
    · by_cases same : j = i
      · subst same
        simp only [Function.update_same]
        exact sameIdentity_phrxIp6 now _ _
      · simp only [Function.update_noteq same]
        exact ⟨rfl, rfl, rfl⟩
    · exact ⟨rfl, rfl, rfl⟩

theorem owns_linkStep_iff (link : Link n) (event : LinkEvent n) (k : Ip6Address) (mac : MacAddress) :
    Owns (linkStep cfg sockets link event).handlers k mac ↔ Owns link.handlers k mac := by
  have same := @sameIdentity_linkStep cfg sockets n link event
  simp only [Owns, (same _).1, (same _).2.1]

theorem vouched_congr {handlers' handlers : Fin n → PacketHandler}
    (same : ∀ k mac, Owns handlers' k mac ↔ Owns handlers k mac) (tx : Icmp6Tx) :
    Vouched handlers' tx ↔ Vouched handlers tx := by
  unfold Vouched
  split <;> simp only [same]

theorem cacheOwned_congr {handlers' handlers : Fin n → PacketHandler}
    (same : ∀ k mac, Owns handlers' k mac ↔ Owns handlers k mac) (cache : NdCache) :
    CacheOwned handlers' cache ↔ CacheOwned handlers cache := by
  simp only [CacheOwned, same]

end Identity

section Bindings

variable {n : Nat} {handlers : Fin n → PacketHandler}

theorem cacheOwned_addEntry {cache : NdCache} (owned : CacheOwned handlers cache) {k : Ip6Address}
    {mac : MacAddress} (vouch : Owns handlers k mac) (now : Int) :
    CacheOwned handlers (addEntry cache k mac now) := by
  intro j entry present
  rw [get_addEntry] at present
  split_ifs at present with same
  · cases present
    exact same ▸ vouch
  · exact owned j entry present

theorem cacheOwned_findEntry {cache : NdCache} (owned : CacheOwned handlers cache)
    (ip6Host : List Ip6Host) (macUnicast : MacAddress) (k : Ip6Address) :
    CacheOwned handlers (findEntry ip6Host macUnicast cache k).cache := by
  intro j entry present
  rw [get_findEntry] at present
  split_ifs at present with same
  · subst same
    obtain ⟨before, atK, rfl⟩ := Option.map_eq_some'.mp present
    exact owned _ before atK
  · exact owned j entry present

theorem cacheOwned_maintainCache {cache : NdCache} (owned : CacheOwned handlers cache) (cfg : Config)
    (ip6Host : List Ip6Host) (macUnicast : MacAddress) (now : Int) :
    CacheOwned handlers (maintainCache cfg ip6Host macUnicast now cache).1 := by
  intro j entry present
  rw [get_maintainCache] at present
  obtain ⟨before, atJ, sameMac⟩ := macAddress_sweepEntry present
  exact sameMac ▸ owned j before atJ

/-- A solicitation a stack's cache sends binds the stack's own host address, if any, to the
stack's own MAC address. -/
theorem vouched_sendIcmp6NeighborSolicitation (i : Fin n)
    (hosts : ∀ host ∈ (handlers i).ip6Host, host.address ∈ (handlers i).ip6Unicast) (k : Ip6Address) :
    Vouched handlers (sendIcmp6NeighborSolicitation (handlers i).ip6Host (handlers i).macUnicast k) := by
  intro mac slla specified
  simp only [sendIcmp6NeighborSolicitation, Icmp6NdOpt.ndOptSlla_slla, Option.some.injEq] at slla specified ⊢
  rcases solicitationSource_cases (handlers i).ip6Host k with probe | ⟨host, member, atHost⟩
  · rw [probe] at specified
    exact absurd specified (by decide)
  · exact ⟨i, slla, atHost ▸ hosts host member⟩

/-- What the ICMPv6 handler of a stack sends binds only the stack's own addresses to its own MAC
address: its one advertisement answers for an address it owns, with its MAC as the TLLA. -/
theorem vouched_phrxIcmp6 {sockets : SocketRegistry} {now : Int} (i : Fin n) (ph : PacketHandler)
    (identity : SameIdentity ph (handlers i)) (ip6 : Ip6Header) (icmp6 : Option Icmp6Rx)
    {tx : Icmp6Tx} (sent : Action.icmp6 tx ∈ (phrxIcmp6 now sockets ph ip6 icmp6).2) :
    Vouched handlers tx := by
  rcases icmp6 with _ | ⟨frame⟩ | ⟨ecId, ecSeq, ecData⟩ | ⟨options⟩ | ⟨options⟩ |
    ⟨target, options⟩ | ⟨target, options⟩ | ⟨type⟩
  · simp [phrxIcmp6] at sent
  · obtain ⟨socket, notify⟩ := notify_of_mem_phrxIcmp6Unreachable sent
    cases notify
  · simp only [phrxIcmp6, List.mem_singleton, Action.icmp6.injEq] at sent
    subst sent
    trivial
  · simp [phrxIcmp6] at sent
  · simp [phrxIcmp6] at sent
  · by_cases owned : target ∈ ph.ip6Unicast
    · rw [phrxIcmp6_neighborSolicitation_sent ph ip6 target options owned] at sent
      simp only [List.mem_singleton, Action.icmp6.injEq] at sent
      subst sent
      intro mac tlla
      simp only [Icmp6NdOpt.ndOptTlla_tlla, Option.some.injEq] at tlla
      exact ⟨i, tlla ▸ identity.1.symm, identity.2.1 ▸ owned⟩
    · simp [phrxIcmp6_neighborSolicitation_foreign ph ip6 target options owned] at sent
  · simp only [phrxIcmp6] at sent
    split_ifs at sent
    · simp at sent
    · split at sent <;> simp at sent
  · simp [phrxIcmp6] at sent

theorem eq_of_mem_findEntry_sent {ip6Host : List Ip6Host} {macUnicast : MacAddress} {cache : NdCache}
    {k : Ip6Address} {tx : Icmp6Tx} (sent : tx ∈ (findEntry ip6Host macUnicast cache k).sent) :
    tx = sendIcmp6NeighborSolicitation ip6Host macUnicast k := by
  cases present : cache.ndCache.get k with
  | none =>
    rw [findEntry_of_get_none present] at sent
    exact List.mem_singleton.mp sent
  | some entry =>
    rw [findEntry_of_get_some present] at sent
    cases sent

theorem Icmp6Message.eq_of_received_neighborSolicitation {message : Icmp6Message}
    {target : Ip6Address} {options : List Icmp6NdOpt}
    (received : message.received = .neighborSolicitation target options) :
    message = .neighborSolicitation target options := by
  cases message <;> simp_all [Icmp6Message.received]

theorem Icmp6Message.eq_of_received_neighborAdvertisement {message : Icmp6Message}
    {target : Ip6Address} {options : List Icmp6NdOpt}
    (received : message.received = .neighborAdvertisement target options) :
    ∃ flagS flagO, message = .neighborAdvertisement flagS flagO target options := by
  cases message <;> simp_all [Icmp6Message.received]

/-- Delivering a message that binds addresses only to their owners' MAC addresses keeps a cache
that does so. -/
theorem cacheOwned_phrxIp6 {sockets : SocketRegistry} {now : Int} (ph : PacketHandler)
    (owned : CacheOwned handlers ph.icmp6NdCache) {tx : Icmp6Tx} (vouched : Vouched handlers tx) :
    CacheOwned handlers (phrxIp6 now sockets ph tx.deliver).1.icmp6NdCache := by
  rcases phrxIp6_cases ph tx.deliver with ⟨stats, counted⟩ | ⟨ip6, stats, parsed, handled⟩
  · rwa [counted]
  · simp only [Icmp6Tx.deliver, Option.some.injEq] at parsed
    subst parsed
    rw [handled]
    rcases @phrxIcmp6_cache_cases sockets now { ph with packetStatsRx := stats } _ _ with same |
      ⟨target, options, mac, received, slla, specified, -, learnt⟩ |
      ⟨target, options, mac, received, tlla, learnt⟩
    · rwa [same]
    · simp only [Icmp6Tx.deliver, Option.some.injEq] at received
      simp only [Vouched, Icmp6Message.eq_of_received_neighborSolicitation received] at vouched
      rw [learnt]
      exact cacheOwned_addEntry owned (vouched mac slla specified) now
    · simp only [Icmp6Tx.deliver, Option.some.injEq] at received
      obtain ⟨flagS, flagO, message⟩ := Icmp6Message.eq_of_received_neighborAdvertisement received
      simp only [Vouched, message] at vouched
      rw [learnt]
      exact cacheOwned_addEntry owned (vouched mac tlla) now

end Bindings

section Run

variable {cfg : Config} {sockets : SocketRegistry} {n : Nat}

/-- Every message on the link after an event binds addresses only to their owners' MAC
addresses: the ones sent before, by the invariant, and the new ones because a stack sends
only its own bindings. -/
theorem vouched_linkStep {link : Link n} (honest : Honest link) (event : LinkEvent n) :
    ∀ tx ∈ (linkStep cfg sockets link event).sent, Vouched link.handlers tx := by
  cases event with
  | findEntry i k =>
    simp only [linkStep, List.mem_append]
    rintro tx (old | new)
    · exact honest.vouched tx old
    · rw [eq_of_mem_findEntry_sent new]
      exact vouched_sendIcmp6NeighborSolicitation i (honest.hosts i) k
  | maintainCache i now =>
    simp only [linkStep, List.mem_append, sent_maintainCache, List.mem_map]
    rintro tx (old | ⟨k, -, rfl⟩)
    · exact honest.vouched tx old
    · exact vouched_sendIcmp6NeighborSolicitation i (honest.hosts i) k
  | deliver i now tx =>
    simp only [linkStep]
    split_ifs
    · simp only [List.mem_append, List.mem_filterMap]
      rintro reply (old | ⟨action, member, extracted⟩)
      · exact honest.vouched reply old
      · cases action <;> simp only [Action.icmp6Tx?, Option.some.injEq, reduceCtorEq] at extracted
        subst extracted
        obtain ⟨ip6, stats, -, -, handled⟩ := phrxIp6_icmp6_sent member
        exact vouched_phrxIcmp6 i { link.handlers i with packetStatsRx := stats } ⟨rfl, rfl, rfl⟩ ip6 _
          handled
    · exact honest.vouched

/-- Every cache after an event binds addresses only to their owners' MAC addresses. -/
theorem cacheOwned_linkStep {link : Link n} (honest : Honest link) (event : LinkEvent n)
    (j : Fin n) : CacheOwned link.handlers ((linkStep cfg sockets link event).handlers j).icmp6NdCache := by
  cases event with
  | findEntry i k =>
    by_cases same : j = i
    · subst same
      simp only [linkStep, Function.update_same]
      exact cacheOwned_findEntry (honest.cached j) _ _ k
    · simp only [linkStep, Function.update_noteq same]
      exact honest.cached j
  | maintainCache i now =>
    by_cases same : j = i
    · subst same
      simp only [linkStep, Function.update_same]
      exact cacheOwned_maintainCache (honest.cached j) cfg _ _ now
    · simp only [linkStep, Function.update_noteq same]
      exact honest.cached j
  | deliver i now tx =>
    simp only [linkStep]
    split_ifs with delivered
    · by_cases same : j = i
      · subst same
        simp only [Function.update_same]
        exact cacheOwned_phrxIp6 _ (honest.cached j) (honest.vouched tx delivered)
      · simp only [Function.update_noteq same]
        exact honest.cached j
    · exact honest.cached j

theorem honest_linkStep {link : Link n} (honest : Honest link) (event : LinkEvent n) :
    Honest (linkStep cfg sockets link event) := by
  have same := @owns_linkStep_iff cfg sockets n link event
  have identity := @sameIdentity_linkStep cfg sockets n link event
  refine ⟨fun i host member => ?_, fun tx member => ?_, fun j => ?_⟩
  · rw [(identity i).2.1]
    exact honest.hosts i host ((identity i).2.2 ▸ member)
  · exact (vouched_congr same tx).mpr (vouched_linkStep honest event tx member)
  · exact (cacheOwned_congr same _).mpr (cacheOwned_linkStep honest event j)

theorem honest_linkRun (events : List (LinkEvent n)) :
    ∀ link : Link n, Honest link → Honest (linkRun cfg sockets link events) := by
  induction events with
  | nil => exact fun _ honest => honest
  | cons event events ih => exact fun link honest => ih _ (honest_linkStep honest event)

theorem owns_linkRun_iff (link : Link n) (events : List (LinkEvent n)) (k : Ip6Address)
    (mac : MacAddress) : Owns (linkRun cfg sockets link events).handlers k mac ↔ Owns link.handlers k mac := by
  induction events generalizing link with
  | nil => rfl
  | cons event events ih => exact (ih _).trans (owns_linkStep_iff link event k mac)

/-- On a link of stacks whose hosts have their own unicast addresses, started with empty caches
and nothing sent, after any lookups, sweeps and deliveries (any message to any stack, any number
of times, in any order, or never), every stack's ND cache binds an address only to the MAC
address of a stack that owns it. -/
theorem caches_bind_owners (link : Link n)
    (hosts : ∀ i, ∀ host ∈ (link.handlers i).ip6Host, host.address ∈ (link.handlers i).ip6Unicast)
    (empty : ∀ i, (link.handlers i).icmp6NdCache = NdCache.empty) (quiet : link.sent = [])
    (events : List (LinkEvent n)) (i : Fin n) (k : Ip6Address) (entry : CacheEntry)
    (present : ((linkRun cfg sockets link events).handlers i).icmp6NdCache.ndCache.get k = some entry) :
    Owns link.handlers k entry.macAddress := by
  have start : Honest link := ⟨hosts, by simp [quiet], fun j k entry present => by
    simp [empty, NdCache.empty, Dict.get_empty] at present⟩
  exact (owns_linkRun_iff link events k _).mp ((honest_linkRun events link start).cached i k entry present)

end Run

/-- Two fresh stacks: `A` (`::4`, on `::/0`) looks up `::5`, and `B`, which owns `::5`, receives
the solicitation and learns `A`'s binding. -/
theorem caches_bind_owners_exchange :
    let A := { PacketHandler.init ⟨1, by decide⟩ with
      ip6Host := [⟨⟨4, by decide⟩, ⟨⟨0, by decide⟩, ⟨0, by decide, ⟨0, by decide, by decide⟩⟩, by decide⟩, none⟩]
      ip6Unicast := [⟨4, by decide⟩], ip6Multicast := [Ip6Address.allNodes] }
    let B := { PacketHandler.init ⟨2, by decide⟩ with
      ip6Unicast := [⟨5, by decide⟩], ip6Multicast := [Ip6Address.solicitedNodeMulticast ⟨5, by decide⟩] }
    let link : Link 2 := ⟨fun i => if i = 0 then A else B, []⟩
    let events := [LinkEvent.findEntry 0 ⟨5, by decide⟩,
      .deliver 1 0 (sendIcmp6NeighborSolicitation A.ip6Host A.macUnicast ⟨5, by decide⟩)]
    ((linkRun ⟨3600, 300⟩ ⟨fun _ => [], fun _ => none⟩ link events).handlers 1).icmp6NdCache.ndCache.get
        ⟨4, by decide⟩ = some (CacheEntry.new ⟨1, by decide⟩ 0) ∧
      Owns link.handlers ⟨4, by decide⟩ ⟨1, by decide⟩ := by
  intro A B link events
  exact ⟨by decide, @caches_bind_owners ⟨3600, 300⟩ ⟨fun _ => [], fun _ => none⟩ 2 link (by decide)
    (Fin.forall_fin_two.mpr ⟨rfl, rfl⟩) rfl events 1 _ (CacheEntry.new ⟨1, by decide⟩ 0) (by decide)⟩

end PyTcp
