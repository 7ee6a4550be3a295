import PyTcp.PacketHandler

namespace PyTcp

/-- A call that can change the stack's ND cache: `_phrx_icmp6` on a received packet (with the
clock reading `add_entry` sees), a `find_entry` lookup, or a `_maintain_cache` sweep. -/
inductive NdOp
  | phrxIcmp6 (now : Int) (ip6 : Ip6Header) (icmp6 : Option Icmp6Rx)
  | findEntry (ip6Address : Ip6Address)
  | maintainCache (now : Int)

/-- Whether the call receives a Neighbor Advertisement whose target is `k`. -/
def NdOp.advertises (k : Ip6Address) : NdOp → Bool
  | phrxIcmp6 _ _ (some (.neighborAdvertisement target _)) => decide (target = k)
  | _ => false

/-- Whether the call receives a packet that binds `k` to `mac`: a solicitation from `k` with the
SLLA `mac`, or an advertisement for `k` with the TLLA `mac`. -/
def NdOp.binds (k : Ip6Address) (mac : MacAddress) : NdOp → Bool
  | phrxIcmp6 _ ip6 (some (.neighborSolicitation _ options)) =>
    decide (ip6.src = k ∧ Icmp6NdOpt.ndOptSlla options = some mac)
  | phrxIcmp6 _ _ (some (.neighborAdvertisement target options)) =>
    decide (target = k ∧ Icmp6NdOpt.ndOptTlla options = some mac)
  | _ => false

section Runs

variable (cfg : Config) (sockets : SocketRegistry)

def ndStep (ph : PacketHandler) : NdOp → PacketHandler
  | .phrxIcmp6 now ip6 icmp6 => (PyTcp.phrxIcmp6 now sockets ph ip6 icmp6).1
  | .findEntry k => { ph with icmp6NdCache := (findEntry ph.ip6Host ph.macUnicast ph.icmp6NdCache k).cache }
  | .maintainCache now =>
    { ph with icmp6NdCache := (maintainCache cfg ph.ip6Host ph.macUnicast now ph.icmp6NdCache).1 }

def ndRun (ph : PacketHandler) : List NdOp → PacketHandler
  | [] => ph
  | op :: ops => ndRun (ndStep cfg sockets ph op) ops

end Runs

/-- No key of the cache is `::` or a multicast address. -/
def UnicastKeys (cache : NdCache) : Prop :=
  ∀ k, (cache.ndCache.get k).isSome → k.isUnspecified = false ∧ k.isMulticast = false

theorem unicastKeys_empty : UnicastKeys NdCache.empty := fun k present => by
  simp [NdCache.empty, Dict.get_empty] at present

section Keys

variable {cfg : Config} {sockets : SocketRegistry}

/-- What `_phrx_icmp6` can do to the cache: nothing; learn the SLLA of a solicitation for its
source when that is neither `::` nor multicast; or learn the TLLA of an advertisement for its
target, whatever that is. -/
theorem phrxIcmp6_cache_cases (now : Int) (ph : PacketHandler) (ip6 : Ip6Header)
    (icmp6 : Option Icmp6Rx) :
    (phrxIcmp6 now sockets ph ip6 icmp6).1.icmp6NdCache = ph.icmp6NdCache ∨
    (∃ target options mac, icmp6 = some (.neighborSolicitation target options) ∧
      Icmp6NdOpt.ndOptSlla options = some mac ∧
      ip6.src.isUnspecified = false ∧ ip6.src.isMulticast = false ∧
      (phrxIcmp6 now sockets ph ip6 icmp6).1.icmp6NdCache = addEntry ph.icmp6NdCache ip6.src mac now) ∨
    (∃ target options mac, icmp6 = some (.neighborAdvertisement target options) ∧
      Icmp6NdOpt.ndOptTlla options = some mac ∧
      (phrxIcmp6 now sockets ph ip6 icmp6).1.icmp6NdCache = addEntry ph.icmp6NdCache target mac now) := by
  rcases icmp6 with _ | _ | _ | _ | _ | ⟨target, options⟩ | ⟨target, options⟩ | _
  case neighborSolicitation =>
    by_cases owned : target ∈ ph.ip6Unicast
    · cases slla : Icmp6NdOpt.ndOptSlla options with
      | none => exact .inl (by simp [phrxIcmp6, owned, slla])
      | some mac =>
        cases unicast : !(ip6.src.isUnspecified || ip6.src.isMulticast)
        · exact .inl (by simp [phrxIcmp6, owned, unicast])
        · simp only [Bool.not_or, Bool.and_eq_true, Bool.not_eq_true'] at unicast
          exact .inr (.inl ⟨target, options, mac, rfl, slla, unicast.1, unicast.2,
            by rw [phrxIcmp6_neighborSolicitation_learns ph ip6 target options mac owned unicast slla]⟩)
    · simp [phrxIcmp6_neighborSolicitation_foreign ph ip6 target options owned]
  case neighborAdvertisement =>
    by_cases candidate : ph.ip6UnicastCandidate = some target
    · exact .inl (by rw [phrxIcmp6_neighborAdvertisement_dad ph ip6 target options candidate])
    · cases tlla : Icmp6NdOpt.ndOptTlla options with
      | none => exact .inl (by simp [phrxIcmp6, Ne.symm candidate, tlla])
      | some mac => exact .inr (.inr ⟨target, options, mac, rfl, tlla,
          by rw [phrxIcmp6_neighborAdvertisement_learns ph ip6 target options mac candidate tlla]⟩)
  all_goals exact .inl rfl

/-- One call: a key that is `::` or multicast is present afterwards only if it was before or
the call is an advertisement for it. -/
theorem isSome_ndStep (ph : PacketHandler) (op : NdOp) {k : Ip6Address}
    (special : k.isUnspecified = true ∨ k.isMulticast = true)
    (present : ((ndStep cfg sockets ph op).icmp6NdCache.ndCache.get k).isSome) :
    (ph.icmp6NdCache.ndCache.get k).isSome ∨ op.advertises k := by
  cases op with
  | phrxIcmp6 now ip6 icmp6 =>
    rcases phrxIcmp6_cache_cases now ph ip6 icmp6 with same |
      ⟨-, -, mac, -, -, unspecified, multicast, learnt⟩ | ⟨target, options, mac, rfl, -, learnt⟩
    · exact .inl (same ▸ present)
    · simp only [ndStep, learnt, get_addEntry] at present
      split_ifs at present with source
      · subst source
        simp [unspecified, multicast] at special
      · exact .inl present
    · simp only [ndStep, learnt, get_addEntry] at present
      split_ifs at present with named
      · exact .inr (by simp [NdOp.advertises, named])
      · exact .inl present
  | findEntry j =>
    simp only [ndStep, get_findEntry] at present
    split_ifs at present with same
    · subst same
      exact .inl (by simpa using present)
    · exact .inl present
  | maintainCache now =>
    simp only [ndStep, get_maintainCache] at present
    cases entry : ph.icmp6NdCache.ndCache.get k
    · simp [entry, sweepEntry] at present
    · exact .inl rfl

/-- A run: a key that is `::` or multicast is present at the end only if it was at the start
or some call of the run is an advertisement for it. -/
theorem isSome_ndRun (ph : PacketHandler) (ops : List NdOp) {k : Ip6Address}
    (special : k.isUnspecified = true ∨ k.isMulticast = true)
    (present : ((ndRun cfg sockets ph ops).icmp6NdCache.ndCache.get k).isSome) :
    (ph.icmp6NdCache.ndCache.get k).isSome ∨ ∃ op ∈ ops, op.advertises k = true := by
  induction ops generalizing ph with
  | nil => exact .inl present
  | cons op ops ih =>
    rcases ih (ndStep cfg sockets ph op) present with afterStep | ⟨later, member, named⟩
    · rcases isSome_ndStep ph op special afterStep with before | named
      · exact .inl before
      · exact .inr ⟨op, List.mem_cons_self _ _, named⟩
    · exact .inr ⟨later, List.mem_cons_of_mem _ member, named⟩

/-- Whatever packets `_phrx_icmp6` receives and whatever lookups and sweeps run, starting from
a cache with no such key, a key that is `::` or a multicast address is in the cache at the end
only if one of the received packets was a Neighbor Advertisement naming it as its target. -/
theorem special_key_from_advertisement (ph : PacketHandler) (ops : List NdOp)
    (unicastKeys : UnicastKeys ph.icmp6NdCache) (k : Ip6Address)
    (special : k.isUnspecified = true ∨ k.isMulticast = true)
    (present : ((ndRun cfg sockets ph ops).icmp6NdCache.ndCache.get k).isSome) :
    ∃ op ∈ ops, op.advertises k = true := by
  refine (isSome_ndRun ph ops special present).resolve_left fun before => ?_
  obtain ⟨unspecified, multicast⟩ := unicastKeys k before
  simp [unspecified, multicast] at special

theorem special_key_from_advertisement_all_nodes :
    let ops := [NdOp.phrxIcmp6 0 ⟨⟨2, by decide⟩, Ip6Address.allNodes, 255, ip6NextIcmp6⟩
      (some (.neighborAdvertisement Ip6Address.allNodes [.tlla ⟨5, by decide⟩]))]
    ∃ op ∈ ops, op.advertises Ip6Address.allNodes = true :=
  @special_key_from_advertisement ⟨60, 5⟩ ⟨fun _ => [], fun _ => none⟩ (PacketHandler.init ⟨1, by decide⟩)
    [NdOp.phrxIcmp6 0 ⟨⟨2, by decide⟩, Ip6Address.allNodes, 255, ip6NextIcmp6⟩
      (some (.neighborAdvertisement Ip6Address.allNodes [.tlla ⟨5, by decide⟩]))]
    unicastKeys_empty Ip6Address.allNodes (.inr Ip6Address.allNodes_isMulticast) (by decide)

/-- An advertisement for `ff02::1` with a TLLA, received with no DAD running, puts the
all-nodes group into an empty cache. -/
theorem advertisement_caches_all_nodes :
    let ph := PacketHandler.init ⟨1, by decide⟩
    let ops := [NdOp.phrxIcmp6 0 ⟨⟨2, by decide⟩, Ip6Address.allNodes, 255, ip6NextIcmp6⟩
      (some (.neighborAdvertisement Ip6Address.allNodes [.tlla ⟨5, by decide⟩]))]
    UnicastKeys ph.icmp6NdCache ∧
      ((ndRun ⟨60, 5⟩ ⟨fun _ => [], fun _ => none⟩ ph ops).icmp6NdCache.ndCache.get
        Ip6Address.allNodes).isSome ∧ Ip6Address.allNodes.isMulticast = true :=
  ⟨unicastKeys_empty, by decide, by decide⟩

end Keys

section Bindings

variable {cfg : Config} {sockets : SocketRegistry}

/-- A sweep keeps an entry's MAC address or drops the entry. -/
theorem macAddress_sweepEntry {now : Int} {before : Option CacheEntry} {entry : CacheEntry}
    (kept : sweepEntry cfg now before = some entry) :
    ∃ e, before = some e ∧ e.macAddress = entry.macAddress := by
  cases before with
  | none => cases kept
  | some e =>
    refine ⟨e, rfl, ?_⟩
    simp only [sweepEntry] at kept
    split_ifs at kept <;> cases kept <;> rfl

/-- One call: the MAC address the cache binds `k` to afterwards is the one it bound `k` to
before, or one the call received for `k`. -/
theorem mac_ndStep (ph : PacketHandler) (op : NdOp) {k : Ip6Address} {entry : CacheEntry}
    (present : (ndStep cfg sockets ph op).icmp6NdCache.ndCache.get k = some entry) :
    (∃ before, ph.icmp6NdCache.ndCache.get k = some before ∧
      before.macAddress = entry.macAddress) ∨ op.binds k entry.macAddress = true := by
  cases op with
  | phrxIcmp6 now ip6 icmp6 =>
    rcases @phrxIcmp6_cache_cases sockets now ph ip6 icmp6 with same |
      ⟨target, options, mac, rfl, slla, -, -, learnt⟩ | ⟨target, options, mac, rfl, tlla, learnt⟩
    · simp only [ndStep, same] at present
      exact .inl ⟨entry, present, rfl⟩
    · simp only [ndStep, learnt, get_addEntry] at present
      split_ifs at present with source
      · cases present
        exact .inr (by simp [NdOp.binds, source, slla, CacheEntry.new])
      · exact .inl ⟨entry, present, rfl⟩
    · simp only [ndStep, learnt, get_addEntry] at present
      split_ifs at present with named
      · cases present
        exact .inr (by simp [NdOp.binds, named, tlla, CacheEntry.new])
      · exact .inl ⟨entry, present, rfl⟩
  | findEntry j =>
    simp only [ndStep, get_findEntry] at present
    split_ifs at present with same
    · subst same
      obtain ⟨before, atK, rfl⟩ := Option.map_eq_some'.mp present
      exact .inl ⟨before, atK, rfl⟩
    · exact .inl ⟨entry, present, rfl⟩
  | maintainCache now =>
    simp only [ndStep, get_maintainCache] at present
    exact .inl (macAddress_sweepEntry present)

/-- A run: the MAC address the cache binds `k` to at the end is the one it bound `k` to at the
start, or one some call of the run received for `k`. -/
theorem mac_ndRun (ph : PacketHandler) (ops : List NdOp) {k : Ip6Address} {entry : CacheEntry}
    (present : (ndRun cfg sockets ph ops).icmp6NdCache.ndCache.get k = some entry) :
    (∃ before, ph.icmp6NdCache.ndCache.get k = some before ∧
      before.macAddress = entry.macAddress) ∨ ∃ op ∈ ops, op.binds k entry.macAddress = true := by
  induction ops generalizing ph with
  | nil => exact .inl ⟨entry, present, rfl⟩
  | cons op ops ih =>
    rcases ih (ndStep cfg sockets ph op) present with ⟨mid, atMid, sameMac⟩ |
      ⟨later, member, carried⟩
    · rcases mac_ndStep ph op atMid with ⟨before, atStart, sameBefore⟩ | carried
      · exact .inl ⟨before, atStart, sameBefore.trans sameMac⟩
      · exact .inr ⟨op, List.mem_cons_self _ _, sameMac ▸ carried⟩
    · exact .inr ⟨later, List.mem_cons_of_mem _ member, carried⟩

/-- Starting from an empty cache, whatever packets `_phrx_icmp6` receives and whatever lookups
and sweeps run, the cache binds an address only to a MAC address that a received packet carried
for it: the SLLA of a solicitation from it, or the TLLA of an advertisement for it. -/
theorem binding_from_received (ph : PacketHandler) (ops : List NdOp)
    (empty : ph.icmp6NdCache = NdCache.empty) {k : Ip6Address} {entry : CacheEntry}
    (present : (ndRun cfg sockets ph ops).icmp6NdCache.ndCache.get k = some entry) :
    ∃ op ∈ ops, op.binds k entry.macAddress = true :=
  (mac_ndRun ph ops present).resolve_left fun ⟨_, atStart, _⟩ => by
    simp [empty, NdCache.empty, Dict.get_empty] at atStart

end Bindings

/-- A fresh stack that receives one advertisement for `::5` with the TLLA `00:00:00:00:00:02`. -/
theorem binding_from_received_advertisement :
    let k : Ip6Address := ⟨5, by decide⟩
    let ops := [NdOp.phrxIcmp6 0 ⟨k, Ip6Address.allNodes, 255, ip6NextIcmp6⟩
      (some (.neighborAdvertisement k [.tlla ⟨2, by decide⟩]))]
    let final := ndRun ⟨3600, 300⟩ ⟨fun _ => [], fun _ => none⟩ (PacketHandler.init ⟨1, by decide⟩) ops
    final.icmp6NdCache.ndCache.get k = some (CacheEntry.new ⟨2, by decide⟩ 0) ∧
      ∃ op ∈ ops, op.binds k ⟨2, by decide⟩ = true := by
  intro k ops final
  exact ⟨by decide, @binding_from_received ⟨3600, 300⟩ ⟨fun _ => [], fun _ => none⟩
    (PacketHandler.init ⟨1, by decide⟩) ops rfl k (CacheEntry.new ⟨2, by decide⟩ 0) (by decide)⟩

end PyTcp
