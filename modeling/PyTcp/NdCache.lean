import PyTcp.Dict
import PyTcp.Icmp6

namespace PyTcp

/-- `config.nd_cache_entry_max_age` and `config.nd_cache_entry_refresh_time`. config.py is
absent (the spec gives 60 s and 5 s), so they are parameters. Clock readings are integers in
one unit: any finite run of float times scales to one. -/
structure Config where
  ndCacheEntryMaxAge : Int
  ndCacheEntryRefreshTime : Int
  deriving DecidableEq, Repr

/-- `NdCache.CacheEntry`. -/
structure CacheEntry where
  macAddress : MacAddress
  permanent : Bool
  creationTime : Int
  hitCount : Nat
  deriving DecidableEq, Repr

/-- `CacheEntry(mac_address)` made when the clock reads `now`. -/
def CacheEntry.new (macAddress : MacAddress) (now : Int) : CacheEntry :=
  ⟨macAddress, false, now, 0⟩

/-- `NdCache`: its dictionary `nd_cache`. -/
structure NdCache where
  ndCache : Dict Ip6Address CacheEntry

/-- `NdCache()`: the cache starts empty. -/
def NdCache.empty : NdCache := ⟨Dict.empty⟩

/-- What one `find_entry` leaves: the cache, the MAC it returns, what it sent. -/
structure Outcome where
  cache : NdCache
  found : Option MacAddress
  sent : List Icmp6Tx

section Operations

variable (cfg : Config) (ip6Host : List Ip6Host) (macUnicast : MacAddress)

/-- The source address loop of `_send_icmp6_neighbor_solicitation`: the last host whose
network holds the target, else `::`. -/
def solicitationSource (target : Ip6Address) : Ip6Address :=
  ip6Host.foldl (fun src host => if host.network.contains target then host.address else src)
    Ip6Address.unspecified

/-- `_send_icmp6_neighbor_solicitation`: the `_phtx_icmp6` call it makes. -/
def sendIcmp6NeighborSolicitation (target : Ip6Address) : Icmp6Tx :=
  { ip6Src := solicitationSource ip6Host target
    ip6Dst := target.solicitedNodeMulticast
    ip6Hop := 255
    message := .neighborSolicitation target [.slla macUnicast] }

/-- Whether a `_phtx_icmp6` call is a Neighbor Solicitation for `k`. -/
def Icmp6Tx.solicits (k : Ip6Address) (tx : Icmp6Tx) : Bool :=
  match tx.message with
  | .neighborSolicitation target _ => decide (target = k)
  | _ => false

/-- `add_entry`, the clock reading `now`. -/
def addEntry (cache : NdCache) (ip6Address : Ip6Address) (macAddress : MacAddress) (now : Int) :
    NdCache :=
  ⟨cache.ndCache.set ip6Address (CacheEntry.new macAddress now)⟩

/-- `find_entry`. -/
def findEntry (cache : NdCache) (ip6Address : Ip6Address) : Outcome :=
  match cache.ndCache.get ip6Address with
  | some entry =>
    ⟨⟨cache.ndCache.set ip6Address { entry with hitCount := entry.hitCount + 1 }⟩,
      some entry.macAddress, []⟩
  | none => ⟨cache, none, [sendIcmp6NeighborSolicitation ip6Host macUnicast ip6Address]⟩

/-- The loop body of `_maintain_cache` for one key of the snapshot, every clock read
returning `now`. Keys come from the snapshot and only this body removes them, so the
`KeyError` of a missing key never happens (`get_maintainCache`); the model skips it. -/
def maintainEntry (now : Int) (state : NdCache × List Icmp6Tx) (ip6Address : Ip6Address) :
    NdCache × List Icmp6Tx :=
  match state.1.ndCache.get ip6Address with
  | none => state
  | some entry =>
    if entry.permanent then state
    else if now - entry.creationTime > cfg.ndCacheEntryMaxAge then
      (⟨state.1.ndCache.pop ip6Address⟩, state.2)
    else if now - entry.creationTime > cfg.ndCacheEntryMaxAge - cfg.ndCacheEntryRefreshTime ∧
        0 < entry.hitCount then
      (⟨state.1.ndCache.set ip6Address { entry with hitCount := 0 }⟩,
        state.2 ++ [sendIcmp6NeighborSolicitation ip6Host macUnicast ip6Address])
    else state

/-- `_maintain_cache`: the loop over `list(self.nd_cache)`. -/
def maintainCache (now : Int) (cache : NdCache) : NdCache × List Icmp6Tx :=
  cache.ndCache.keys.foldl (maintainEntry cfg ip6Host macUnicast now) (cache, [])

/-- Whether the sweep at `now` drops the entry: not permanent and older than the maximum age. -/
def expired (now : Int) (entry : CacheEntry) : Bool :=
  !entry.permanent && decide (now - entry.creationTime > cfg.ndCacheEntryMaxAge)

/-- Whether the sweep at `now` refreshes the entry: not permanent, not expired, inside the
refresh window, and hit since its last refresh. -/
def refreshDue (now : Int) (entry : CacheEntry) : Bool :=
  !entry.permanent && !decide (now - entry.creationTime > cfg.ndCacheEntryMaxAge) &&
    decide (now - entry.creationTime > cfg.ndCacheEntryMaxAge - cfg.ndCacheEntryRefreshTime) &&
    decide (0 < entry.hitCount)

/-- What the sweep at `now` makes of the entry under one key. -/
def sweepEntry (now : Int) : Option CacheEntry → Option CacheEntry
  | none => none
  | some entry =>
    if expired cfg now entry then none
    else if refreshDue cfg now entry then some { entry with hitCount := 0 } else some entry

end Operations

section Spec

variable {cfg : Config} {ip6Host : List Ip6Host} {macUnicast : MacAddress}

@[simp]
theorem get_addEntry (cache : NdCache) (k j : Ip6Address) (mac : MacAddress) (now : Int) :
    (addEntry cache k mac now).ndCache.get j =
      if k = j then some (CacheEntry.new mac now) else cache.ndCache.get j := by
  simp [addEntry]

theorem findEntry_of_get_some {cache : NdCache} {k : Ip6Address} {entry : CacheEntry}
    (present : cache.ndCache.get k = some entry) :
    findEntry ip6Host macUnicast cache k =
      ⟨⟨cache.ndCache.set k { entry with hitCount := entry.hitCount + 1 }⟩,
        some entry.macAddress, []⟩ := by
  simp [findEntry, present]

theorem findEntry_of_get_none {cache : NdCache} {k : Ip6Address}
    (absent : cache.ndCache.get k = none) :
    findEntry ip6Host macUnicast cache k =
      ⟨cache, none, [sendIcmp6NeighborSolicitation ip6Host macUnicast k]⟩ := by
  simp [findEntry, absent]

/-- `find_entry` on an entry it finds returns that entry's MAC and sends nothing. -/
theorem findEntry_of_present {cache : NdCache} {k : Ip6Address} {mac : MacAddress}
    (present : ∃ e, cache.ndCache.get k = some e ∧ e.macAddress = mac) :
    (findEntry ip6Host macUnicast cache k).found = some mac ∧
      (findEntry ip6Host macUnicast cache k).sent = [] := by
  obtain ⟨e, atK, rfl⟩ := present
  simp [findEntry_of_get_some atK]

/-- `find_entry` changes nothing but the hit count of the entry it finds. -/
theorem get_findEntry (cache : NdCache) (k j : Ip6Address) :
    (findEntry ip6Host macUnicast cache k).cache.ndCache.get j =
      if k = j then (cache.ndCache.get k).map (fun e => { e with hitCount := e.hitCount + 1 })
      else cache.ndCache.get j := by
  cases present : cache.ndCache.get k with
  | none =>
    rw [findEntry_of_get_none present]
    split <;> simp_all
  | some entry => simp [findEntry_of_get_some present]

@[simp]
theorem solicits_sendIcmp6NeighborSolicitation (k target : Ip6Address) :
    (sendIcmp6NeighborSolicitation ip6Host macUnicast target).solicits k = decide (target = k) :=
  rfl

theorem foldl_source_cases (target : Ip6Address) :
    ∀ (hosts : List Ip6Host) (src : Ip6Address),
      hosts.foldl (fun src host => if host.network.contains target then host.address else src) src = src ∨
        ∃ host ∈ hosts, hosts.foldl
          (fun src host => if host.network.contains target then host.address else src) src = host.address
  | [], _ => .inl rfl
  | host :: hosts, src => by
    rw [List.foldl_cons]
    by_cases holds : host.network.contains target
    · rw [if_pos holds]
      rcases foldl_source_cases target hosts host.address with same | ⟨later, member, atLater⟩
      · exact .inr ⟨host, List.mem_cons_self _ _, same⟩
      · exact .inr ⟨later, List.mem_cons_of_mem _ member, atLater⟩
    · rw [if_neg holds]
      rcases foldl_source_cases target hosts src with same | ⟨later, member, atLater⟩
      · exact .inl same
      · exact .inr ⟨later, List.mem_cons_of_mem _ member, atLater⟩

theorem foldl_source_eq_last (target : Ip6Address) :
    ∀ (hosts : List Ip6Host) (src : Ip6Address),
      hosts.foldl (fun src host => if host.network.contains target then host.address else src) src =
        ((hosts.filter fun host => host.network.contains target).getLast?.map Ip6Host.address).getD src
  | [], _ => rfl
  | host :: hosts, src => by
    rw [List.foldl_cons, foldl_source_eq_last target hosts, List.filter_cons]
    split_ifs
    · rw [List.getLast?_cons]
      cases (hosts.filter fun host => host.network.contains target).getLast? <;> rfl
    · rfl

/-- The solicitation's source: the address of the last host whose network holds the target,
or `::` when no host's does. -/
theorem solicitationSource_eq_last (ip6Host : List Ip6Host) (target : Ip6Address) :
    solicitationSource ip6Host target =
      ((ip6Host.filter fun host => host.network.contains target).getLast?.map
        Ip6Host.address).getD Ip6Address.unspecified :=
  foldl_source_eq_last target ip6Host _

/-- A solicitation's source is `::` or the address of one of the hosts. -/
theorem solicitationSource_cases (ip6Host : List Ip6Host) (target : Ip6Address) :
    solicitationSource ip6Host target = Ip6Address.unspecified ∨
      ∃ host ∈ ip6Host, solicitationSource ip6Host target = host.address :=
  foldl_source_cases target ip6Host _

theorem sweepEntry_of_not_expired {now : Int} {entry : CacheEntry}
    (kept : expired cfg now entry = false) :
    sweepEntry cfg now (some entry) =
      some (if refreshDue cfg now entry then { entry with hitCount := 0 } else entry) := by
  simp only [sweepEntry, kept, Bool.false_eq_true, if_false]
  split <;> rfl

theorem sweepEntry_eq_some {now : Int} {entry kept : CacheEntry}
    (swept : sweepEntry cfg now (some entry) = some kept) :
    expired cfg now entry = false ∧
      kept = if refreshDue cfg now entry then { entry with hitCount := 0 } else entry := by
  cases stale : expired cfg now entry
  · rw [sweepEntry_of_not_expired stale] at swept
    exact ⟨rfl, (Option.some.inj swept).symm⟩
  · simp [sweepEntry, stale] at swept

theorem expired_of_permanent {now : Int} {entry : CacheEntry} (permanent : entry.permanent = true) :
    expired cfg now entry = false := by
  simp [expired, permanent]

theorem refreshDue_of_permanent {now : Int} {entry : CacheEntry} (permanent : entry.permanent = true) :
    refreshDue cfg now entry = false := by
  simp [refreshDue, permanent]

theorem refreshDue_of_expired {now : Int} {entry : CacheEntry} (stale : expired cfg now entry = true) :
    refreshDue cfg now entry = false := by
  simp_all [expired, refreshDue]

/-- The loop body on a key with an entry: drop it when expired, reset its hit count and solicit
when a refresh is due, else nothing. -/
theorem maintainEntry_of_get_some (now : Int) (state : NdCache × List Icmp6Tx) {k : Ip6Address}
    {entry : CacheEntry} (present : state.1.ndCache.get k = some entry) :
    maintainEntry cfg ip6Host macUnicast now state k =
      if expired cfg now entry then (⟨state.1.ndCache.pop k⟩, state.2)
      else if refreshDue cfg now entry then
        (⟨state.1.ndCache.set k { entry with hitCount := 0 }⟩,
          state.2 ++ [sendIcmp6NeighborSolicitation ip6Host macUnicast k])
      else state := by
  cases permanent : entry.permanent
  · simp only [maintainEntry, present, permanent, expired, refreshDue, Bool.false_eq_true, if_false,
      Bool.not_false, Bool.true_and, Bool.and_eq_true, Bool.not_eq_true', decide_eq_true_eq,
      decide_eq_false_iff_not]
    split_ifs <;> first | rfl | (exfalso; omega)
  · simp [maintainEntry, present, permanent, expired, refreshDue]

theorem maintainEntry_get (now : Int) (state : NdCache × List Icmp6Tx) (k j : Ip6Address) :
    (maintainEntry cfg ip6Host macUnicast now state k).1.ndCache.get j =
      if k = j then sweepEntry cfg now (state.1.ndCache.get k) else state.1.ndCache.get j := by
  cases present : state.1.ndCache.get k with
  | none =>
    simp only [maintainEntry, present, sweepEntry]
    split_ifs with same
    · exact same ▸ present
    · rfl
  | some entry =>
    rw [maintainEntry_of_get_some now state present]
    by_cases same : k = j
    · subst same
      simp only [sweepEntry]
      split_ifs <;> simp [present]
    · simp only [same, if_false]
      split_ifs <;> simp [same]

theorem maintainEntry_sent (now : Int) (state : NdCache × List Icmp6Tx) (k : Ip6Address) :
    (maintainEntry cfg ip6Host macUnicast now state k).2 = state.2 ++
      if (state.1.ndCache.get k).any (refreshDue cfg now) then
        [sendIcmp6NeighborSolicitation ip6Host macUnicast k] else [] := by
  cases present : state.1.ndCache.get k with
  | none => simp [maintainEntry, present]
  | some entry =>
    rw [maintainEntry_of_get_some now state present]
    cases stale : expired cfg now entry
    · split_ifs <;> simp_all
    · simp [refreshDue_of_expired stale]

/-- The loop over a snapshot without repeats: each key is swept once, from its entry before the
loop, and a refresh solicitation goes out for each refreshed key in snapshot order. -/
theorem foldl_maintainEntry (now : Int) (j : Ip6Address) :
    ∀ (keys : List Ip6Address) (state : NdCache × List Icmp6Tx), keys.Nodup →
      (keys.foldl (maintainEntry cfg ip6Host macUnicast now) state).1.ndCache.get j =
        (if j ∈ keys then sweepEntry cfg now (state.1.ndCache.get j) else state.1.ndCache.get j) ∧
      (keys.foldl (maintainEntry cfg ip6Host macUnicast now) state).2 = state.2 ++
        ((keys.filter fun k => (state.1.ndCache.get k).any (refreshDue cfg now)).map
          (sendIcmp6NeighborSolicitation ip6Host macUnicast))
  | [], state, _ => by simp
  | k :: rest, state, nodup => by
    obtain ⟨fresh, nodupRest⟩ := List.nodup_cons.mp nodup
    have other : ∀ i ∈ rest, (maintainEntry cfg ip6Host macUnicast now state k).1.ndCache.get i =
        state.1.ndCache.get i := fun i member => by
      rw [maintainEntry_get, if_neg (fun (same : k = i) => fresh (same ▸ member))]
    obtain ⟨atJ, rest_sent⟩ := foldl_maintainEntry now j rest _ nodupRest
    rw [List.foldl_cons]
    refine ⟨?_, ?_⟩
    · rw [atJ]
      by_cases inRest : j ∈ rest
      · rw [if_pos inRest, other j inRest, if_pos (List.mem_cons_of_mem k inRest)]
      · rw [if_neg inRest, maintainEntry_get]
        by_cases same : k = j
        · subst same; simp
        · simp [inRest, same, Ne.symm same]
    · rw [rest_sent, maintainEntry_sent, List.filter_congr (fun i member => by rw [other i member])]
      by_cases due : (state.1.ndCache.get k).any (refreshDue cfg now) <;> simp [due]

theorem get_maintainCache (now : Int) (cache : NdCache) (j : Ip6Address) :
    (maintainCache cfg ip6Host macUnicast now cache).1.ndCache.get j =
      sweepEntry cfg now (cache.ndCache.get j) := by
  rw [maintainCache, (foldl_maintainEntry now j cache.ndCache.keys (cache, []) cache.ndCache.nodup).1]
  split_ifs with member
  · rfl
  · rw [Dict.mem_keys_iff, Option.not_isSome_iff_eq_none] at member
    rw [member, sweepEntry]

theorem sent_maintainCache (now : Int) (cache : NdCache) :
    (maintainCache cfg ip6Host macUnicast now cache).2 =
      (cache.ndCache.keys.filter fun k => (cache.ndCache.get k).any (refreshDue cfg now)).map
        (sendIcmp6NeighborSolicitation ip6Host macUnicast) :=
  (foldl_maintainEntry now Ip6Address.unspecified cache.ndCache.keys (cache, [])
    cache.ndCache.nodup).2

/-- The sweep sends one solicitation for `k` when it refreshes `k`'s entry, and none otherwise. -/
theorem countP_solicits_maintainCache (now : Int) (cache : NdCache) (k : Ip6Address) :
    (maintainCache cfg ip6Host macUnicast now cache).2.countP (Icmp6Tx.solicits k) =
      if (cache.ndCache.get k).any (refreshDue cfg now) then 1 else 0 := by
  rw [sent_maintainCache, List.countP_map]
  have same : (Icmp6Tx.solicits k ∘ sendIcmp6NeighborSolicitation ip6Host macUnicast) =
      (· == k) := funext fun j => rfl
  have nodup := cache.ndCache.nodup.filter fun j => (cache.ndCache.get j).any (refreshDue cfg now)
  rw [same, ← List.count_eq_countP]
  split_ifs with due
  · refine List.count_eq_one_of_mem nodup (List.mem_filter.mpr ⟨?_, due⟩)
    rw [Dict.mem_keys_iff]
    cases present : cache.ndCache.get k <;> simp_all
  · exact List.count_eq_zero_of_not_mem fun member => due (List.mem_filter.mp member).2

theorem keys_findEntry (cache : NdCache) (k : Ip6Address) :
    (findEntry ip6Host macUnicast cache k).cache.ndCache.keys = cache.ndCache.keys := by
  cases present : cache.ndCache.get k with
  | none => rw [findEntry_of_get_none present]
  | some entry =>
    have member : k ∈ cache.ndCache.keys := by rw [Dict.mem_keys_iff, present]; rfl
    rw [findEntry_of_get_some present]
    exact (Dict.keys_setItem _ _ _).trans (if_pos member)

/-- `find_entry(k)`: on a hit it returns the entry's MAC, adds one to its hit count, changes
nothing else and sends nothing; on a miss it returns `None`, leaves the cache as it was and sends
one Neighbor Solicitation for `k` from the last host whose network holds `k`, or from `::`. -/
theorem findEntry_hit_or_solicit (ip6Host : List Ip6Host) (macUnicast : MacAddress)
    (cache : NdCache) (k : Ip6Address) :
    let outcome := findEntry ip6Host macUnicast cache k
    (∀ entry, cache.ndCache.get k = some entry →
      outcome.found = some entry.macAddress ∧ outcome.sent = [] ∧
      outcome.cache.ndCache.keys = cache.ndCache.keys ∧
      ∀ j, outcome.cache.ndCache.get j =
        if k = j then some { entry with hitCount := entry.hitCount + 1 } else cache.ndCache.get j) ∧
    (cache.ndCache.get k = none →
      outcome.found = none ∧ outcome.cache = cache ∧
      outcome.sent =
        [{ ip6Src := ((ip6Host.filter fun host => host.network.contains k).getLast?.map
              Ip6Host.address).getD Ip6Address.unspecified
           ip6Dst := k.solicitedNodeMulticast
           ip6Hop := 255
           message := .neighborSolicitation k [.slla macUnicast] }]) := by
  refine ⟨fun entry present => ⟨?_, ?_, keys_findEntry cache k, fun j => ?_⟩, fun absent => ?_⟩
  · rw [findEntry_of_get_some present]
  · rw [findEntry_of_get_some present]
  · rw [get_findEntry, present]
    rfl
  · rw [findEntry_of_get_none absent, sendIcmp6NeighborSolicitation, solicitationSource_eq_last]
    exact ⟨rfl, rfl, rfl⟩

theorem expired_eq_false_iff (now : Int) (entry : CacheEntry) :
    expired cfg now entry = false ↔
      entry.permanent = true ∨ now - entry.creationTime ≤ cfg.ndCacheEntryMaxAge := by
  simp only [expired, Bool.and_eq_false_iff, Bool.not_eq_false', decide_eq_false_iff_not, not_lt]

theorem isSome_sweepEntry (now : Int) (entry : CacheEntry) :
    (sweepEntry cfg now (some entry)).isSome = !expired cfg now entry := by
  cases stale : expired cfg now entry
  · rw [sweepEntry_of_not_expired stale]
    rfl
  · simp [sweepEntry, stale]

/-- On an entry the sweep keeps, a refresh is due exactly when the entry is not permanent, inside
the refresh window and hit since its last refresh. -/
theorem refreshDue_iff {now : Int} {entry : CacheEntry} (fresh : expired cfg now entry = false) :
    refreshDue cfg now entry = true ↔ entry.permanent = false ∧
      now - entry.creationTime > cfg.ndCacheEntryMaxAge - cfg.ndCacheEntryRefreshTime ∧
      0 < entry.hitCount := by
  rcases (expired_eq_false_iff now entry).mp fresh with permanent | young
  · simp [refreshDue, permanent]
  · simp [refreshDue, young, and_assoc]

/-- The sweep refreshes the entry under `k` exactly when there is one, not permanent, no older
than the maximum age, inside the refresh window and hit since its last refresh. -/
theorem any_refreshDue_iff (now : Int) (cache : NdCache) (k : Ip6Address) :
    (cache.ndCache.get k).any (refreshDue cfg now) = true ↔
      ∃ entry, cache.ndCache.get k = some entry ∧ entry.permanent = false ∧
        now - entry.creationTime ≤ cfg.ndCacheEntryMaxAge ∧
        now - entry.creationTime > cfg.ndCacheEntryMaxAge - cfg.ndCacheEntryRefreshTime ∧
        0 < entry.hitCount := by
  cases cache.ndCache.get k with
  | none => simp
  | some entry =>
    simp only [Option.any_some, refreshDue, Bool.and_eq_true, Bool.not_eq_true', decide_eq_true_eq,
      decide_eq_false_iff_not, Option.some.injEq, exists_eq_left', not_lt, and_assoc]

/-- `_maintain_cache` at `now`, over the whole cache: it keeps exactly the permanent entries and
those no older than the maximum age, keeps their MAC, permanence and creation time, resets the
hit count of exactly the non-permanent ones in the refresh window that were hit, and sends one
solicitation for each key it resets and nothing else. -/
theorem maintainCache_filters_and_resets (cfg : Config) (ip6Host : List Ip6Host)
    (macUnicast : MacAddress) (now : Int) (cache : NdCache) :
    let swept := maintainCache cfg ip6Host macUnicast now cache
    let reset := fun k => ∃ entry, cache.ndCache.get k = some entry ∧ entry.permanent = false ∧
      now - entry.creationTime ≤ cfg.ndCacheEntryMaxAge ∧
      now - entry.creationTime > cfg.ndCacheEntryMaxAge - cfg.ndCacheEntryRefreshTime ∧
      0 < entry.hitCount
    (∀ k, (swept.1.ndCache.get k).isSome ↔ ∃ entry, cache.ndCache.get k = some entry ∧
      (entry.permanent = true ∨ now - entry.creationTime ≤ cfg.ndCacheEntryMaxAge)) ∧
    (∀ k entry kept, cache.ndCache.get k = some entry → swept.1.ndCache.get k = some kept →
      kept.macAddress = entry.macAddress ∧ kept.permanent = entry.permanent ∧
      kept.creationTime = entry.creationTime ∧
      kept.hitCount = if entry.permanent = false ∧
          now - entry.creationTime > cfg.ndCacheEntryMaxAge - cfg.ndCacheEntryRefreshTime ∧
          0 < entry.hitCount then 0 else entry.hitCount) ∧
    (∀ k, reset k → swept.2.countP (Icmp6Tx.solicits k) = 1) ∧
    (∀ tx ∈ swept.2, ∃ k, reset k ∧ tx = sendIcmp6NeighborSolicitation ip6Host macUnicast k) := by
  refine ⟨fun k => ?_, fun k entry kept present swept => ?_, fun k due => ?_, fun tx sent => ?_⟩
  · rw [get_maintainCache]
    cases cache.ndCache.get k with
    | none => simp [sweepEntry]
    | some entry =>
      rw [isSome_sweepEntry, Bool.not_eq_true', expired_eq_false_iff]
      simp
  · rw [get_maintainCache, present] at swept
    obtain ⟨fresh, rfl⟩ := sweepEntry_eq_some swept
    by_cases refresh : refreshDue cfg now entry = true
    · rw [if_pos refresh, if_pos ((refreshDue_iff fresh).mp refresh)]
      exact ⟨rfl, rfl, rfl, rfl⟩
    · rw [if_neg refresh, if_neg (mt (refreshDue_iff fresh).mpr refresh)]
      exact ⟨rfl, rfl, rfl, rfl⟩
  · rw [countP_solicits_maintainCache, if_pos ((any_refreshDue_iff now cache k).mpr due)]
  · rw [sent_maintainCache, List.mem_map] at sent
    obtain ⟨k, member, rfl⟩ := sent
    exact ⟨k, (any_refreshDue_iff now cache k).mp (List.mem_filter.mp member).2, rfl⟩

end Spec

end PyTcp
