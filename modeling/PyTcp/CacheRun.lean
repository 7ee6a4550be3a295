import PyTcp.NdCache

namespace PyTcp

/-- A call on the ND cache with the clock reading it sees. `addEntry` also stands for the
calls the NS and NA branches of `_phrx_icmp6` make. -/
inductive CacheOp
  | addEntry (ip6Address : Ip6Address) (macAddress : MacAddress) (now : Int)
  | findEntry (ip6Address : Ip6Address) (now : Int)
  | maintainCache (now : Int)
  deriving DecidableEq, Repr

namespace CacheOp

def time : CacheOp → Int
  | addEntry _ _ now => now
  | findEntry _ now => now
  | maintainCache now => now

/-- Whether the call is `add_entry` for the key `k`. -/
def addsKey (k : Ip6Address) : CacheOp → Bool
  | addEntry ip6Address _ _ => decide (ip6Address = k)
  | _ => false

/-- What the call does to the entry under `k`: the cache is a map of independent keys. -/
def onKey (cfg : Config) (k : Ip6Address) : CacheOp → Option CacheEntry → Option CacheEntry
  | addEntry ip6Address mac now, entry =>
    if ip6Address = k then some (CacheEntry.new mac now) else entry
  | findEntry ip6Address _, entry =>
    if ip6Address = k then entry.map fun e => { e with hitCount := e.hitCount + 1 } else entry
  | maintainCache now, entry => sweepEntry cfg now entry

end CacheOp

/-- One call of a run: the call, the MAC it returned and what it sent. -/
structure CacheCall where
  op : CacheOp
  found : Option MacAddress
  sent : List Icmp6Tx

section Runs

variable (cfg : Config) (ip6Host : List Ip6Host) (macUnicast : MacAddress)

/-- One call on the cache. -/
def cacheStep (cache : NdCache) : CacheOp → Outcome
  | .addEntry k mac now => ⟨addEntry cache k mac now, none, []⟩
  | .findEntry k _ => findEntry ip6Host macUnicast cache k
  | .maintainCache now =>
    ⟨(maintainCache cfg ip6Host macUnicast now cache).1, none,
      (maintainCache cfg ip6Host macUnicast now cache).2⟩

/-- The cache after a run of calls. -/
def cacheRun (cache : NdCache) : List CacheOp → NdCache
  | [] => cache
  | op :: ops => cacheRun (cacheStep cfg ip6Host macUnicast cache op).cache ops

/-- The calls of a run, each with what it returned and sent. -/
def cacheCalls (cache : NdCache) : List CacheOp → List CacheCall
  | [] => []
  | op :: ops =>
    let out := cacheStep cfg ip6Host macUnicast cache op
    ⟨op, out.found, out.sent⟩ :: cacheCalls out.cache ops

end Runs

section Keys

variable {cfg : Config} {ip6Host : List Ip6Host} {macUnicast : MacAddress}

theorem get_cacheStep (cache : NdCache) (op : CacheOp) (k : Ip6Address) :
    (cacheStep cfg ip6Host macUnicast cache op).cache.ndCache.get k =
      op.onKey cfg k (cache.ndCache.get k) := by
  cases op with
  | addEntry j mac now => simp [cacheStep, CacheOp.onKey]
  | findEntry j now =>
    by_cases same : j = k
    · subst same; simp [cacheStep, CacheOp.onKey, get_findEntry]
    · simp [cacheStep, CacheOp.onKey, get_findEntry, same]
  | maintainCache now => simp [cacheStep, CacheOp.onKey, get_maintainCache]

/-- Each key of the cache follows its own calls: the run seen from one key. -/
theorem get_cacheRun (cache : NdCache) (ops : List CacheOp) (k : Ip6Address) :
    (cacheRun cfg ip6Host macUnicast cache ops).ndCache.get k =
      ops.foldl (fun entry op => op.onKey cfg k entry) (cache.ndCache.get k) := by
  induction ops generalizing cache with
  | nil => rfl
  | cons op ops ih => rw [cacheRun, ih, get_cacheStep, List.foldl_cons]

theorem onKey_of_not_adds {op : CacheOp} {k : Ip6Address} (other : op.addsKey k = false)
    (entry : Option CacheEntry) :
    op.onKey cfg k entry = entry ∨ (∃ j now, op = .findEntry j now ∧
      op.onKey cfg k entry = entry.map fun e => { e with hitCount := e.hitCount + 1 }) ∨
      ∃ now, op = .maintainCache now ∧ op.onKey cfg k entry = sweepEntry cfg now entry := by
  cases op with
  | addEntry j mac now =>
    simp only [CacheOp.addsKey, decide_eq_false_iff_not] at other
    simp [CacheOp.onKey, other]
  | findEntry j now =>
    by_cases same : j = k <;> simp [CacheOp.onKey, same]
  | maintainCache now => simp [CacheOp.onKey]

end Keys

section Freshness

variable {cfg : Config} {ip6Host : List Ip6Host} {macUnicast : MacAddress}

/-- The entry `add_entry(k, mac)` made at `t0`, hit or refreshed since but not replaced. -/
def AddedAt (mac : MacAddress) (t0 : Int) (entry : Option CacheEntry) : Prop :=
  ∃ e, entry = some e ∧ e.macAddress = mac ∧ e.creationTime = t0 ∧ e.permanent = false

/-- A permanent entry with link address `mac`. -/
def PermanentWith (mac : MacAddress) (entry : Option CacheEntry) : Prop :=
  ∃ e, entry = some e ∧ e.macAddress = mac ∧ e.permanent = true

theorem addedAt_onKey {mac : MacAddress} {t0 t : Int} {k : Ip6Address} {op : CacheOp}
    {entry : Option CacheEntry} (added : AddedAt mac t0 entry) (other : op.addsKey k = false)
    (before : op.time ≤ t) (young : t - t0 ≤ cfg.ndCacheEntryMaxAge) :
    AddedAt mac t0 (op.onKey cfg k entry) := by
  obtain ⟨e, rfl, atMac, atTime, notPermanent⟩ := added
  rcases onKey_of_not_adds other (some e) with same | ⟨j, now, rfl, found⟩ | ⟨now, rfl, swept⟩
  · exact ⟨e, same, atMac, atTime, notPermanent⟩
  · exact ⟨_, found, atMac, atTime, notPermanent⟩
  · have kept : expired cfg now e = false := by
      simp only [CacheOp.time] at before
      simp only [expired, notPermanent, atTime, Bool.not_false, Bool.true_and, decide_eq_false_iff_not]
      omega
    rw [swept, sweepEntry_of_not_expired kept]
    split
    · exact ⟨_, rfl, atMac, atTime, notPermanent⟩
    · exact ⟨e, rfl, atMac, atTime, notPermanent⟩

theorem permanentWith_onKey {mac : MacAddress} {k : Ip6Address} {op : CacheOp}
    {entry : Option CacheEntry} (kept : PermanentWith mac entry) (other : op.addsKey k = false) :
    PermanentWith mac (op.onKey cfg k entry) := by
  obtain ⟨e, rfl, atMac, permanent⟩ := kept
  rcases onKey_of_not_adds other (some e) with same | ⟨j, now, rfl, found⟩ | ⟨now, rfl, swept⟩
  · exact ⟨e, same, atMac, permanent⟩
  · exact ⟨_, found, atMac, permanent⟩
  · rw [swept, sweepEntry_of_not_expired (expired_of_permanent permanent),
      refreshDue_of_permanent permanent]
    exact ⟨e, rfl, atMac, permanent⟩

theorem addedAt_foldl {mac : MacAddress} {t0 t : Int} {k : Ip6Address}
    (young : t - t0 ≤ cfg.ndCacheEntryMaxAge) :
    ∀ (ops : List CacheOp) (entry : Option CacheEntry),
      (∀ op ∈ ops, op.addsKey k = false ∧ op.time ≤ t) → AddedAt mac t0 entry →
      AddedAt mac t0 (ops.foldl (fun e op => op.onKey cfg k e) entry)
  | [], _, _, added => added
  | op :: ops, _, calls, added =>
    have head := calls op (List.mem_cons_self _ _)
    addedAt_foldl young ops _ (fun o inner => calls o (List.mem_cons_of_mem _ inner))
      (addedAt_onKey added head.1 head.2 young)

theorem permanentWith_foldl {mac : MacAddress} {k : Ip6Address} :
    ∀ (ops : List CacheOp) (entry : Option CacheEntry), (∀ op ∈ ops, op.addsKey k = false) →
      PermanentWith mac entry → PermanentWith mac (ops.foldl (fun e op => op.onKey cfg k e) entry)
  | [], _, _, kept => kept
  | op :: ops, _, calls, kept =>
    permanentWith_foldl ops _ (fun o inner => calls o (List.mem_cons_of_mem _ inner))
      (permanentWith_onKey kept (calls op (List.mem_cons_self _ _)))

/-- An entry added at `t0` and never re-added is found, with its MAC and with no solicitation,
at every time up to `t0 + max_age`, whatever calls on other keys and sweeps (one at exactly
`t0 + max_age` included) come before; a permanent entry is found for as long as its key is not
re-added. -/
theorem findEntry_after_addEntry :
    (∀ (cache : NdCache) (pre mid : List CacheOp) (k : Ip6Address) (mac : MacAddress) (t0 t : Int),
      ((pre ++ CacheOp.addEntry k mac t0 :: mid ++ [CacheOp.findEntry k t]).map
        CacheOp.time).Pairwise (· ≤ ·) →
      (∀ op ∈ mid, op.addsKey k = false) → t - t0 ≤ cfg.ndCacheEntryMaxAge →
      let lookup := findEntry ip6Host macUnicast
        (cacheRun cfg ip6Host macUnicast cache (pre ++ CacheOp.addEntry k mac t0 :: mid)) k
      lookup.found = some mac ∧ lookup.sent = []) ∧
    ∀ (cache : NdCache) (ops : List CacheOp) (k : Ip6Address) (entry : CacheEntry),
      cache.ndCache.get k = some entry → entry.permanent = true →
      (∀ op ∈ ops, op.addsKey k = false) →
      let lookup := findEntry ip6Host macUnicast (cacheRun cfg ip6Host macUnicast cache ops) k
      lookup.found = some entry.macAddress ∧ lookup.sent = [] := by
  refine ⟨fun cache pre mid k mac t0 t clock notReadded young => ?_,
    fun cache ops k entry present permanent notReadded => ?_⟩
  · have ordered : ∀ op ∈ mid, op.time ≤ t := by
      rw [List.map_append, List.pairwise_append] at clock
      exact fun op member => clock.2.2 _ (List.mem_map_of_mem _ (by simp [member])) _
        (by simp [CacheOp.time])
    have added : AddedAt mac t0 ((CacheOp.addEntry k mac t0).onKey cfg k
        (pre.foldl (fun e op => op.onKey cfg k e) (cache.ndCache.get k))) :=
      ⟨CacheEntry.new mac t0, by simp [CacheOp.onKey], rfl, rfl, rfl⟩
    obtain ⟨e, atK, atMac, -⟩ :=
      addedAt_foldl young mid _ (fun op member => ⟨notReadded op member, ordered op member⟩) added
    refine findEntry_of_present ⟨e, ?_, atMac⟩
    rw [get_cacheRun, List.foldl_append, List.foldl_cons]
    exact atK
  · obtain ⟨e, atK, atMac, -⟩ :=
      permanentWith_foldl ops _ notReadded ⟨entry, present, rfl, permanent⟩
    exact findEntry_of_present ⟨e, by rw [get_cacheRun]; exact atK, atMac⟩

theorem findEntry_after_addEntry_at_max_age :
    let lookup := findEntry [] ⟨1, by decide⟩ (cacheRun ⟨60, 5⟩ [] ⟨1, by decide⟩ NdCache.empty
      ([] ++ CacheOp.addEntry ⟨1, by decide⟩ ⟨2, by decide⟩ 0 :: [CacheOp.maintainCache 60]))
      ⟨1, by decide⟩
    lookup.found = some ⟨2, by decide⟩ ∧ lookup.sent = [] :=
  (@findEntry_after_addEntry ⟨60, 5⟩ [] ⟨1, by decide⟩).1 NdCache.empty [] [.maintainCache 60]
    ⟨1, by decide⟩ ⟨2, by decide⟩ 0 60 (by decide) (by decide) (by decide)

end Freshness

section Age

variable {cfg : Config} {ip6Host : List Ip6Host} {macUnicast : MacAddress}

/-- The time of the last sweep, `last` if the call is not one. -/
def CacheOp.sweepTime (last : Int) : CacheOp → Int
  | maintainCache now => now
  | _ => last

/-- The time of the last sweep of a run, or `start` when it has none. -/
def lastSweep (start : Int) (ops : List CacheOp) : Int := ops.foldl CacheOp.sweepTime start

/-- The clock reading of the last `add_entry` for `k`, `last` if the call is not one. -/
def CacheOp.addTime (k : Ip6Address) (last : Option Int) : CacheOp → Option Int
  | addEntry ip6Address _ now => if ip6Address = k then some now else last
  | _ => last

/-- The clock reading of the last `add_entry` for `k` in a run, `none` when it has none. -/
def lastAddTime (k : Ip6Address) (ops : List CacheOp) : Option Int :=
  ops.foldl (CacheOp.addTime k) none

/-- The entry under a key is the one its last `add_entry`, at `added`, made: not permanent and
still with that creation time; and it was at most `max_age` old at the last sweep `last`. -/
def SweptSince (cfg : Config) (last : Int) (added : Option Int) (entry : Option CacheEntry) :
    Prop :=
  ∀ e, entry = some e → e.permanent = false ∧ added = some e.creationTime ∧
    last - e.creationTime ≤ cfg.ndCacheEntryMaxAge

theorem sweptSince_onKey {last : Int} {added : Option Int} {k : Ip6Address} {op : CacheOp}
    {entry : Option CacheEntry} (ageNonneg : 0 ≤ cfg.ndCacheEntryMaxAge)
    (swept : SweptSince cfg last added entry) (after : last ≤ op.time) :
    SweptSince cfg (op.sweepTime last) (op.addTime k added) (op.onKey cfg k entry) := by
  intro e atK
  cases op with
  | addEntry j mac now =>
    by_cases same : j = k
    · simp only [CacheOp.onKey, CacheOp.addTime, if_pos same, Option.some.injEq] at atK ⊢
      subst atK
      simp only [CacheOp.sweepTime, CacheEntry.new, CacheOp.time, true_and] at after ⊢
      omega
    · simp only [CacheOp.onKey, CacheOp.addTime, if_neg same] at atK ⊢
      exact swept e atK
  | findEntry j now =>
    simp only [CacheOp.onKey] at atK
    split at atK
    · obtain ⟨old, atOld, rfl⟩ := Option.map_eq_some'.mp atK
      exact swept old atOld
    · exact swept e atK
  | maintainCache now =>
    cases entry with
    | none => cases atK
    | some old =>
      obtain ⟨kept, rfl⟩ := sweepEntry_eq_some atK
      obtain ⟨notPermanent, created, -⟩ := swept old rfl
      have fresh : now - old.creationTime ≤ cfg.ndCacheEntryMaxAge := by
        simpa [expired, notPermanent] using kept
      -- the refresh resets the hit count only: the flag and the creation time stay
      split <;> exact ⟨notPermanent, created, fresh⟩

theorem sweptSince_foldl {k : Ip6Address} {t : Int} (ageNonneg : 0 ≤ cfg.ndCacheEntryMaxAge) :
    ∀ (ops : List CacheOp) (entry : Option CacheEntry) (last clock : Int) (added : Option Int),
      SweptSince cfg last added entry → last ≤ clock →
      (clock :: ops.map CacheOp.time ++ [t]).Pairwise (· ≤ ·) →
      SweptSince cfg (lastSweep last ops) (ops.foldl (CacheOp.addTime k) added)
        (ops.foldl (fun e op => op.onKey cfg k e) entry) ∧ lastSweep last ops ≤ t
  | [], _, _, _, _, swept, early, ordered => ⟨swept, early.trans (by simpa using ordered)⟩
  | op :: ops, entry, last, clock, added, swept, early, ordered => by
    obtain ⟨first, rest⟩ := List.pairwise_cons.mp ordered
    have next : clock ≤ op.time := first _ (List.mem_cons_self _ _)
    have later : op.sweepTime last ≤ op.time := by
      cases op <;> simp only [CacheOp.sweepTime, CacheOp.time] at next ⊢ <;> omega
    exact sweptSince_foldl ageNonneg ops _ _ op.time _
      (sweptSince_onKey ageNonneg swept (early.trans next)) later rest

/-- In a run from the empty cache over a clock that never goes back, at every time `t` no
later than `P` after the last sweep (as in any run swept at least every `P`), every entry is
the one the last `add_entry` of its key made, not permanent and still carrying that call's
clock reading as its creation time, and it is at most `max_age + P` old: neither a lookup nor
a refresh ever extends a lifetime. -/
theorem entry_age_le_max_age_add_period (ageNonneg : 0 ≤ cfg.ndCacheEntryMaxAge)
    (start P t : Int) (ops : List CacheOp)
    (clock : (start :: ops.map CacheOp.time ++ [t]).Pairwise (· ≤ ·))
    (period : t ≤ lastSweep start ops + P) (k : Ip6Address) (entry : CacheEntry)
    (present : (cacheRun cfg ip6Host macUnicast NdCache.empty ops).ndCache.get k = some entry) :
    entry.permanent = false ∧ lastAddTime k ops = some entry.creationTime ∧
      t - entry.creationTime ≤ cfg.ndCacheEntryMaxAge + P := by
  rw [get_cacheRun] at present
  have empty : SweptSince cfg start none (NdCache.empty.ndCache.get k) := fun e atK => by cases atK
  obtain ⟨swept, _⟩ := sweptSince_foldl ageNonneg ops _ start start none empty le_rfl clock
  obtain ⟨notPermanent, created, bound⟩ := swept entry present
  exact ⟨notPermanent, created, by omega⟩

theorem entry_age_le_max_age_add_period_one_second :
    false = false ∧ lastAddTime ⟨1, by decide⟩
        [.addEntry ⟨1, by decide⟩ ⟨2, by decide⟩ 0, .maintainCache 1] = some 0 ∧
      (2 : Int) - 0 ≤ 60 + 1 :=
  @entry_age_le_max_age_add_period ⟨60, 5⟩ [] ⟨1, by decide⟩ (by decide) 0 1 2
    [.addEntry ⟨1, by decide⟩ ⟨2, by decide⟩ 0, .maintainCache 1] (by decide) (by decide)
    ⟨1, by decide⟩ ⟨⟨2, by decide⟩, false, 0, 0⟩ (by decide)

/-- Under a negative maximum age an entry is over the bound as soon as it is added, before any
sweep can drop it: `add_entry` at `0` with `nd_cache_entry_max_age = -10`, seen at `0` with the
start of the run as its last sweep and `P = 1`. -/
theorem entry_age_exceeds_negative_max_age :
    let ops := [CacheOp.addEntry ⟨1, by decide⟩ ⟨2, by decide⟩ 0]
    ((0 : Int) :: ops.map CacheOp.time ++ [0]).Pairwise (· ≤ ·) ∧ (0 : Int) ≤ lastSweep 0 ops + 1 ∧
      (cacheRun ⟨-10, 5⟩ [] ⟨1, by decide⟩ NdCache.empty ops).ndCache.get ⟨1, by decide⟩ =
        some ⟨⟨2, by decide⟩, false, 0, 0⟩ ∧
      ¬(0 : Int) - 0 ≤ -10 + 1 := by
  decide

end Age

end PyTcp
