import PyTcp.NdCache

namespace PyTcp

/-- The statement of `_maintain_cache` the sweep runs next for the key it is at. Each reads the
cache at most once, as `self.nd_cache[ip6_address]` does; `keyError` is where a read found no
entry and the loop raised. -/
inductive SweepPc
  | checkPermanent
  | checkAge
  | pop
  | checkRefreshAge
  | checkHitCount
  | resetHitCount
  | solicit
  | keyError
  deriving DecidableEq, Repr

/-- The sweep thread: the keys of `list(self.nd_cache)` still to visit, the first being the one
it is at, the next statement for it, and the solicitations sent so far. -/
structure SweepThread where
  keys : List Ip6Address
  pc : SweepPc
  sent : List Icmp6Tx
  deriving DecidableEq, Repr

/-- A sweep about to start: the snapshot of the cache's keys. -/
def SweepThread.start (cache : NdCache) : SweepThread := ⟨cache.ndCache.keys, .checkPermanent, []⟩

/-- A step of the race between one sweep and the receive path: the sweep runs one statement, or
the receive path runs `add_entry`. -/
inductive RaceEvent
  | sweep
  | addEntry (ip6Address : Ip6Address) (macAddress : MacAddress)
  deriving DecidableEq, Repr

/-- Whether the event is `add_entry` for the key `k`. -/
def RaceEvent.addsKey (k : Ip6Address) : RaceEvent → Bool
  | addEntry ip6Address _ => decide (ip6Address = k)
  | sweep => false

section Race

variable (cfg : Config) (ip6Host : List Ip6Host) (macUnicast : MacAddress) (now : Int)

/-- One statement of the loop body of `_maintain_cache` for the key the thread is at, every
clock read returning `now`. -/
def sweepStep (cache : NdCache) (thread : SweepThread) : NdCache × SweepThread :=
  match thread.keys with
  | [] => (cache, thread)
  | ip6Address :: rest =>
    let next : SweepThread := { thread with keys := rest, pc := .checkPermanent }
    match thread.pc, cache.ndCache.get ip6Address with
    | .keyError, _ => (cache, thread)
    | .solicit, _ =>
      (cache, { next with sent := thread.sent ++ [sendIcmp6NeighborSolicitation ip6Host macUnicast ip6Address] })
    | _, none => (cache, { thread with pc := .keyError })
    | .checkPermanent, some entry =>
      (cache, if entry.permanent then next else { thread with pc := .checkAge })
    | .checkAge, some entry =>
      (cache, if now - entry.creationTime > cfg.ndCacheEntryMaxAge then { thread with pc := .pop }
        else { thread with pc := .checkRefreshAge })
    | .pop, some _ => (⟨cache.ndCache.pop ip6Address⟩, next)
    | .checkRefreshAge, some entry =>
      (cache, if now - entry.creationTime > cfg.ndCacheEntryMaxAge - cfg.ndCacheEntryRefreshTime
        then { thread with pc := .checkHitCount } else next)
    | .checkHitCount, some entry =>
      (cache, if 0 < entry.hitCount then { thread with pc := .resetHitCount } else next)
    | .resetHitCount, some entry =>
      (⟨cache.ndCache.set ip6Address { entry with hitCount := 0 }⟩, { thread with pc := .solicit })

/-- One step of the race; `add_entry` reads the same clock as the sweep. -/
def raceStep (state : NdCache × SweepThread) : RaceEvent → NdCache × SweepThread
  | .sweep => sweepStep cfg ip6Host macUnicast now state.1 state.2
  | .addEntry k mac => (addEntry state.1 k mac now, state.2)

def raceRun (state : NdCache × SweepThread) : List RaceEvent → NdCache × SweepThread
  | [] => state
  | event :: events => raceRun (raceStep cfg ip6Host macUnicast now state event) events

end Race

section Steps

variable {cfg : Config} {ip6Host : List Ip6Host} {macUnicast : MacAddress} {now : Int}

@[simp]
theorem raceRun_nil (state : NdCache × SweepThread) :
    raceRun cfg ip6Host macUnicast now state [] = state := rfl

@[simp]
theorem raceRun_cons (state : NdCache × SweepThread) (event : RaceEvent) (events : List RaceEvent) :
    raceRun cfg ip6Host macUnicast now state (event :: events) =
      raceRun cfg ip6Host macUnicast now (raceStep cfg ip6Host macUnicast now state event) events :=
  rfl

theorem raceRun_append (state : NdCache × SweepThread) (pre post : List RaceEvent) :
    raceRun cfg ip6Host macUnicast now state (pre ++ post) =
      raceRun cfg ip6Host macUnicast now (raceRun cfg ip6Host macUnicast now state pre) post := by
  induction pre generalizing state with
  | nil => rfl
  | cons event pre ih => exact ih _

/-- A sweep statement changes the cache only at the key the thread is at. -/
theorem get_sweepStep_of_ne (cache : NdCache) (thread : SweepThread) {k j : Ip6Address}
    {rest : List Ip6Address} (at_k : thread.keys = k :: rest) (other : k ≠ j) :
    (sweepStep cfg ip6Host macUnicast now cache thread).1.ndCache.get j = cache.ndCache.get j := by
  unfold sweepStep
  rw [at_k]
  dsimp only
  split <;> simp [Dict.get_pop_of_ne _ other, Dict.get_set_of_ne _ _ other]

/-- At the key the thread is at, only the pop removes the entry and only the reset changes it. -/
theorem get_sweepStep_self (cache : NdCache) (thread : SweepThread) {k : Ip6Address}
    {rest : List Ip6Address} (at_k : thread.keys = k :: rest) (notPop : thread.pc ≠ .pop) :
    (sweepStep cfg ip6Host macUnicast now cache thread).1.ndCache.get k =
      if thread.pc = .resetHitCount then
        (cache.ndCache.get k).map fun entry => { entry with hitCount := 0 }
      else cache.ndCache.get k := by
  cases pc : thread.pc <;> cases present : cache.ndCache.get k <;>
    simp_all [sweepStep]

/-- Where a statement leaves the thread: at the same key, reaching the pop only from an age
check that found the entry expired, or at the first statement for the next key. -/
theorem sweepStep_thread (cache : NdCache) (thread : SweepThread) {k : Ip6Address}
    {rest : List Ip6Address} (at_k : thread.keys = k :: rest) :
    let after := (sweepStep cfg ip6Host macUnicast now cache thread).2
    (after.keys = k :: rest ∧ (after.pc = .pop → thread.pc = .checkAge ∧
      ∃ entry, cache.ndCache.get k = some entry ∧
        now - entry.creationTime > cfg.ndCacheEntryMaxAge)) ∨
    (after.keys = rest ∧ after.pc = .checkPermanent) := by
  cases pc : thread.pc <;> cases present : cache.ndCache.get k <;>
    simp only [sweepStep, at_k, pc, present] <;> (try split_ifs) <;> simp [*]

end Steps

section Survival

variable {cfg : Config} {ip6Host : List Ip6Host} {macUnicast : MacAddress} {now : Int}

/-- The entry `add_entry(k, mac)` wrote at `now` is in the cache, and the sweep is not about to
pop `k`. -/
def Survives (now : Int) (k : Ip6Address) (mac : MacAddress) (state : NdCache × SweepThread) :
    Prop :=
  state.1.ndCache.get k = some (CacheEntry.new mac now) ∧
    (state.2.keys.head? = some k → state.2.pc ≠ .pop)

/-- A sweep statement keeps a fresh entry: its age is `0`, so the age check never sends the
sweep to the pop; and the reset of its hit count leaves it as it was. -/
theorem survives_sweepStep (ageNonneg : 0 ≤ cfg.ndCacheEntryMaxAge) {k : Ip6Address}
    {mac : MacAddress} {state : NdCache × SweepThread} (kept : Survives now k mac state) :
    Survives now k mac (sweepStep cfg ip6Host macUnicast now state.1 state.2) := by
  obtain ⟨cache, thread⟩ := state
  obtain ⟨fresh, notPop⟩ := kept
  rcases keys : thread.keys with _ | ⟨j, rest⟩
  · simp only [sweepStep, keys]
    exact ⟨fresh, fun head => notPop (keys ▸ head)⟩
  · have notExpired : ∀ entry, cache.ndCache.get j = some entry → j = k →
        ¬(now - entry.creationTime > cfg.ndCacheEntryMaxAge) := by
      rintro entry present rfl
      rw [fresh, Option.some.injEq] at present
      subst present
      simp only [CacheEntry.new, sub_self, gt_iff_lt, not_lt]
      exact ageNonneg
    refine ⟨?_, ?_⟩
    · by_cases same : j = k
      · subst same
        rw [get_sweepStep_self cache thread keys (notPop (by simp [keys]))]
        split_ifs <;> simp [fresh, CacheEntry.new]
      · rw [get_sweepStep_of_ne cache thread keys same]
        exact fresh
    · rcases sweepStep_thread cache thread keys with ⟨atJ, popped⟩ | ⟨-, first⟩
      · intro head popNow
        obtain ⟨-, entry, present, stale⟩ := popped popNow
        rw [atJ] at head
        exact notExpired entry present (Option.some.inj head) stale
      · exact fun _ => by rw [first]; decide

theorem survives_raceStep (ageNonneg : 0 ≤ cfg.ndCacheEntryMaxAge) {k : Ip6Address}
    {mac : MacAddress} {state : NdCache × SweepThread} {event : RaceEvent}
    (notAdded : event.addsKey k = false) (kept : Survives now k mac state) :
    Survives now k mac (raceStep cfg ip6Host macUnicast now state event) := by
  cases event with
  | sweep => exact survives_sweepStep ageNonneg kept
  | addEntry j mac' =>
    simp only [RaceEvent.addsKey, decide_eq_false_iff_not] at notAdded
    exact ⟨by simp [raceStep, notAdded, kept.1], kept.2⟩

theorem survives_raceRun (ageNonneg : 0 ≤ cfg.ndCacheEntryMaxAge) {k : Ip6Address}
    {mac : MacAddress} (events : List RaceEvent) :
    ∀ state, (∀ event ∈ events, event.addsKey k = false) → Survives now k mac state →
      Survives now k mac (raceRun cfg ip6Host macUnicast now state events) := by
  induction events with
  | nil => exact fun _ _ kept => kept
  | cons event events ih =>
    exact fun state notAdded kept => ih _ (fun e member => notAdded e (List.mem_cons_of_mem _ member))
      (survives_raceStep ageNonneg (notAdded event (List.mem_cons_self _ _)) kept)

/-- In any interleaving of the sweep at `now` with `add_entry` calls, the entry an
`add_entry(k, mac)` writes stays in the cache as long as `k` is not re-added, unless the
add ran while the sweep, having found the previous entry under `k` expired, was about to
pop `k`: the pop then removes the fresh entry. -/
theorem addEntry_survives_sweep (ageNonneg : 0 ≤ cfg.ndCacheEntryMaxAge)
    (state : NdCache × SweepThread) (pre post : List RaceEvent) (k : Ip6Address) (mac : MacAddress)
    (notAtPop : (raceRun cfg ip6Host macUnicast now state pre).2.keys.head? = some k →
      (raceRun cfg ip6Host macUnicast now state pre).2.pc ≠ .pop)
    (notReadded : ∀ event ∈ post, event.addsKey k = false) :
    (raceRun cfg ip6Host macUnicast now state (pre ++ .addEntry k mac :: post)).1.ndCache.get k =
      some (CacheEntry.new mac now) := by
  rw [raceRun_append, raceRun_cons]
  have added : Survives now k mac (raceStep cfg ip6Host macUnicast now
      (raceRun cfg ip6Host macUnicast now state pre) (.addEntry k mac)) :=
    ⟨by simp [raceStep], notAtPop⟩
  exact (survives_raceRun ageNonneg post _ notReadded added).1

theorem addEntry_survives_sweep_before_age_check :
    let cache := addEntry NdCache.empty ⟨1, by decide⟩ ⟨10, by decide⟩ 0
    (raceRun ⟨60, 5⟩ [] ⟨1, by decide⟩ 100 (cache, SweepThread.start cache)
      ([.sweep] ++ .addEntry ⟨1, by decide⟩ ⟨20, by decide⟩ :: [.sweep, .sweep])).1.ndCache.get
        ⟨1, by decide⟩ = some (CacheEntry.new ⟨20, by decide⟩ 100) :=
  @addEntry_survives_sweep ⟨60, 5⟩ [] ⟨1, by decide⟩ 100 (by decide)
    (addEntry NdCache.empty ⟨1, by decide⟩ ⟨10, by decide⟩ 0,
      SweepThread.start (addEntry NdCache.empty ⟨1, by decide⟩ ⟨10, by decide⟩ 0))
    [.sweep] [.sweep, .sweep] ⟨1, by decide⟩ ⟨20, by decide⟩ (by decide) (by decide)

/-- The sweep at `100` finds the entry under `::1`, written at `0`, older than the maximum age
`60`; an `add_entry(::1, mac)` between that check and the pop writes a fresh entry, and the pop
removes it. -/
theorem sweep_pops_readded_entry :
    let cache := addEntry NdCache.empty ⟨1, by decide⟩ ⟨10, by decide⟩ 0
    let final := raceRun ⟨60, 5⟩ [] ⟨1, by decide⟩ 100 (cache, SweepThread.start cache)
      [.sweep, .sweep, .addEntry ⟨1, by decide⟩ ⟨20, by decide⟩, .sweep]
    final.2.keys = [] ∧ final.1.ndCache.get ⟨1, by decide⟩ = none := by
  decide

end Survival

section Refinement

variable {cfg : Config} {ip6Host : List Ip6Host} {macUnicast : MacAddress} {now : Int}

/-- Alone, the statements for one key present in the cache do what the loop body does. -/
theorem sweep_one_key (cache : NdCache) (sent : List Icmp6Tx) (k : Ip6Address)
    (rest : List Ip6Address) {entry : CacheEntry} (present : cache.ndCache.get k = some entry) :
    ∃ n, raceRun cfg ip6Host macUnicast now (cache, ⟨k :: rest, .checkPermanent, sent⟩)
        (List.replicate n .sweep) =
      ((maintainEntry cfg ip6Host macUnicast now (cache, sent) k).1,
        ⟨rest, .checkPermanent, (maintainEntry cfg ip6Host macUnicast now (cache, sent) k).2⟩) := by
  by_cases permanent : entry.permanent
  · exact ⟨1, by simp [raceStep, sweepStep, maintainEntry, present, permanent]⟩
  by_cases stale : now - entry.creationTime > cfg.ndCacheEntryMaxAge
  · exact ⟨3, by simp [raceStep, sweepStep, maintainEntry, present, permanent, stale]⟩
  by_cases window : now - entry.creationTime > cfg.ndCacheEntryMaxAge - cfg.ndCacheEntryRefreshTime
  · by_cases hit : 0 < entry.hitCount
    · exact ⟨6, by simp [raceStep, sweepStep, maintainEntry, present, permanent, stale, window, hit]⟩
    · exact ⟨4, by simp [raceStep, sweepStep, maintainEntry, present, permanent, stale, window, hit]⟩
  · exact ⟨3, by simp [raceStep, sweepStep, maintainEntry, present, permanent, stale, window]⟩

/-- Alone, the statements over keys that are distinct and all present do what the loop does. -/
theorem sweep_keys (keys : List Ip6Address) :
    ∀ (cache : NdCache) (sent : List Icmp6Tx), keys.Nodup →
      (∀ k ∈ keys, (cache.ndCache.get k).isSome) →
      ∃ n, raceRun cfg ip6Host macUnicast now (cache, ⟨keys, .checkPermanent, sent⟩)
          (List.replicate n .sweep) =
        ((keys.foldl (maintainEntry cfg ip6Host macUnicast now) (cache, sent)).1,
          ⟨[], .checkPermanent, (keys.foldl (maintainEntry cfg ip6Host macUnicast now) (cache, sent)).2⟩) := by
  induction keys with
  | nil => exact fun cache sent _ _ => ⟨0, rfl⟩
  | cons k rest ih =>
    intro cache sent nodup present
    obtain ⟨fresh, nodupRest⟩ := List.nodup_cons.mp nodup
    obtain ⟨entry, atK⟩ := Option.isSome_iff_exists.mp (present k (List.mem_cons_self _ _))
    obtain ⟨m, first⟩ := @sweep_one_key cfg ip6Host macUnicast now cache sent k rest entry atK
    let swept := maintainEntry cfg ip6Host macUnicast now (cache, sent) k
    have stillPresent : ∀ j ∈ rest, (swept.1.ndCache.get j).isSome := fun j member => by
      rw [maintainEntry_get, if_neg (fun (same : k = j) => fresh (same ▸ member))]
      exact present j (List.mem_cons_of_mem _ member)
    obtain ⟨n, later⟩ := ih swept.1 swept.2 nodupRest stillPresent
    exact ⟨m + n, by rw [List.replicate_add, raceRun_append, first, later]; rfl⟩

/-- Run with no `add_entry` in between, the statement-by-statement sweep of a snapshot of the
cache ends, and ends with the cache and the solicitations of `maintainCache`. -/
theorem sweep_alone_maintainCache (cache : NdCache) :
    ∃ n, raceRun cfg ip6Host macUnicast now (cache, SweepThread.start cache)
        (List.replicate n .sweep) =
      ((maintainCache cfg ip6Host macUnicast now cache).1,
        ⟨[], .checkPermanent, (maintainCache cfg ip6Host macUnicast now cache).2⟩) :=
  sweep_keys cache.ndCache.keys cache [] cache.ndCache.nodup
    fun k member => (Dict.mem_keys_iff _ k).mp member

end Refinement
section Snapshot

variable {cfg : Config} {ip6Host : List Ip6Host} {macUnicast : MacAddress} {now : Int}

/-- The keys the sweep has still to visit are distinct and all in the cache, and the sweep has
not raised. -/
def SnapshotLive (state : NdCache × SweepThread) : Prop :=
  state.2.keys.Nodup ∧ (∀ k ∈ state.2.keys, (state.1.ndCache.get k).isSome) ∧
    state.2.pc ≠ .keyError

theorem snapshotLive_start (cache : NdCache) : SnapshotLive (cache, SweepThread.start cache) :=
  ⟨cache.ndCache.nodup, fun k member => (Dict.mem_keys_iff _ k).mp member, nofun⟩

/-- A sweep statement keeps the snapshot live: it reads only the key it is at, which is
present, and its pop removes that key just as the thread moves past it. -/
theorem snapshotLive_sweepStep {state : NdCache × SweepThread} (live : SnapshotLive state) :
    SnapshotLive (sweepStep cfg ip6Host macUnicast now state.1 state.2) := by
  obtain ⟨cache, thread⟩ := state
  obtain ⟨nodup, present, notRaised⟩ := live
  rcases keys : thread.keys with _ | ⟨k, rest⟩
  · simp only [sweepStep, keys]
    exact ⟨nodup, present, notRaised⟩
  · dsimp only at present notRaised
    rw [keys] at nodup present
    obtain ⟨fresh, nodupRest⟩ := List.nodup_cons.mp nodup
    obtain ⟨entry, atK⟩ := Option.isSome_iff_exists.mp (present k (List.mem_cons_self _ _))
    have restPresent : ∀ j ∈ rest, (cache.ndCache.get j).isSome := fun j member =>
      present j (List.mem_cons_of_mem _ member)
    -- every statement but the pop and the reset leaves the cache; the thread stays or moves on
    cases pc : thread.pc <;> simp only [sweepStep, keys, pc, atK] <;> (try split_ifs) <;>
      first | exact ⟨nodupRest, restPresent, nofun⟩ | exact ⟨nodup, present, nofun⟩ | skip
    case pop =>
      refine ⟨nodupRest, fun j member => ?_, nofun⟩
      rw [Dict.get_pop_of_ne _ fun same : k = j => fresh (same ▸ member)]
      exact restPresent j member
    case resetHitCount =>
      refine ⟨nodup, fun j member => ?_, nofun⟩
      rw [Dict.get_set]
      split_ifs
      · rfl
      · exact present j member
    case keyError => exact absurd pc notRaised

theorem snapshotLive_raceRun (events : List RaceEvent) :
    ∀ state, SnapshotLive state → SnapshotLive (raceRun cfg ip6Host macUnicast now state events) := by
  induction events with
  | nil => exact fun _ live => live
  | cons event events ih =>
    intro state live
    refine ih _ ?_
    cases event with
    | sweep => exact snapshotLive_sweepStep live
    | addEntry k mac =>
      obtain ⟨nodup, present, notRaised⟩ := live
      refine ⟨nodup, fun j member => ?_, notRaised⟩
      simp only [raceStep, get_addEntry]
      split_ifs
      · rfl
      · exact present j member

/-- In every interleaving of a sweep with `add_entry` calls, no read of
`self.nd_cache[ip6_address]` and no pop of the sweep raises `KeyError`: the snapshot's keys are
distinct, `add_entry` never removes a key, and the sweep pops only the key it then leaves. -/
theorem sweep_never_raises (cache : NdCache) (events : List RaceEvent) :
    (raceRun cfg ip6Host macUnicast now (cache, SweepThread.start cache) events).2.pc ≠ .keyError :=
  (snapshotLive_raceRun events _ (snapshotLive_start cache)).2.2

end Snapshot

end PyTcp
