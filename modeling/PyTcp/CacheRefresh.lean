import PyTcp.CacheRun

namespace PyTcp

/-- Whether the call is `find_entry` for the key `k`. -/
def CacheOp.looksUp (k : Ip6Address) : CacheOp → Bool
  | findEntry ip6Address _ => decide (ip6Address = k)
  | _ => false

/-- The solicitations for `k` a call sent, if it is a sweep. -/
def CacheCall.refreshesOf (k : Ip6Address) (call : CacheCall) : Nat :=
  match call.op with
  | .maintainCache _ => call.sent.countP (Icmp6Tx.solicits k)
  | _ => 0

/-- The solicitations for `k` the sweeps among the calls sent. -/
def refreshSolicitations (k : Ip6Address) (calls : List CacheCall) : Nat :=
  (calls.map (CacheCall.refreshesOf k)).sum

/-- The `find_entry(k)` calls that returned a MAC. -/
def hits (k : Ip6Address) (calls : List CacheCall) : Nat :=
  calls.countP fun call => call.op.looksUp k && call.found.isSome

/-- The calls after the last `add_entry(k)`; all of them when there is none. -/
def sinceLastAdd (k : Ip6Address) : List CacheCall → List CacheCall
  | [] => []
  | call :: calls =>
    if calls.any (·.op.addsKey k) then sinceLastAdd k calls
    else if call.op.addsKey k then calls else call :: calls

/-- The hit count of the entry, zero when there is none. -/
def pendingHits (entry : Option CacheEntry) : Nat := (entry.map CacheEntry.hitCount).getD 0

section Refresh

variable {cfg : Config} {ip6Host : List Ip6Host} {macUnicast : MacAddress}

theorem any_addsKey_cacheCalls (cache : NdCache) (ops : List CacheOp) (k : Ip6Address) :
    (cacheCalls cfg ip6Host macUnicast cache ops).any (·.op.addsKey k) = ops.any (·.addsKey k) := by
  induction ops generalizing cache with
  | nil => rfl
  | cons op ops ih => simp only [cacheCalls, List.any_cons, ih]

/-- One call that is not `add_entry(k)`: a sweep solicits `k` only by spending the hits
recorded in `k`'s entry, and only a `find_entry(k)` that finds the entry records one. -/
theorem refreshesOf_add_pendingHits_le (cache : NdCache) {op : CacheOp} {k : Ip6Address}
    (other : op.addsKey k = false) :
    let out := cacheStep cfg ip6Host macUnicast cache op
    CacheCall.refreshesOf k ⟨op, out.found, out.sent⟩ + pendingHits (out.cache.ndCache.get k) ≤
      (if op.looksUp k && out.found.isSome then 1 else 0) + pendingHits (cache.ndCache.get k) := by
  intro out
  rw [get_cacheStep]
  cases op with
  | addEntry j mac now =>
    simp only [CacheOp.addsKey, decide_eq_false_iff_not] at other
    simp [CacheCall.refreshesOf, CacheOp.onKey, other, CacheOp.looksUp]
  | findEntry j now =>
    by_cases same : j = k
    · subst same
      cases present : cache.ndCache.get j with
      | none =>
        simp [out, cacheStep, CacheCall.refreshesOf, CacheOp.onKey, present, pendingHits,
          findEntry_of_get_none]
      | some e =>
        simp [out, cacheStep, CacheCall.refreshesOf, CacheOp.onKey, CacheOp.looksUp, present,
          pendingHits, findEntry_of_get_some]
        omega
    · simp [CacheCall.refreshesOf, CacheOp.onKey, CacheOp.looksUp, same]
  | maintainCache now =>
    simp only [CacheCall.refreshesOf, out, cacheStep, countP_solicits_maintainCache, CacheOp.onKey,
      CacheOp.looksUp, Bool.false_and, Bool.false_eq_true, if_false, zero_add]
    cases present : cache.ndCache.get k with
    | none => simp [sweepEntry]
    | some e =>
      cases stale : expired cfg now e
      · rw [sweepEntry_of_not_expired stale]
        by_cases due : refreshDue cfg now e
        · have hit : 0 < e.hitCount := by
            simp only [refreshDue, Bool.and_eq_true, decide_eq_true_eq] at due
            exact due.2
          simp [due, pendingHits]; omega
        · simp [due, pendingHits]
      · simp [sweepEntry, stale, refreshDue_of_expired stale, pendingHits]

/-- Along calls that never re-add `k`, sweep solicitations for `k` plus the hits still pending
in its entry never exceed the hits found plus those pending at the start. -/
theorem refreshSolicitations_add_pendingHits_le (k : Ip6Address) :
    ∀ (cache : NdCache) (ops : List CacheOp), (∀ op ∈ ops, op.addsKey k = false) →
      refreshSolicitations k (cacheCalls cfg ip6Host macUnicast cache ops) +
          pendingHits ((cacheRun cfg ip6Host macUnicast cache ops).ndCache.get k) ≤
        hits k (cacheCalls cfg ip6Host macUnicast cache ops) + pendingHits (cache.ndCache.get k)
  | cache, [], _ => by simp [refreshSolicitations, hits, cacheCalls, cacheRun]
  | cache, op :: ops, notAdded => by
    have step := @refreshesOf_add_pendingHits_le cfg ip6Host macUnicast cache op k
      (notAdded op (List.mem_cons_self _ _))
    have rest := refreshSolicitations_add_pendingHits_le k
      (cacheStep cfg ip6Host macUnicast cache op).cache ops
      (fun o inner => notAdded o (List.mem_cons_of_mem _ inner))
    simp only [refreshSolicitations, hits, cacheCalls, cacheRun, List.map_cons, List.sum_cons,
      List.countP_cons] at rest step ⊢
    split_ifs at step ⊢ <;> omega

theorem refreshSolicitations_sinceLastAdd_le (k : Ip6Address) :
    ∀ (cache : NdCache) (ops : List CacheOp),
      refreshSolicitations k (sinceLastAdd k (cacheCalls cfg ip6Host macUnicast cache ops)) ≤
        hits k (sinceLastAdd k (cacheCalls cfg ip6Host macUnicast cache ops)) +
          if ops.any (·.addsKey k) then 0 else pendingHits (cache.ndCache.get k)
  | cache, [] => by simp [sinceLastAdd, cacheCalls, refreshSolicitations, hits]
  | cache, op :: ops => by
    have later := @any_addsKey_cacheCalls cfg ip6Host macUnicast
      (cacheStep cfg ip6Host macUnicast cache op).cache ops k
    simp only [cacheCalls, sinceLastAdd, later]
    by_cases readded : ops.any (·.addsKey k)
    · simpa [readded] using
        refreshSolicitations_sinceLastAdd_le k (cacheStep cfg ip6Host macUnicast cache op).cache ops
    · have notAdded : ∀ o ∈ ops, o.addsKey k = false := by simpa using readded
      by_cases adds : op.addsKey k
      · have fresh : pendingHits ((cacheStep cfg ip6Host macUnicast cache op).cache.ndCache.get k) = 0 := by
          cases op with
          | addEntry j mac now =>
            simp only [CacheOp.addsKey, decide_eq_true_eq] at adds
            simp [adds, cacheStep, pendingHits, CacheEntry.new]
          | _ => simp [CacheOp.addsKey] at adds
        have bound := @refreshSolicitations_add_pendingHits_le cfg ip6Host macUnicast k
          (cacheStep cfg ip6Host macUnicast cache op).cache ops notAdded
        simp only [readded, adds, Bool.false_eq_true, if_false, if_true, List.any_cons,
          Bool.true_or] at bound ⊢
        omega
      · have bound := @refreshSolicitations_add_pendingHits_le cfg ip6Host macUnicast k cache
          (op :: ops)
          (fun o member => by
            rcases List.mem_cons.mp member with rfl | inner
            · simpa using adds
            · exact notAdded o inner)
        simp only [readded, adds, Bool.false_eq_true, if_false, List.any_cons, Bool.false_or,
          cacheCalls] at bound ⊢
        omega

/-- In every run from the empty cache, the refresh solicitations the sweeps send for a key
since its entry was last created never outnumber the lookups of that key that found it:
an entry never looked up is never refreshed, and one lookup pays for at most one refresh. -/
theorem refreshSolicitations_le_hits (ops : List CacheOp) (k : Ip6Address) :
    refreshSolicitations k (sinceLastAdd k (cacheCalls cfg ip6Host macUnicast NdCache.empty ops)) ≤
      hits k (sinceLastAdd k (cacheCalls cfg ip6Host macUnicast NdCache.empty ops)) := by
  have bound := @refreshSolicitations_sinceLastAdd_le cfg ip6Host macUnicast k NdCache.empty ops
  simpa [pendingHits, NdCache.empty] using bound

end Refresh

end PyTcp
