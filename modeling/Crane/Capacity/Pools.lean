/-
Pool limits under concurrent admissions.

Admissions of different groups lock different group rows; they meet on the row of the pool they share. The protocol is:
whoever holds the pool row may rely on the pool's use not growing, because use grows only where a reservation is
inserted, and only `SetTarget` inserts reservations, after it took the pool's lock. So the use an admission has read can
only have fallen by the time it commits, and what it adds to it fits.
-/
import Crane.Capacity.Concurrent

namespace Crane.Capacity

open Tx RowStore Interleave

/-! ## Use of a pool -/

def Reservation.amount (r : Reservation) : Resource → ℤ
  | .vcpu => r.vcpu
  | .memoryMib => r.memoryMib
  | .nodes => r.nodes

/-- what one node of a group takes -/
def NodeGroup.amount (g : NodeGroup) : Resource → ℤ
  | .vcpu => g.vcpu
  | .memoryMib => g.memoryMib
  | .nodes => 1

theorem Reservation.amount_nonneg (r : Reservation) (q : Resource) : 0 ≤ r.amount q := by
  have hv := r.check_vcpu.1
  have hm := r.check_memory.1
  have hn := r.check_nodes
  cases q <;> simp only [Reservation.amount] <;> omega

theorem Reservation.amount_congr {r r' : Reservation} (h : r'.refs = r.refs) (q : Resource) : r'.amount q = r.amount q := by
  simp only [Reservation.refs, Prod.mk.injEq] at h
  cases q <;> simp [Reservation.amount, h]

theorem usedBy_get (d : DB) (pool : String) (q : Resource) :
    (usedBy d pool).get q = d.reservations.sum fun r => if unreleased d pool r then r.amount q else 0 := by
  cases q <;> rfl

theorem NodePool.limits_range (p : NodePool) (q : Resource) : 0 ≤ p.limits.get q ∧ p.limits.get q ≤ maxInt64 := by
  cases q
  · exact p.check_vcpu
  · exact p.check_memory
  · exact p.check_nodes

theorem usedBy_nonneg (d : DB) (pool : String) (q : Resource) : 0 ≤ (usedBy d pool).get q := by
  rw [usedBy_get]
  refine Table.sum_nonneg fun r => ?_
  split_ifs
  · exact r.amount_nonneg q
  · exact le_rfl

/-! ## The arithmetic of the check -/

/-- `checkReservations` with every operation checked, in the order of the source -/
def reservationsFit (p : Policy) (used : Resources) (nodes : ℤ) : Option Bool := do
  let maxVcpu ← quo64 maxInt64 p.group.vcpu
  if maxVcpu < nodes then return false
  let maxMemory ← quo64 maxInt64 p.group.memoryMib
  if maxMemory < nodes then return false
  let vcpu ← in64 (nodes * p.group.vcpu)
  let memoryMib ← in64 (nodes * p.group.memoryMib)
  let freeVcpu ← in64 (p.poolLimit.vcpu - used.vcpu)
  if freeVcpu < vcpu then return false
  let freeMemory ← in64 (p.poolLimit.memoryMib - used.memoryMib)
  if freeMemory < memoryMib then return false
  let freeNodes ← in64 (p.poolLimit.nodes - used.nodes)
  return decide (nodes ≤ freeNodes)

theorem quo64_max {v : ℤ} (hv : 0 < v) : quo64 maxInt64 v = some (maxInt64 / v) := by
  have hmax : (0 : ℤ) ≤ maxInt64 := by decide
  have hle : maxInt64 / v ≤ maxInt64 := Int.ediv_le_self _ hmax
  have hge : 0 ≤ maxInt64 / v := Int.ediv_nonneg hmax hv.le
  rw [quo64, if_neg hv.ne', Int.tdiv_eq_ediv_of_nonneg hmax]
  exact in64_some.mpr ⟨by unfold maxInt64 at *; omega, hle, rfl⟩

/-- behind the guard a product does not overflow -/
theorem in64_mul {n v : ℤ} (hv : 0 < v) (hn : 0 < n) (h : n ≤ maxInt64 / v) : in64 (n * v) = some (n * v) := by
  have hprod : n * v ≤ maxInt64 := Int.mul_le_of_le_ediv hv h
  have hpos : 0 < n * v := Int.mul_pos hn hv
  exact in64_some.mpr ⟨by unfold maxInt64 at *; omega, hprod, rfl⟩

/-- nor does what is left of a limit -/
theorem in64_sub {used limit : ℤ} (h₀ : 0 ≤ used) (h₁ : used ≤ limit) (h₂ : limit ≤ maxInt64) :
    in64 (limit - used) = some (limit - used) :=
  in64_some.mpr ⟨by unfold maxInt64 at *; omega, by omega, rfl⟩

/-- what the guard refuses does not fit either -/
theorem not_fits_of_guard {n v used limit : ℤ} (hv : 0 < v) (h₀ : 0 ≤ used) (h₂ : limit ≤ maxInt64)
    (h : ¬n ≤ maxInt64 / v) : ¬used + n * v ≤ limit := fun hle =>
  h ((Int.le_ediv_iff_mul_le hv).mpr (by omega))

section Exact
variable {p : Policy} {pool : NodePool} {used : Resources} {nodes : ℤ}

/-- if no operation overflows or divides by zero, the check is what it computes -/
theorem fits_iff_checked {fits : Bool} (h : reservationsFit p used nodes = some fits) :
    Fits p used nodes ↔ fits = true := by
  have tdiv_of_quo {v m : ℤ} (hq : quo64 maxInt64 v = some m) : maxInt64.tdiv v = m := by
    unfold quo64 at hq
    split_ifs at hq
    exact (in64_some.mp hq).2.2.symm
  simp only [reservationsFit, Option.bind_eq_bind, Option.bind_eq_some_iff] at h
  obtain ⟨_, hv, h⟩ := h
  unfold Fits
  rw [tdiv_of_quo hv]
  split_ifs at h with hgv
  · simp_all
  obtain ⟨_, hm, h⟩ := Option.bind_eq_some_iff.mp h
  rw [tdiv_of_quo hm]
  split_ifs at h with hgm
  · simp_all
  simp only [Option.bind_eq_some_iff] at h
  obtain ⟨_, hmv, _, hmm, _, hsv, h⟩ := h
  rw [wrap64_in64 hmv, wrap64_in64 hmm, wrap64_in64 hsv]
  split_ifs at h with hfv
  · simp_all
  obtain ⟨_, hsm, h⟩ := Option.bind_eq_some_iff.mp h
  rw [wrap64_in64 hsm]
  split_ifs at h with hfm
  · simp_all
  obtain ⟨_, hsn, h⟩ := Option.bind_eq_some_iff.mp h
  rw [wrap64_in64 hsn]
  obtain rfl := Option.some.inj h
  simp_all

/-- no operation overflows or divides by zero, and the answer is that of unbounded integers -/
theorem reservationsFit_exact (hl : p.poolLimit = pool.limits) (hn : 0 < nodes) (h₀ : ∀ q, 0 ≤ used.get q)
    (h₁ : ∀ q, used.get q ≤ pool.limits.get q) : ∃ fits, reservationsFit p used nodes = some fits ∧
      (fits = true ↔ ∀ q, used.get q + nodes * p.group.amount q ≤ pool.limits.get q) := by
  have hcpu := p.group.check_vcpu.1
  have hmem := p.group.check_memory.1
  have hmax := fun q => (pool.limits_range q).2
  rw [← hl] at h₁ hmax ⊢
  have hvcpu := in64_sub (h₀ .vcpu) (h₁ .vcpu) (hmax .vcpu)
  have hmemory := in64_sub (h₀ .memoryMib) (h₁ .memoryMib) (hmax .memoryMib)
  have hnodes := in64_sub (h₀ .nodes) (h₁ .nodes) (hmax .nodes)
  simp only [Resources.get] at hvcpu hmemory hnodes
  simp only [reservationsFit, quo64_max hcpu, quo64_max hmem, Option.bind_eq_bind, Option.bind_some, pure]
  -- the conditions in the order of the source; each refusal contradicts one of the three sums
  by_cases hgv : maxInt64 / p.group.vcpu < nodes
  · refine ⟨false, by simp [hgv], by simp, fun h => absurd (h .vcpu) ?_⟩
    exact not_fits_of_guard hcpu (h₀ .vcpu) (hmax .vcpu) hgv.not_ge
  by_cases hgm : maxInt64 / p.group.memoryMib < nodes
  · refine ⟨false, by simp [hgv, hgm], by simp, fun h => absurd (h .memoryMib) ?_⟩
    exact not_fits_of_guard hmem (h₀ .memoryMib) (hmax .memoryMib) hgm.not_ge
  simp only [hgv, hgm, in64_mul hcpu hn (not_lt.mp hgv), in64_mul hmem hn (not_lt.mp hgm), hvcpu, hmemory, hnodes,
    if_false, Option.bind_some]
  by_cases hfv : p.poolLimit.vcpu - used.vcpu < nodes * p.group.vcpu
  · refine ⟨false, by simp [hfv], by simp, fun h => absurd (h .vcpu) ?_⟩
    simp only [Resources.get, NodeGroup.amount]
    omega
  by_cases hfm : p.poolLimit.memoryMib - used.memoryMib < nodes * p.group.memoryMib
  · refine ⟨false, by simp [hfv, hfm], by simp, fun h => absurd (h .memoryMib) ?_⟩
    simp only [Resources.get, NodeGroup.amount]
    omega
  refine ⟨decide (nodes ≤ p.poolLimit.nodes - used.nodes), by simp [hfv, hfm], ?_⟩
  rw [decide_eq_true_iff]
  constructor
  · intro h q
    cases q <;> simp only [Resources.get, NodeGroup.amount] <;> omega
  · intro h
    have := h .nodes
    simp only [Resources.get, NodeGroup.amount] at this
    omega

theorem Fits.add_le (hf : Fits p used nodes) (hl : p.poolLimit = pool.limits) (hn : 0 < nodes)
    (h₀ : ∀ q, 0 ≤ used.get q) (h₁ : ∀ q, used.get q ≤ pool.limits.get q) (q : Resource) :
    used.get q + nodes * p.group.amount q ≤ pool.limits.get q := by
  obtain ⟨fits, hchecked, hexact⟩ := reservationsFit_exact hl hn h₀ h₁
  exact hexact.mp ((fits_iff_checked hchecked).mp hf) q

end Exact

/-- **The admission arithmetic is exact on all of int64.** For every pool whose limits hold and every positive number of
nodes, no operation of the check overflows or divides by zero, and it passes iff the sums fit as unbounded integers. -/
theorem checkReservations_exact {ans : Operation → Bool} {d : DB} {p : Policy} {pool : NodePool} {nodes : ℤ}
    (hl : p.poolLimit = pool.limits) (hn : 0 < nodes)
    (hused : ∀ q, (usedBy d p.group.nodePoolId).get q ≤ pool.limits.get q) :
    ∃ fits, reservationsFit p (usedBy d p.group.nodePoolId) nodes = some fits ∧
      (checkReservations p nodes).run ans d = (if fits then .ok ((), d) else .error .limit) ∧
      (fits = true ↔ ∀ q, (usedBy d p.group.nodePoolId).get q + nodes * p.group.amount q ≤ pool.limits.get q) := by
  obtain ⟨fits, hchecked, hexact⟩ := reservationsFit_exact hl hn (usedBy_nonneg d _) hused
  refine ⟨fits, hchecked, ?_, hexact⟩
  cases fits with
  | true => exact checkReservations_ok.mpr ⟨(fits_iff_checked hchecked).mpr rfl, rfl⟩
  | false =>
    have hfits : ¬Fits p (usedBy d p.group.nodePoolId) nodes := fun h =>
      absurd ((fits_iff_checked hchecked).mp h) (by decide)
    rw [if_neg (by decide)]
    -- both refusals are ErrLimit
    simp only [Fits, not_and_or (a := _ ∧ _)] at hfits
    simp only [checkReservations, Tx.bind_eq, Tx.require]
    rcases hfits with hguard | hsums
    · rw [if_neg hguard]
      rfl
    · split_ifs
      · simp [hsums, Tx.select, Tx.bind, Tx.run]
      · rfl

/-- a pool without limits of its own -/
def Fleet.endless : NodePool := ⟨"p", true, maxInt64, maxInt64, maxInt64, by decide, by decide, by decide⟩

/-- the largest number of nodes of 2 vCPU and 4 MiB that the check admits, at the edge of int64 -/
theorem checkReservations_exact_max :
    ∃ fits, reservationsFit ⟨Fleet.group, Fleet.endless.limits, true⟩ (usedBy Fleet.catalog.db "p") 2305843009213693951 =
        some fits ∧
      (checkReservations ⟨Fleet.group, Fleet.endless.limits, true⟩ 2305843009213693951).run (fun _ => true)
        Fleet.catalog.db = (if fits then .ok ((), Fleet.catalog.db) else .error .limit) ∧
      (fits = true ↔ ∀ q, (usedBy Fleet.catalog.db "p").get q + 2305843009213693951 * Fleet.group.amount q ≤
        Fleet.endless.limits.get q) :=
  checkReservations_exact rfl (by decide) (by intro q; cases q <;> decide)

/-- groups stay in their pools, and pools keep their limits -/
structure Pools (cat : Catalog) (d : DB) : Prop where
  groups : ∀ i, (d.nodeGroups.find i).map NodeGroup.nodePoolId = (cat.nodeGroups.find i).map NodeGroup.nodePoolId
  limits : ∀ i, (d.nodePools.find i).map NodePool.limits = (cat.nodePools.find i).map NodePool.limits

/-- the reservation counts against `pool`, by the catalog -/
def countsIn (cat : Catalog) (pool : String) (r : Reservation) : Bool :=
  r.state ≠ .released && (cat.nodeGroups.find r.groupId).map NodeGroup.nodePoolId = some pool

/-- what storing a row adds to the use of `pool` -/
def spent (cat : Catalog) (pool : String) (q : Resource) : Row → ℤ
  | .reservation r => if r.state = .reserved ∧ countsIn cat pool r = true then r.amount q else 0
  | _ => 0

section Puts
variable {cat : Catalog} {d : DB} {x : Externals} {c : Call}

theorem Pools.unreleased (h : Pools cat d) (pool : String) (r : Reservation) :
    unreleased d pool r = countsIn cat pool r := by
  have hg := h.groups r.groupId
  simp only [Capacity.unreleased, countsIn, ← hg]
  cases d.nodeGroups.find r.groupId <;> simp

theorem Pools.used (h : Pools cat d) (pool : String) (q : Resource) :
    (usedBy d pool).get q = d.reservations.sum fun r => if countsIn cat pool r then r.amount q else 0 := by
  simp only [usedBy_get, h.unreleased]

theorem Pools.put (h : Pools cat d) {r : Row} (hr : Follows x c (d.look r.key) r) : Pools cat (d.put r) := by
  cases r with
  | nodeGroup g' =>
    obtain ⟨g, hg, hf, -⟩ := hr.step
    have hg : d.nodeGroups.find g'.id = some g := by simpa [DB.look, Row.key] using hg
    simp only [NodeGroup.fixed, Prod.mk.injEq] at hf
    exact ⟨fun i => (Table.map_find_put g' _ hg hf.2.2.1 i).trans (h.groups i), h.limits⟩
  | nodePool p' =>
    obtain ⟨p, hp, hl⟩ := hr.step
    have hp : d.nodePools.find p'.id = some p := by simpa [DB.look, Row.key] using hp
    exact ⟨h.groups, fun i => (Table.map_find_put p' _ hp hl i).trans (h.limits i)⟩
  | _ => exact ⟨h.groups, h.limits⟩

theorem used_put (h : Pools cat d) {r : Row} (hr : Follows x c (d.look r.key) r) (pool : String) (q : Resource) :
    (usedBy (d.put r) pool).get q ≤ (usedBy d pool).get q + spent cat pool q r := by
  rw [(h.put hr).used, h.used]
  cases r with
  | reservation r' =>
    show (d.reservations.put r').sum _ ≤ _
    rcases hr.step with ⟨hnone, hs, -⟩ | ⟨r, hold, hf⟩
    · have hnone : d.reservations.find r'.id = none := by simpa [DB.look, Row.key] using hnone
      rw [Table.sum_put_new hnone]
      simp [spent, hs]
    · have hold : d.reservations.find r'.id = some r := by simpa [DB.look, Row.key] using hold
      have hpos := r.amount_nonneg q
      rw [Table.sum_put_old hold]
      rcases hf.state with hs | ⟨hs, hs'⟩
      · -- released: it no longer counts
        have hc : countsIn cat pool r' = false := by simp [countsIn, hs]
        simp only [spent, hs, hc, Bool.false_eq_true, if_false, reduceCtorEq, false_and]
        split_ifs <;> omega
      · -- committed: it counts as before
        have hg : r'.groupId = r.groupId := congrArg Prod.fst hf.refs
        have hc : countsIn cat pool r' = countsIn cat pool r := by simp [countsIn, hs, hs', hg]
        simp [spent, hs, hc, Reservation.amount_congr hf.refs]
  | _ => exact le_of_eq (add_zero _).symm

/-- rows stored one after the other -/
theorem used_putAll (h : Pools cat d) {ws : List Row} (hf : Follow (Follows x c) d ws) (pool : String) (q : Resource) :
    (usedBy (putAll ws d) pool).get q ≤ (usedBy d pool).get q + (ws.map (spent cat pool q)).sum := by
  induction ws generalizing d with
  | nil => simp
  | cons r ws ih =>
    have hput := used_put h hf.1 pool q
    have hrest := ih (h.put hf.1) hf.2
    rw [putAll_cons, List.map_cons, List.sum_cons, put_eq]
    omega

theorem Pools.putAll (h : Pools cat d) {ws : List Row} (hf : Follow (Follows x c) d ws) : Pools cat (putAll ws d) :=
  hf.keeps (fun _ _ hr hd => hd.put hr) h

/-- only `SetTarget` adds to the use of a pool -/
theorem spent_eq_zero (hc : c.isSetTarget = false) {old : Option Row} {r : Row} (hr : Follows x c old r) (pool : String)
    (q : Resource) : spent cat pool q r = 0 := by
  cases r with
  | reservation r' =>
    rcases hr.step with ⟨-, -, h⟩ | ⟨r, -, hf⟩
    · simp [hc] at h
    · have hs : r'.state ≠ .reserved := by
        rcases hf.state with h | ⟨h, -⟩ <;> simp [h]
      simp [spent, hs]
  | _ => rfl

theorem used_putAll_of_other (hc : c.isSetTarget = false) (h : Pools cat d) {ws : List Row}
    (hf : Follow (Follows x c) d ws) (pool : String) (q : Resource) :
    (usedBy (RowStore.putAll ws d) pool).get q ≤ (usedBy d pool).get q := by
  refine (hf.keeps (I := fun d' => Pools cat d' ∧ (usedBy d' pool).get q ≤ (usedBy d pool).get q)
    (fun r d' hr hd' => ?_) ⟨h, le_rfl⟩).2
  have hput := used_put hd'.1 hr pool q
  rw [spent_eq_zero hc hr, add_zero] at hput
  exact ⟨hd'.1.put hr, hput.trans hd'.2⟩

end Puts

/-! ## What an admission adds -/

/-- the rows add `n` nodes of group `g` and nothing else -/
def Adds (cat : Catalog) (g : NodeGroup) (n : ℕ) (ws : List Row) : Prop :=
  ∀ pool q, (ws.map (spent cat pool q)).sum = if g.nodePoolId = pool then n * g.amount q else 0

section Adds
variable {cat : Catalog} {g : NodeGroup}

theorem Adds.append {m n : ℕ} {ws vs : List Row} (hw : Adds cat g m ws) (hv : Adds cat g n vs) :
    Adds cat g (m + n) (ws ++ vs) := by
  intro pool q
  rw [List.map_append, List.sum_append, hw pool q, hv pool q]
  split_ifs
  · push_cast
    ring
  · rfl

theorem adds_zero {ws : List Row} (h : ∀ r ∈ ws, ∀ pool q, spent cat pool q r = 0) : Adds cat g 0 ws := by
  intro pool q
  rw [List.map_congr_left fun r hr => h r hr pool q]
  simp

/-- a part that inserts no reservation -/
theorem emits_zero (cat : Catalog) (g : NodeGroup) {α : Type} {x : StoreTx α} (hx : x.Writes fun _ r => ∀ pool q, spent cat pool q r = 0) :
    x.Emits fun _ ws => Adds cat g 0 ws :=
  hx.emits.mono fun _ _ => adds_zero

theorem emits_provisionIntent {p : Policy} (hp : (cat.nodeGroups.find p.group.id).map NodeGroup.nodePoolId =
    some p.group.nodePoolId) (requestId : String) (revision : ℤ) (u : Uuids) :
    (provisionIntent p requestId revision u).Emits fun _ ws => Adds cat p.group 1 ws := by
  refine (emits_zero cat p.group (writes_insertOperation fun _ _ _ => rfl)).bind fun _ ws hws => ?_
  refine Emits.bind (R := fun _ vs => Adds cat p.group 0 vs) (emits_execute fun d rows hr => ?_) fun _ vs hvs =>
    emits_execute fun d rows hr => ?_
  · split_ifs at hr
    obtain rfl := Except.ok.inj hr
    exact adds_zero (by simp [spent])
  · split_ifs at hr
    obtain rfl := Except.ok.inj hr
    rw [← List.append_assoc]
    refine (hws.append hvs).append (n := 1) ?_
    intro pool q
    have hc : countsIn cat pool (intentReservation p requestId u) = decide (p.group.nodePoolId = pool) := by
      simp [countsIn, intentReservation, hp]
    have ha : (intentReservation p requestId u).amount q = p.group.amount q := by cases q <;> rfl
    have hs : spent cat pool q (.reservation (intentReservation p requestId u)) =
        if p.group.nodePoolId = pool then p.group.amount q else 0 := by
      simp only [spent, hc, ha]
      simp [intentReservation]
    simp [hs]

/-- the loop over the increase -/
theorem emits_provisionIntents {p : Policy} (hp : (cat.nodeGroups.find p.group.id).map NodeGroup.nodePoolId =
    some p.group.nodePoolId) (requestId : String) (revision : ℤ) (u : Uuids) (n : ℕ) :
    (provisionIntents p requestId revision u n).Emits fun _ ws => Adds cat p.group n ws := by
  induction n with
  | zero => exact adds_zero (by simp)
  | succ n ih =>
    refine ih.bind fun _ ws hws => (emits_provisionIntent hp _ _ _).mono fun _ vs hvs => ?_
    exact hws.append hvs

end Adds

/-! ## The protocol -/

/-- no pool is used beyond its limits -/
structure WithinLimits (cat : Catalog) (d : DB) : Prop where
  pools : Pools cat d
  within : ∀ i p, d.nodePools.find i = some p → ∀ q, (usedBy d i).get q ≤ p.limits.get q

/-- the holder of a pool's row relies on its use not growing -/
def poolProtocol (cat : Catalog) (x : Externals) : StoreProtocol where
  Inv w := WithinLimits cat w.db
  rely h w w' := ∀ i q, Key.nodePool i ∈ h → (usedBy w'.db i).get q ≤ (usedBy w.db i).get q
  guard := Follows x
  atCall _ _ _ _ := True
  refl _ _ _ _ _ := le_rfl
  trans h h' i q hi := (h' i q hi).trans (h i q hi)
  mono hh hr i q hi := hr i q (hh hi)

section Protocol
variable {cat : Catalog} {x : Externals} {c : Call} {h : Set Key} {w : StoreWorld}

/-- an error, or an answer without rows -/
theorem pool_ends_nil (out : Except Err Reply) : Ends (poolProtocol cat x) c out h [] w :=
  fun _ _ he => ⟨he.inv, fun _ _ _ _ _ => le_rfl⟩

/-- limits do not change -/
theorem Pools.limits_of {d d' : DB} (h : Pools cat d) (h' : Pools cat d') {i : String} {p : NodePool}
    (hp : d'.nodePools.find i = some p) : ∃ p₀, d.nodePools.find i = some p₀ ∧ p₀.limits = p.limits :=
  exists_of_map_eq ((h'.limits i).trans (h.limits i).symm) hp

/-- calls other than `SetTarget` never add to the use of a pool -/
theorem pool_other (hc : c.isSetTarget = false) (w : StoreWorld) :
    Interleave.Safe (poolProtocol cat x) c (code x c) ∅ [] w := by
  refine safe_of_emits (emits_true _) (fun _ _ _ => trivial) fun out h ws w' _ _ he => ?_
  have hle := fun i q => used_putAll_of_other hc he.inv.pools he.follow i q
  have hpools := he.inv.pools.putAll he.follow
  refine ⟨⟨hpools, fun i p hp q => ?_⟩, fun _ _ i q _ => hle i q⟩
  obtain ⟨p₀, hp₀, hl⟩ := he.inv.pools.limits_of hpools hp
  rw [← hl]
  exact (hle i q).trans (he.inv.within i p₀ hp₀ q)

/-- the end of an admission: what it adds fits into what was used when it looked, and use has not grown since -/
theorem pool_ends_admission {g : NodeGroup} {pool : NodePool} {delta : ℤ} {ws : List Row} {out : Except Err Reply}
    {h' : Set Key} {w₀ : StoreWorld} (hlock : Key.nodePool g.nodePoolId ∈ h') (hi : WithinLimits cat w₀.db)
    (hrow : w₀.db.nodePools.find g.nodePoolId = some pool)
    (hfit : 0 < delta → ∀ q, (usedBy w₀.db g.nodePoolId).get q + delta * g.amount q ≤ pool.limits.get q)
    (hadds : Adds cat g delta.toNat ws) (hh : h' ⊆ h) (hr₀ : (poolProtocol cat x).Rely h' w₀ w) :
    Ends (poolProtocol cat x) c out h ws w := by
  intro w' hr he
  replace hr := hr₀.trans (hr.mono hh)
  have hpools := he.inv.pools.putAll he.follow
  have hused := fun i q => used_putAll he.inv.pools he.follow i q
  simp only [hadds _ _] at hused
  refine ⟨⟨hpools, fun i p hp q => ?_⟩, fun _ hd i q hmem => ?_⟩
  · obtain ⟨p', hp', hl'⟩ := he.inv.pools.limits_of hpools hp
    have hbefore := he.inv.within i p' hp' q
    have hafter := hused i q
    rw [← hl']
    split_ifs at hafter with heq
    · subst heq
      have hrely := hr.rely g.nodePoolId q hlock
      obtain ⟨p'', hp'', hl''⟩ := hi.pools.limits_of he.inv.pools hp'
      obtain rfl : pool = p'' := Option.some.inj (hrow.symm.trans hp'')
      by_cases hpos : 0 < delta
      · have hfit := hfit hpos q
        rw [Int.toNat_of_nonneg hpos.le] at hafter
        rw [← hl'']
        show (usedBy (putAll ws w'.db) g.nodePoolId).get q ≤ _
        omega
      · rw [Int.toNat_of_nonpos (by omega)] at hafter
        show (usedBy (putAll ws w'.db) g.nodePoolId).get q ≤ _
        simp only [Nat.cast_zero, zero_mul, add_zero] at hafter
        omega
    · exact (hafter.trans_eq (add_zero _)).trans hbefore
  · have hne : g.nodePoolId ≠ i := by
      rintro rfl
      exact Set.disjoint_left.mp hd (hh hlock) hmem
    have hafter := hused i q
    rw [if_neg hne, add_zero] at hafter
    exact hafter

/-- an admission: the pool's row is locked before its use is read -/
theorem pool_acceptTarget {p : Policy} {req : CapacityRequest} {u : Uuids}
    (hp : (cat.nodeGroups.find p.group.id).map NodeGroup.nodePoolId = some p.group.nodePoolId) :
    WP (poolProtocol cat x) c (fun a h ws w => Ends (poolProtocol cat x) c (.ok (.target a)) h ws w)
      (fun e h w => Ends (poolProtocol cat x) c (.error e) h [] w) (acceptTarget p req u) h [] w := by
  refine wp_require_bind (fun _ => pool_ends_nil _) fun _ => wp_require_bind (fun _ => pool_ends_nil _) fun _ =>
    wp_require_bind (fun _ => pool_ends_nil _) fun _ => wp_require_bind (fun _ => pool_ends_nil _) fun _ =>
    wp_selectForUpdate_bind fun w₁ hr₁ hi₁ => wp_orFail_bind (fun _ => pool_ends_nil _) fun pool hpool => ?_
  rw [putAll_nil] at hpool ⊢
  have hkey : Key.nodePool p.group.nodePoolId ∈
      h ∪ {k | k ∈ (w₁.db.nodePools.find p.group.nodePoolId).toList.map fun x => Key.nodePool x.id} := by
    refine .inr ?_
    simp only [hpool, Option.toList_some, List.map_singleton, List.mem_singleton, Set.mem_ofPred_eq]
    rw [Table.key_of_find hpool]
  generalize h ∪ {k | k ∈ (w₁.db.nodePools.find p.group.nodePoolId).toList.map fun x => Key.nodePool x.id} = h₁ at hkey ⊢
  refine wp_when_bind (R := fun h' ws' w' => h' = h₁ ∧ ws' = [] ∧ WithinLimits cat w'.db ∧
    w'.db.nodePools.find p.group.nodePoolId = some pool ∧ (0 < req.desiredTarget - p.group.targetNodes → ∀ q,
      (usedBy w'.db p.group.nodePoolId).get q + (req.desiredTarget - p.group.targetNodes) * p.group.amount q ≤
        pool.limits.get q)) (fun hpos => ?_) (fun hneg => ?_) ?_
  · -- the row is locked, so it is still the row that was read
    refine wp_checkReservations (fun _ _ => pool_ends_nil _) fun w₂ hr₂ hi₂ hfits => ?_
    have hpool₂ : w₂.db.nodePools.find p.group.nodePoolId = some pool := by
      simpa [DB.look, hpool] using hr₂.frozen _ hkey
    exact ⟨rfl, rfl, hi₂, hpool₂, fun _ => hfits.add_le rfl hpos (usedBy_nonneg _ _) (hi₂.within _ _ hpool₂)⟩
  · exact ⟨rfl, rfl, hi₁, hpool, fun hpos => absurd hpos hneg⟩
  · rintro _ _ w₂ ⟨rfl, rfl, hi₂, hpool₂, hfit⟩
    refine wp_emits (R := fun _ ws => Adds cat p.group (req.desiredTarget - p.group.targetNodes).toNat ws) ?_
      (fun _ _ _ => trivial) (fun _ _ _ _ _ => pool_ends_nil _) fun a h' ws w₃ hh hr hadds => ?_
    · refine (emits_zero cat p.group (Writes.when ?_)).bind fun _ ws₁ h₁ => ?_
      · exact (writes_select _).bind fun _ => writes_require _ _
      refine (emits_zero cat p.group (writes_execute fun d rows hr => ?_)).bind fun _ ws₂ h₂ => ?_
      · split_ifs at hr
        obtain rfl := Except.ok.inj hr
        exact ⟨fun _ _ => rfl, trivial⟩
      refine (emits_zero cat p.group (writes_updateTarget (fun _ _ _ _ _ _ => rfl) _ _)).bind fun _ ws₃ h₃ => ?_
      refine Emits.bind (emits_provisionIntents (by exact hp) _ _ _ _) fun _ ws₄ h₄ => ?_
      refine (emits_zero cat p.group (Writes.when (writes_cancelPending ?_ ?_ ?_ ?_ _ _))).bind fun _ ws₅ h₅ => ?_
      · exact fun _ _ _ _ => rfl
      · exact fun _ _ _ _ => rfl
      · exact fun _ _ _ => rfl
      · exact fun r _ _ => by simp [spent]
      have := h₁.append (h₂.append (h₃.append (h₄.append h₅)))
      simpa [Emits] using this
    · exact pool_ends_admission hkey hi₂ hpool₂ hfit hadds hh hr

theorem pool_setTarget (req : CapacityRequest) (u : Uuids) :
    Interleave.Safe (poolProtocol cat x) (.setTarget req u) (code x (.setTarget req u)) ∅ [] w := by
  refine wp_bind (wp_require_bind (fun _ => pool_ends_nil _) fun _ =>
    wp_loadPolicy_bind (fun _ _ _ _ => pool_ends_nil _) fun w₁ p hr₁ hi₁ hp =>
    wp_require_bind (fun _ => pool_ends_nil _) fun _ => wp_select_bind fun w₂ hr₂ hi₂ => ?_)
  cases previousRequest (putAll [] w₂.db) req.nodeGroupId req.requestId with
  | some row => exact wp_require_bind (fun _ => pool_ends_nil _) fun _ => pool_ends_nil _
  | none =>
    refine pool_acceptTarget ?_
    have hs := policyOf_spec hp
    have hg := hi₁.pools.groups p.group.id
    rw [← hg, hs.id, putAll_nil] at *
    simp [hs.group]

theorem pool_implements (cat : Catalog) (x : Externals) : Implements (poolProtocol cat x) (code x) DB.tick where
  writes c := code_writes x c
  safe c w _ := by
    cases hc : c.isSetTarget with
    | false => exact pool_other hc w
    | true =>
      cases c <;> simp only [Call.isSetTarget, Bool.false_eq_true] at hc
      exact pool_setTarget _ _
  tick_look := DB.look_tick
  tick_inv _ _ hi := ⟨⟨hi.pools.groups, hi.pools.limits⟩, hi.within⟩
  tick_rely _ _ _ _ _ _ _ := le_rfl

end Protocol

/-- for every pool the sums over its unreleased reservations are at most its limits -/
def LimitsHold (d : DB) : Prop :=
  ∀ p ∈ d.nodePools.rows, (usedBy d p.id).vcpu ≤ p.maxVcpu ∧ (usedBy d p.id).memoryMib ≤ p.maxMemoryMib ∧
    (usedBy d p.id).nodes ≤ p.maxNodes

/-- **Pool limits are never exceeded.** From any catalog, in every interleaving of the store's calls, any number of
groups sharing a pool. -/
theorem pool_limits_hold (x : Externals) (cat : Catalog) (acts : List StoreAct) :
    LimitsHold (concurrently x cat acts).world.db := by
  intro p hp
  have hinit : WithinLimits cat cat.db := by
    refine ⟨⟨fun _ => rfl, fun _ => rfl⟩, fun i p _ q => ?_⟩
    rw [usedBy_get]
    exact (p.limits_range q).1
  have hi := (run_inv (pool_implements cat x) acts cat.db hinit).within p.id p (Table.find_mem hp)
  exact ⟨hi .vcpu, hi .memoryMib, hi .nodes⟩

-- two admissions race for one group: the second waits for the group's row and then finds the revision moved
example : (usedBy (concurrently Fleet.externals Fleet.catalog
    ([.begin 0 (Fleet.retargeting "r1" 0 4), .begin 1 (Fleet.retargeting "r2" 0 3), .exec 0, .exec 1] ++
      List.replicate 20 (.exec 0) ++ [.finish 0] ++ List.replicate 20 (.exec 1) ++ [.finish 1])).world.db "p").nodes = 4 := by
  decide +kernel

end Crane.Capacity
