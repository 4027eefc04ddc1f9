/-
The seed of a first zone (`seedFirstZoneTx` of `internal/capacity/catalog.go`): five creations in one transaction.

A seed that succeeds only adds rows, and fills scheduling metadata that a group never had (`Grows`). What it leaves
stored for its request (`Seeded`) is all that the same seed needs to succeed again without a change, and it survives
everything that keeps the columns a creation compares (`Kept`): targets, lifecycles, access and discovery may move.
-/
import Crane.Topology.Catalog

namespace Crane.Topology

open Capacity

/-! ## The transaction -/

/-- a creation inside a transaction -/
def within (w : Write) (s : Site) : Except Err Site :=
  match w s with
  | (s', .ok ()) => .ok s'
  | (_, .error e) => .error e

/-- the parts name each other, and the group starts empty -/
def FirstZoneInput.consistent (i : FirstZoneInput) : Bool :=
  i.group.normalizeId.isSome && i.membership.clusterId = i.cluster.id && i.membership.zoneId = i.zone.id &&
    i.group.clusterId = i.cluster.id && i.group.zoneId = i.zone.id && i.group.nodePoolId = i.pool.id &&
    i.group.minNodes = 0

def seedLifecycle (ready : Bool) : Lifecycle := if ready then .ready else .initializing

/-- the membership of the seed, ready and approved or initializing and pending -/
def FirstZoneInput.member (i : FirstZoneInput) (ready : Bool) : ClusterZoneInput :=
  { i.membership with
    lifecycleState := if ready then "ready" else "initializing"
    accessState := if ready then "approved" else "pending" }

def seedFirstZoneTx (i : FirstZoneInput) (ready : Bool) (s : Site) : Except Err Site := do
  if i.consistent then
    let s ← within (createZone i.zone (seedLifecycle ready)) s
    let s ← within (createCluster i.cluster (seedLifecycle ready) true) s
    let s ← within (createMembership (i.member ready) true) s
    let s ← within (createPool i.pool) s
    within (createGroup i.group) s
  else .error .invalid

/-- `SeedFirstZone` and `SeedFirstZonePending` -/
def seedFirstZone (i : FirstZoneInput) (ready : Bool) : Write := fun s =>
  match seedFirstZoneTx i ready s with
  | .ok s' => (s', .ok ())
  | .error e => (s, .error e)

theorem within_ok {w : Write} {s s' : Site} : within w s = .ok s' ↔ w s = (s', .ok ()) := by
  unfold within
  split
  · rename_i h
    simp [h]
  · rename_i h
    simp [h]

/-- a successful seed is five accepted creations -/
theorem seedFirstZoneTx_ok {i : FirstZoneInput} {ready : Bool} {s s' : Site} : seedFirstZoneTx i ready s = .ok s' ↔
    i.consistent = true ∧ ∃ s₁ s₂ s₃ s₄, createZone i.zone (seedLifecycle ready) s = (s₁, .ok ()) ∧
      createCluster i.cluster (seedLifecycle ready) true s₁ = (s₂, .ok ()) ∧
      createMembership (i.member ready) true s₂ = (s₃, .ok ()) ∧ createPool i.pool s₃ = (s₄, .ok ()) ∧
      createGroup i.group s₄ = (s', .ok ()) := by
  unfold seedFirstZoneTx
  by_cases hc : i.consistent = true
  · have hbind : ∀ (x : Except Err Site) (f : Site → Except Err Site), (x >>= f) = .ok s' ↔ ∃ t, x = .ok t ∧ f t = .ok s' := by
      intro x f
      cases x <;> simp [Bind.bind, Except.bind]
    simp only [hc, if_true, hbind, within_ok, true_and]
    constructor
    · rintro ⟨s₁, h₁, s₂, h₂, s₃, h₃, s₄, h₄, h₅⟩
      exact ⟨s₁, s₂, s₃, s₄, h₁, h₂, h₃, h₄, h₅⟩
    · rintro ⟨s₁, s₂, s₃, s₄, h₁, h₂, h₃, h₄, h₅⟩
      exact ⟨s₁, h₁, s₂, h₂, s₃, h₃, s₄, h₄, h₅⟩
  · simp [hc]

/-! ## What is stored for a request -/

def ZoneStored (z : ZoneInput) (s : Site) : Prop :=
  (∃ r, s.regions.find (z.provider, z.accountId, z.region) = some r ∧
    r.kubernetesRegion = (z.row .ready).kubernetesRegion) ∧
  ∃ old, s.db.zones.find z.id = some old ∧ old.place = (z.row .ready).place

def ClusterStored (c : ClusterInput) (s : Site) : Prop :=
  s.software.find c.id = some c.software ∧ ∃ old, s.db.clusters.find c.id = some old ∧
    discovered true old.apiServerEndpoint c.apiServerEndpoint = true ∧ discovered true old.caCertHash c.caCertHash = true

def MemberStored (m : ClusterZoneInput) (s : Site) : Prop := (s.db.clusterZones.find (m.clusterId, m.zoneId)).isSome = true

def PoolStored (p : NodePoolInput) (s : Site) : Prop := ∃ old, s.db.nodePools.find p.id = some old ∧ old.limits = p.limits

/-- all of a group but its template and scheduling -/
def GroupStored (i : NodeGroupInput) (s : Site) : Prop :=
  ∃ g launch row old, i.normalizeId = some g ∧ i.launchParameters = some launch ∧ g.valid = true ∧
    schedulingFits g s = true ∧ g.row launch = some row ∧ s.db.nodeGroups.find g.id = some old ∧
    old.declared = row.declared ∧ s.names.find g.id = some ⟨g.id, g.naming⟩

/-- the template and the scheduling a request gives its group are the stored ones -/
def TemplateStored (i : NodeGroupInput) (s : Site) : Prop :=
  ∀ g launch, i.normalizeId = some g → i.launchParameters = some launch →
    (s.db.nodeGroups.find g.id).map NodeGroup.template = some ⟨launch, g.scheduling, g.templateRevision, g.capacityClass⟩

theorem craneZoneRegion_stored {z : Zone} {s : Site} : craneZoneRegion z s = .ok s ↔
    ∃ r, s.regions.find (z.provider, z.accountId, z.region) = some r ∧ r.kubernetesRegion = z.kubernetesRegion := by
  constructor
  · intro h
    have hself := h
    unfold craneZoneRegion at h
    cases hr : s.regions.find (z.provider, z.accountId, z.region) with
    | some r =>
      simp only [hr] at h
      split_ifs at h with he
      exact ⟨r, rfl, he⟩
    | none =>
      simp only [hr] at h
      split_ifs at h
      have hreg : s.regions.put ⟨z.provider, z.accountId, z.region, z.kubernetesRegion⟩ = s.regions :=
        congrArg Site.regions (Except.ok.inj h)
      have hfind := Table.find_put_self s.regions ⟨z.provider, z.accountId, z.region, z.kubernetesRegion⟩
      rw [hreg] at hfind
      simp [Region.key, hr] at hfind
  · rintro ⟨r, hr, he⟩
    simp [craneZoneRegion, hr, he]

theorem ZoneInput.row_place (z : ZoneInput) (l : Lifecycle) : (z.row l).place = (z.row .ready).place := rfl

theorem createZone_ok {z : ZoneInput} {l : Lifecycle} {s s' : Site} (h : createZone z l s = (s', .ok ())) :
    z.valid = true ∧ ∃ n, insertZone (z.row l) s = .ok (s', n) ∧ n ≠ 0 := by
  unfold createZone at h
  split_ifs at h with hv
  · exact ⟨hv, immutableInsert_ok h⟩
  · simp [refuse] at h

theorem createZone_stored {z : ZoneInput} {l : Lifecycle} {s s' : Site} (h : createZone z l s = (s', .ok ())) :
    ZoneStored z s' := by
  obtain ⟨-, n, hi, hn⟩ := createZone_ok h
  obtain ⟨s₁, hr, ⟨old, hf, rfl, rfl⟩ | ⟨-, -, rfl, -⟩⟩ := insertZone_ok hi
  · have hdb : s'.db = s.db := by rw [craneZoneRegion_db hr]
    refine ⟨craneZoneRegion_stored.mp (craneZoneRegion_self hr), old, by rw [hdb]; exact hf, ?_⟩
    by_contra hp
    exact hn (if_neg fun e => hp (e.trans (z.row_place l)))
  · exact ⟨craneZoneRegion_stored.mp (craneZoneRegion_self hr), _, Table.find_put_self _ (z.row l), rfl⟩

/-- a stored zone is accepted as it is -/
theorem createZone_again {z : ZoneInput} {l : Lifecycle} {s : Site} (hv : z.valid = true) (h : ZoneStored z s) :
    createZone z l s = (s, .ok ()) := by
  obtain ⟨hr, old, hf, hp⟩ := h
  have hi : insertZone (z.row l) s = .ok (s, 1) :=
    insertZone_repeat (craneZoneRegion_stored.mpr hr) hf (hp.trans (z.row_place l).symm)
  simp [createZone, hv, immutableInsert, hi]

theorem createCluster_ok {c : ClusterInput} {l : Lifecycle} {seed : Bool} {s s' : Site}
    (h : createCluster c l seed s = (s', .ok ())) :
    c.valid = true ∧ ∃ n, insertCluster c l seed s = .ok (s', n) ∧ n ≠ 0 := by
  unfold createCluster at h
  split_ifs at h with hv
  · exact ⟨hv, immutableInsert_ok h⟩
  · simp [refuse] at h

theorem createCluster_stored {c : ClusterInput} {l : Lifecycle} {s s' : Site}
    (h : createCluster c l true s = (s', .ok ())) : ClusterStored c s' := by
  obtain ⟨-, n, hi, hn⟩ := createCluster_ok h
  unfold insertCluster at hi
  split at hi
  · rename_i old hf
    simp only [Except.ok.injEq, Prod.mk.injEq] at hi
    obtain ⟨rfl, rfl⟩ := hi
    split_ifs at hn with hsame
    · simp only [Bool.and_eq_true, decide_eq_true_eq] at hsame
      exact ⟨hsame.1.1, old, hf, hsame.1.2, hsame.2⟩
    · exact absurd rfl hn
  · simp only [Except.ok.injEq, Prod.mk.injEq] at hi
    obtain ⟨rfl, -⟩ := hi
    exact ⟨Table.find_put_self s.software c.software, _, Table.find_put_self s.db.clusters _, by simp [discovered],
      by simp [discovered]⟩

theorem createCluster_again {c : ClusterInput} {l : Lifecycle} {s : Site} (hv : c.valid = true) (h : ClusterStored c s) :
    createCluster c l true s = (s, .ok ()) := by
  obtain ⟨hs, old, hf, he, hh⟩ := h
  simp [createCluster, hv, immutableInsert, insertCluster, hs, hf, he, hh]

theorem normalizeMembership_ids {m : ClusterZoneInput} {r : ClusterZone} (h : normalizeMembership m = some r) :
    r.key = (m.clusterId, m.zoneId) := by
  simp only [normalizeMembership, Option.bind_eq_bind, Option.bind_eq_some_iff] at h
  obtain ⟨l, -, a, -, h⟩ := h
  split_ifs at h
  rw [← Option.some.inj h]
  rfl

theorem createMembership_ok {m : ClusterZoneInput} {seed : Bool} {s s' : Site}
    (h : createMembership m seed s = (s', .ok ())) :
    ∃ r n, normalizeMembership m = some r ∧ insertMembership r seed s = .ok (s', n) ∧ n ≠ 0 := by
  unfold createMembership at h
  cases hm : normalizeMembership m with
  | none => simp [hm, refuse] at h
  | some r =>
    simp only [hm] at h
    obtain ⟨n, hq, hn⟩ := immutableInsert_ok h
    exact ⟨r, n, rfl, hq, hn⟩

theorem createMembership_stored {m : ClusterZoneInput} {seed : Bool} {s s' : Site}
    (h : createMembership m seed s = (s', .ok ())) : MemberStored m s' := by
  obtain ⟨r, n, hm, hi, hn⟩ := createMembership_ok h
  unfold MemberStored
  rw [← normalizeMembership_ids hm]
  unfold insertMembership at hi
  split at hi
  · rename_i old hf
    simp only [Except.ok.injEq, Prod.mk.injEq] at hi
    rw [← hi.1, hf]
    rfl
  · split_ifs at hi
    simp only [Except.ok.injEq, Prod.mk.injEq] at hi
    rw [← hi.1]
    show ((s.db.clusterZones.put r).find r.key).isSome = true
    simp

theorem createMembership_again {m : ClusterZoneInput} {r : ClusterZone} {s : Site} (hm : normalizeMembership m = some r)
    (h : MemberStored m s) : createMembership m true s = (s, .ok ()) := by
  obtain ⟨old, hf⟩ := Option.isSome_iff_exists.mp h
  rw [← normalizeMembership_ids hm] at hf
  simp [createMembership, hm, immutableInsert, insertMembership, hf]

theorem NodePoolInput.row_limits {p : NodePoolInput} {row : NodePool} (h : p.row = some row) :
    row.id = p.id ∧ row.limits = p.limits := by
  unfold NodePoolInput.row at h
  split_ifs at h
  rw [← Option.some.inj h]
  exact ⟨rfl, rfl⟩

theorem createPool_ok {p : NodePoolInput} {s s' : Site} (h : createPool p s = (s', .ok ())) :
    p.valid = true ∧ ∃ n row, p.row = some row ∧ insertPool p s = .ok (s', n) ∧ n ≠ 0 := by
  unfold createPool at h
  split_ifs at h with hv
  · obtain ⟨n, hq, hn⟩ := immutableInsert_ok h
    refine ⟨hv, n, ?_⟩
    cases hrow : p.row with
    | none => simp [insertPool, hrow] at hq
    | some row => exact ⟨row, rfl, hq, hn⟩
  · simp [refuse] at h

theorem createPool_stored {p : NodePoolInput} {s s' : Site} (h : createPool p s = (s', .ok ())) : PoolStored p s' := by
  obtain ⟨-, n, row, hrow, hi, hn⟩ := createPool_ok h
  obtain ⟨hid, hlim⟩ := NodePoolInput.row_limits hrow
  simp only [insertPool, hrow] at hi
  split at hi
  · rename_i old hf
    simp only [Except.ok.injEq, Prod.mk.injEq] at hi
    obtain ⟨rfl, rfl⟩ := hi
    refine ⟨old, hf, ?_⟩
    by_contra hl
    exact hn (if_neg fun e => hl (e.trans hlim))
  · simp only [Except.ok.injEq, Prod.mk.injEq] at hi
    rw [← hi.1]
    have hnew := Table.find_put_self s.db.nodePools row
    rw [hid] at hnew
    exact ⟨row, hnew, hlim⟩

theorem createPool_again {p : NodePoolInput} {row : NodePool} {s : Site} (hv : p.valid = true) (hrow : p.row = some row)
    (h : PoolStored p s) : createPool p s = (s, .ok ()) := by
  obtain ⟨old, hf, hl⟩ := h
  simp [createPool, hv, immutableInsert, insertPool, hrow, hf, hl, (NodePoolInput.row_limits hrow).2]

theorem createGroup_stored {i : NodeGroupInput} {s s' : Site} (h : createGroup i s = (s', .ok ())) :
    GroupStored i s' ∧ TemplateStored i s' := by
  obtain ⟨g, launch, n, hg, hl, hv, hfit, hq, hn⟩ := createGroup_ok h
  obtain ⟨row, old, hrow, hf, hsame, ht⟩ := insertGroup_stored hq hn
  simp only [sameGroup, Bool.and_eq_true, decide_eq_true_eq] at hsame
  obtain ⟨⟨⟨⟨⟨hfix, hcls⟩, hpz⟩, hrev⟩, hlaunch⟩, hname⟩ := hsame
  have hfit' : schedulingFits g s' = true := by simpa only [schedulingFits, insertGroup_zones hq] using hfit
  have hval : row.templateRevision = g.templateRevision ∧ row.launchParameters = launch ∧
      row.capacityClass = g.capacityClass := by
    unfold NodeGroupInput.row at hrow
    split_ifs at hrow
    rw [← Option.some.inj hrow]
    exact ⟨rfl, rfl, rfl⟩
  refine ⟨⟨g, launch, row, old, hg, hl, hv, hfit', hrow, hf, ?_, hname⟩, fun g' launch' hg' hl' => ?_⟩
  · simp only [NodeGroup.declared, hfix, hcls, hpz]
  · obtain rfl := Option.some.inj (hg.symm.trans hg')
    obtain rfl := Option.some.inj (hl.symm.trans hl')
    simp [hf, NodeGroup.template, ht, hrev, hlaunch, hcls, hval.1, hval.2.1, hval.2.2]

theorem createGroup_again {i : NodeGroupInput} {s : Site} (h : GroupStored i s) (ht : TemplateStored i s) :
    createGroup i s = (s, .ok ()) := by
  obtain ⟨g, launch, row, old, hg, hl, hv, hfit, hrow, hf, hd, hname⟩ := h
  have ht := ht g launch hg hl
  simp only [hf, Option.map_some, NodeGroup.template, Option.some.injEq, ProvisioningTemplate.mk.injEq] at ht
  have hval : row.templateRevision = g.templateRevision ∧ row.launchParameters = launch := by
    unfold NodeGroupInput.row at hrow
    split_ifs at hrow
    rw [← Option.some.inj hrow]
    exact ⟨rfl, rfl⟩
  simp only [NodeGroup.declared, Prod.mk.injEq] at hd
  have hsame : sameGroup g row old s = true := by
    simp [sameGroup, hd.1, hd.2.1, hd.2.2, hval.1, hval.2, ht.1, ht.2.2.1, hname]
  rw [createGroup_eq hg hl, hv, hfit]
  simp [immutableInsert, insertGroup_repeat hrow hf hsame ht.2.1]

/-! ## Growth -/

/-- every row of a table is still there, as it was -/
def Keeps {α κ : Type} [DecidableEq κ] {key : α → κ} (t t' : Table key) : Prop :=
  ∀ k a, t.find k = some a → t'.find k = some a

section Keeps
variable {α κ : Type} [DecidableEq κ] {key : α → κ} {t t' t'' : Table key}

theorem Keeps.refl (t : Table key) : Keeps t t := fun _ _ h => h

theorem Keeps.trans (h : Keeps t t') (h' : Keeps t' t'') : Keeps t t'' := fun k a ha => h' k a (h k a ha)

theorem keeps_put {a : α} (h : t.find (key a) = none) : Keeps t (t.put a) := by
  intro k b hb
  rw [Table.find_put, if_neg]
  · exact hb
  · rintro rfl
    simp [h] at hb

end Keeps

/-- everything but the topology: hosts, operations, records, leases and the clock -/
def Site.runtime (s : Site) : Site :=
  { s with
    db := { s.db with zones := .empty, clusters := .empty, clusterZones := .empty, nodePools := .empty,
                      nodeGroups := .empty }
    regions := .empty, software := .empty, names := .empty }

/-- no row is lost or changed, except that a group without scheduling may have been given some -/
structure Grows (s s' : Site) : Prop where
  regions : Keeps s.regions s'.regions
  software : Keeps s.software s'.software
  names : Keeps s.names s'.names
  zones : Keeps s.db.zones s'.db.zones
  clusters : Keeps s.db.clusters s'.db.clusters
  memberships : Keeps s.db.clusterZones s'.db.clusterZones
  pools : Keeps s.db.nodePools s'.db.nodePools
  groups : ∀ i g, s.db.nodeGroups.find i = some g → ∃ t, s'.db.nodeGroups.find i = some { g with scheduling := t } ∧
    (t = g.scheduling ∨ (unset g.scheduling = true ∧ unset t = false))
  runtime : s'.runtime = s.runtime

theorem same_groups {s s' : Site} (h : Keeps s.db.nodeGroups s'.db.nodeGroups) (i : String) (g : NodeGroup)
    (hg : s.db.nodeGroups.find i = some g) : ∃ t, s'.db.nodeGroups.find i = some { g with scheduling := t } ∧
      (t = g.scheduling ∨ (unset g.scheduling = true ∧ unset t = false)) :=
  ⟨g.scheduling, h i g hg, .inl rfl⟩

theorem Grows.refl (s : Site) : Grows s s :=
  ⟨.refl _, .refl _, .refl _, .refl _, .refl _, .refl _, .refl _, same_groups (.refl _), rfl⟩

theorem Grows.trans {s s' s'' : Site} (h : Grows s s') (h' : Grows s' s'') : Grows s s'' where
  regions := h.regions.trans h'.regions
  software := h.software.trans h'.software
  names := h.names.trans h'.names
  zones := h.zones.trans h'.zones
  clusters := h.clusters.trans h'.clusters
  memberships := h.memberships.trans h'.memberships
  pools := h.pools.trans h'.pools
  groups := by
    intro i g hg
    obtain ⟨t, hg', ht⟩ := h.groups i g hg
    obtain ⟨t', hg'', ht'⟩ := h'.groups i _ hg'
    refine ⟨t', hg'', ?_⟩
    -- scheduling that was filled in is set, so it is not filled in again
    rcases ht' with rfl | ⟨hu, hs⟩
    · exact ht
    · rcases ht with rfl | ⟨-, hset⟩
      · exact .inr ⟨hu, hs⟩
      · exact absurd hu (by simp [hset])
  runtime := h'.runtime.trans h.runtime

/-- the columns of clusters and groups that are kept apart belong to rows, and scheduling without a type and a zone is
empty -/
structure Whole (s : Site) : Prop where
  software : ∀ i, s.db.clusters.find i = none → s.software.find i = none
  names : ∀ i, s.db.nodeGroups.find i = none → s.names.find i = none
  scheduling : ∀ i g, s.db.nodeGroups.find i = some g → unset g.scheduling = true → g.scheduling = {}

theorem craneZoneRegion_grows {z : Zone} {s s' : Site} (h : craneZoneRegion z s = .ok s') : Grows s s' := by
  have hkeep : Keeps s.regions s'.regions := by
    unfold craneZoneRegion at h
    split at h
    · split_ifs at h
      rw [← Except.ok.inj h]
      exact .refl _
    · rename_i hnone
      split_ifs at h
      rw [← Except.ok.inj h]
      exact keeps_put hnone
  rw [craneZoneRegion_db h]
  exact ⟨hkeep, .refl _, .refl _, .refl _, .refl _, .refl _, .refl _, same_groups (.refl _), rfl⟩

theorem createZone_grows {z : ZoneInput} {l : Lifecycle} {s s' : Site} (h : createZone z l s = (s', .ok ())) :
    Grows s s' := by
  obtain ⟨-, n, hi, -⟩ := createZone_ok h
  obtain ⟨s₁, hr, ⟨old, -, rfl, -⟩ | ⟨hf, -, rfl, -⟩⟩ := insertZone_ok hi
  · exact craneZoneRegion_grows hr
  · have hdb : s₁.db = s.db := by rw [craneZoneRegion_db hr]
    refine (craneZoneRegion_grows hr).trans ?_
    exact ⟨.refl _, .refl _, .refl _, keeps_put (by rw [hdb]; exact hf), .refl _, .refl _, .refl _,
      same_groups (.refl _), rfl⟩

theorem createCluster_grows {c : ClusterInput} {l : Lifecycle} {seed : Bool} {s s' : Site} (hw : Whole s)
    (h : createCluster c l seed s = (s', .ok ())) : Grows s s' := by
  obtain ⟨-, n, hi, -⟩ := createCluster_ok h
  unfold insertCluster at hi
  split at hi
  · simp only [Except.ok.injEq, Prod.mk.injEq] at hi
    rw [← hi.1]
    exact .refl s
  · rename_i hf
    simp only [Except.ok.injEq, Prod.mk.injEq] at hi
    rw [← hi.1]
    exact ⟨.refl _, keeps_put (hw.software c.id hf), .refl _, .refl _, keeps_put hf, .refl _, .refl _, same_groups (.refl _), rfl⟩

theorem createMembership_grows {m : ClusterZoneInput} {seed : Bool} {s s' : Site}
    (h : createMembership m seed s = (s', .ok ())) : Grows s s' := by
  obtain ⟨r, n, -, hi, -⟩ := createMembership_ok h
  unfold insertMembership at hi
  split at hi
  · simp only [Except.ok.injEq, Prod.mk.injEq] at hi
    rw [← hi.1]
    exact .refl s
  · rename_i hf
    split_ifs at hi
    simp only [Except.ok.injEq, Prod.mk.injEq] at hi
    rw [← hi.1]
    exact ⟨.refl _, .refl _, .refl _, .refl _, .refl _, keeps_put hf, .refl _, same_groups (.refl _), rfl⟩

theorem createPool_grows {p : NodePoolInput} {s s' : Site} (h : createPool p s = (s', .ok ())) : Grows s s' := by
  obtain ⟨-, n, row, hrow, hi, -⟩ := createPool_ok h
  simp only [insertPool, hrow] at hi
  split at hi
  · simp only [Except.ok.injEq, Prod.mk.injEq] at hi
    rw [← hi.1]
    exact .refl s
  · rename_i hf
    simp only [Except.ok.injEq, Prod.mk.injEq] at hi
    rw [← hi.1]
    refine ⟨.refl _, .refl _, .refl _, .refl _, .refl _, .refl _, keeps_put ?_, same_groups (.refl _), rfl⟩
    rw [(NodePoolInput.row_limits hrow).1]
    exact hf

/-- valid scheduling is empty or names its type -/
theorem schedulingFits_unset {g : NodeGroupInput} {s : Site} (h : schedulingFits g s = true)
    (hu : unset g.scheduling = true) : g.scheduling = {} := by
  simp only [unset, Bool.and_eq_true, decide_eq_true_eq] at hu
  simp only [schedulingFits, Bool.or_eq_true, Bool.not_eq_true', Bool.and_eq_true] at h
  rcases h with hg | ⟨hv, -⟩
  · simp only [given, Bool.or_eq_false_iff, decide_eq_false_iff_not, not_not, ne_eq] at hg
    obtain ⟨⟨⟨⟨⟨hi, hr⟩, hz⟩, ha⟩, hl⟩, ht⟩ := hg
    cases hs : g.scheduling
    simp_all
  · simp [validateScheduling, hu.1] at hv

theorem createGroup_grows {i : NodeGroupInput} {s s' : Site} (hw : Whole s) (h : createGroup i s = (s', .ok ())) :
    Grows s s' := by
  obtain ⟨g, launch, n, -, -, -, hfit, hq, hn⟩ := createGroup_ok h
  obtain ⟨row, hrow, ⟨old, hf, -, ht, rfl, -⟩ | ⟨-, -, rfl⟩ | ⟨hf, -, rfl, -⟩⟩ := insertGroup_ok hq
  · unfold fillScheduling
    split_ifs with he
    · exact .refl s
    · have hu : unset old.scheduling = true := ht.resolve_left he
      have hset : unset g.scheduling = false := by
        by_contra hu'
        exact he ((hw.scheduling g.id old hf hu).trans (schedulingFits_unset hfit (by simpa using hu')).symm)
      refine ⟨.refl _, .refl _, .refl _, .refl _, .refl _, .refl _, .refl _, fun j k hk => ?_, rfl⟩
      have hfind := Table.find_put s.db.nodeGroups { old with scheduling := g.scheduling } j
      by_cases hj : old.id = j
      · obtain rfl : old = k := by
          have hold := Table.find_mem (Table.mem_of_find hf)
          rw [hj, hk] at hold
          exact (Option.some.inj hold).symm
        exact ⟨g.scheduling, hfind.trans (if_pos hj), .inr ⟨hu, hset⟩⟩
      · exact ⟨k.scheduling, (hfind.trans (if_neg hj)).trans hk, .inl rfl⟩
  · exact absurd rfl hn
  · have hid := (NodeGroupInput.row_id hrow).1
    refine ⟨.refl _, .refl _, keeps_put (hw.names g.id hf), .refl _, .refl _, .refl _, .refl _, ?_, rfl⟩
    exact same_groups (keeps_put (by rw [hid]; exact hf))

/-! ## Rows stay whole -/

theorem Whole.congr {s s' : Site} (h : Whole s) (hc : s'.db.clusters = s.db.clusters) (hs : s'.software = s.software)
    (hg : s'.db.nodeGroups = s.db.nodeGroups) (hn : s'.names = s.names) : Whole s' :=
  ⟨by rw [hc, hs]; exact h.software, by rw [hg, hn]; exact h.names, by rw [hg]; exact h.scheduling⟩

theorem createZone_whole {z : ZoneInput} {l : Lifecycle} {s s' : Site} (hw : Whole s)
    (h : createZone z l s = (s', .ok ())) : Whole s' := by
  obtain ⟨-, n, hi, -⟩ := createZone_ok h
  obtain ⟨s₁, hr, ⟨old, -, rfl, -⟩ | ⟨-, -, rfl, -⟩⟩ := insertZone_ok hi
  · rw [craneZoneRegion_db hr]
    exact hw.congr rfl rfl rfl rfl
  · rw [craneZoneRegion_db hr]
    exact hw.congr rfl rfl rfl rfl

theorem createCluster_whole {c : ClusterInput} {l : Lifecycle} {seed : Bool} {s s' : Site} (hw : Whole s)
    (h : createCluster c l seed s = (s', .ok ())) : Whole s' := by
  obtain ⟨-, n, hi, -⟩ := createCluster_ok h
  unfold insertCluster at hi
  split at hi
  · simp only [Except.ok.injEq, Prod.mk.injEq] at hi
    rw [← hi.1]
    exact hw
  · simp only [Except.ok.injEq, Prod.mk.injEq] at hi
    rw [← hi.1]
    refine ⟨fun j hj => ?_, hw.names, hw.scheduling⟩
    have hj : (s.db.clusters.put ⟨c.id, c.apiServerEndpoint, c.caCertHash, l⟩).find j = none := hj
    rw [Table.find_put] at hj
    split_ifs at hj with hne
    show (s.software.put c.software).find j = none
    rw [Table.find_put, if_neg (show ¬c.software.clusterId = j from hne)]
    exact hw.software j hj

theorem createMembership_whole {m : ClusterZoneInput} {seed : Bool} {s s' : Site} (hw : Whole s)
    (h : createMembership m seed s = (s', .ok ())) : Whole s' := by
  obtain ⟨r, n, -, hi, -⟩ := createMembership_ok h
  unfold insertMembership at hi
  split at hi
  · simp only [Except.ok.injEq, Prod.mk.injEq] at hi
    rw [← hi.1]
    exact hw
  · split_ifs at hi
    simp only [Except.ok.injEq, Prod.mk.injEq] at hi
    rw [← hi.1]
    exact hw.congr rfl rfl rfl rfl

theorem createPool_whole {p : NodePoolInput} {s s' : Site} (hw : Whole s) (h : createPool p s = (s', .ok ())) :
    Whole s' := by
  obtain ⟨-, n, row, hrow, hi, -⟩ := createPool_ok h
  simp only [insertPool, hrow] at hi
  split at hi
  · simp only [Except.ok.injEq, Prod.mk.injEq] at hi
    rw [← hi.1]
    exact hw
  · simp only [Except.ok.injEq, Prod.mk.injEq] at hi
    rw [← hi.1]
    exact hw.congr rfl rfl rfl rfl

/-- a group version with valid scheduling, stored together with its name -/
theorem Whole.putGroup {s : Site} (hw : Whole s) (g : NodeGroup) (hs : unset g.scheduling = true → g.scheduling = {})
    (names : Table GroupNaming.groupId) (hn : ∀ i, g.id ≠ i → names.find i = s.names.find i) :
    Whole { s.put (.nodeGroup g) with names := names } := by
  refine ⟨hw.software, fun i hi => ?_, fun i k hk hu => ?_⟩
  · have hi : (s.db.nodeGroups.put g).find i = none := hi
    rw [Table.find_put] at hi
    split_ifs at hi with hne
    exact (hn i hne).trans (hw.names i hi)
  · have hk : (s.db.nodeGroups.put g).find i = some k := hk
    rw [Table.find_put] at hk
    split_ifs at hk with he
    · rw [← Option.some.inj hk] at hu ⊢
      exact hs hu
    · exact hw.scheduling i k hk hu

theorem createGroup_whole {i : NodeGroupInput} {s s' : Site} (hw : Whole s) (h : createGroup i s = (s', .ok ())) :
    Whole s' := by
  obtain ⟨g, launch, n, -, -, -, hfit, hq, hn⟩ := createGroup_ok h
  obtain ⟨row, hrow, ⟨old, hf, -, ht, rfl, -⟩ | ⟨-, -, rfl⟩ | ⟨hf, -, rfl, -⟩⟩ := insertGroup_ok hq
  · unfold fillScheduling
    split_ifs with he
    · exact hw
    · exact hw.putGroup { old with scheduling := g.scheduling } (schedulingFits_unset hfit) s.names fun _ _ => rfl
  · exact absurd rfl hn
  · obtain ⟨hid, hs⟩ := NodeGroupInput.row_id hrow
    refine hw.putGroup row (by rw [hs]; exact schedulingFits_unset hfit) _ fun j hj => ?_
    rw [Table.find_put, if_neg]
    rwa [hid] at hj

/-! ## Seeds -/

/-- **A successful seed only adds rows and fills in scheduling that was never given.** -/
theorem seedFirstZoneTx_grows {i : FirstZoneInput} {ready : Bool} {s s' : Site} (hw : Whole s)
    (h : seedFirstZoneTx i ready s = .ok s') : Grows s s' ∧ Whole s' := by
  obtain ⟨-, s₁, s₂, s₃, s₄, h₁, h₂, h₃, h₄, h₅⟩ := seedFirstZoneTx_ok.mp h
  have w₁ := createZone_whole hw h₁
  have w₂ := createCluster_whole w₁ h₂
  have w₃ := createMembership_whole w₂ h₃
  have w₄ := createPool_whole w₃ h₄
  refine ⟨?_, createGroup_whole w₄ h₅⟩
  exact (createZone_grows h₁).trans ((createCluster_grows w₁ h₂).trans ((createMembership_grows h₃).trans
    ((createPool_grows h₄).trans (createGroup_grows w₄ h₅))))

/-- what a creation compares is kept: places, versions, limits, names and declared columns; discovery is only set -/
structure Kept (s s' : Site) : Prop where
  regions : Keeps s.regions s'.regions
  software : Keeps s.software s'.software
  names : Keeps s.names s'.names
  zones : ∀ i z, s.db.zones.find i = some z → ∃ z', s'.db.zones.find i = some z' ∧ z'.place = z.place
  clusters : ∀ i c, s.db.clusters.find i = some c → ∃ c', s'.db.clusters.find i = some c' ∧
    (c.apiServerEndpoint ≠ "" → c'.apiServerEndpoint = c.apiServerEndpoint) ∧
    (c.caCertHash ≠ "" → c'.caCertHash = c.caCertHash)
  memberships : ∀ i, (s.db.clusterZones.find i).isSome = true → (s'.db.clusterZones.find i).isSome = true
  pools : ∀ i p, s.db.nodePools.find i = some p → ∃ p', s'.db.nodePools.find i = some p' ∧ p'.limits = p.limits
  groups : ∀ i g, s.db.nodeGroups.find i = some g → ∃ g', s'.db.nodeGroups.find i = some g' ∧ g'.declared = g.declared

theorem Kept.refl (s : Site) : Kept s s :=
  ⟨.refl _, .refl _, .refl _, fun _ z h => ⟨z, h, rfl⟩, fun _ c h => ⟨c, h, fun _ => rfl, fun _ => rfl⟩, fun _ h => h,
    fun _ p h => ⟨p, h, rfl⟩, fun _ g h => ⟨g, h, rfl⟩⟩

theorem Kept.trans {s s' s'' : Site} (h : Kept s s') (h' : Kept s' s'') : Kept s s'' where
  regions := h.regions.trans h'.regions
  software := h.software.trans h'.software
  names := h.names.trans h'.names
  zones := by
    intro i z hz
    obtain ⟨z', hz', hp⟩ := h.zones i z hz
    obtain ⟨z'', hz'', hp'⟩ := h'.zones i z' hz'
    exact ⟨z'', hz'', hp'.trans hp⟩
  clusters := by
    intro i c hc
    obtain ⟨c', hc', he, hh⟩ := h.clusters i c hc
    obtain ⟨c'', hc'', he', hh'⟩ := h'.clusters i c' hc'
    refine ⟨c'', hc'', fun hne => ?_, fun hne => ?_⟩
    · exact (he' (by rw [he hne]; exact hne)).trans (he hne)
    · exact (hh' (by rw [hh hne]; exact hne)).trans (hh hne)
  memberships := fun i hi => h'.memberships i (h.memberships i hi)
  pools := by
    intro i p hp
    obtain ⟨p', hp', hl⟩ := h.pools i p hp
    obtain ⟨p'', hp'', hl'⟩ := h'.pools i p' hp'
    exact ⟨p'', hp'', hl'.trans hl⟩
  groups := by
    intro i g hg
    obtain ⟨g', hg', hd⟩ := h.groups i g hg
    obtain ⟨g'', hg'', hd'⟩ := h'.groups i g' hg'
    exact ⟨g'', hg'', hd'.trans hd⟩

theorem Grows.kept {s s' : Site} (h : Grows s s') : Kept s s' where
  regions := h.regions
  software := h.software
  names := h.names
  zones := fun i z hz => ⟨z, h.zones i z hz, rfl⟩
  clusters := fun i c hc => ⟨c, h.clusters i c hc, fun _ => rfl, fun _ => rfl⟩
  memberships := by
    intro i hi
    obtain ⟨m, hm⟩ := Option.isSome_iff_exists.mp hi
    rw [h.memberships i m hm]
    rfl
  pools := fun i p hp => ⟨p, h.pools i p hp, rfl⟩
  groups := by
    intro i g hg
    obtain ⟨t, hg', -⟩ := h.groups i g hg
    exact ⟨_, hg', rfl⟩

section Kept
variable {s s' : Site}

theorem Kept.zoneStored (h : Kept s s') {z : ZoneInput} (hz : ZoneStored z s) : ZoneStored z s' := by
  obtain ⟨⟨r, hr, hk⟩, old, hf, hp⟩ := hz
  obtain ⟨old', hf', hp'⟩ := h.zones _ _ hf
  exact ⟨⟨r, h.regions _ _ hr, hk⟩, old', hf', hp'.trans hp⟩

/-- a discovery value that a seed accepts is accepted as long as it is only set -/
theorem discovered_kept {stored stored' given : String} (h : discovered true stored given = true)
    (hk : stored ≠ "" → stored' = stored) : discovered true stored' given = true := by
  simp only [discovered, Bool.true_and, Bool.or_eq_true, decide_eq_true_eq] at h ⊢
  rcases h with rfl | h
  · by_cases he : stored = ""
    · exact .inr he
    · exact .inl (hk he)
  · exact .inr h

theorem Kept.clusterStored (h : Kept s s') {c : ClusterInput} (hc : ClusterStored c s) : ClusterStored c s' := by
  obtain ⟨hs, old, hf, he, hh⟩ := hc
  obtain ⟨old', hf', hke, hkh⟩ := h.clusters _ _ hf
  exact ⟨h.software _ _ hs, old', hf', discovered_kept he hke, discovered_kept hh hkh⟩

theorem Kept.poolStored (h : Kept s s') {p : NodePoolInput} (hp : PoolStored p s) : PoolStored p s' := by
  obtain ⟨old, hf, hl⟩ := hp
  obtain ⟨old', hf', hl'⟩ := h.pools _ _ hf
  exact ⟨old', hf', hl'.trans hl⟩

theorem Kept.schedulingFits (h : Kept s s') {g : NodeGroupInput} (hf : schedulingFits g s = true) :
    schedulingFits g s' = true := by
  simp only [Topology.schedulingFits, Bool.or_eq_true, Bool.and_eq_true, Option.any_eq_true] at hf ⊢
  rcases hf with hf | ⟨hv, z, hz, hp⟩
  · exact .inl hf
  · obtain ⟨z', hz', hpl⟩ := h.zones _ _ hz
    simp only [Zone.place, Prod.mk.injEq] at hpl
    exact .inr ⟨hv, z', hz', by rw [hpl.2.2.2.2.1, hpl.2.2.2.2.2]; exact hp⟩

theorem Kept.groupStored (h : Kept s s') {i : NodeGroupInput} (hg : GroupStored i s) : GroupStored i s' := by
  obtain ⟨g, launch, row, old, hn, hl, hv, hfit, hrow, hf, hd, hname⟩ := hg
  obtain ⟨old', hf', hd'⟩ := h.groups _ _ hf
  exact ⟨g, launch, row, old', hn, hl, hv, h.schedulingFits hfit, hrow, hf', hd'.trans hd, h.names _ _ hname⟩

end Kept

/-- the rows of a seed, except for the group's template -/
structure Seeded (i : FirstZoneInput) (ready : Bool) (s : Site) : Prop where
  consistent : i.consistent = true
  validZone : i.zone.valid = true
  zone : ZoneStored i.zone s
  validCluster : i.cluster.valid = true
  cluster : ClusterStored i.cluster s
  validMember : (normalizeMembership (i.member ready)).isSome = true
  member : MemberStored (i.member ready) s
  validPool : i.pool.valid = true ∧ i.pool.row.isSome = true
  pool : PoolStored i.pool s
  group : GroupStored i.group s

theorem seedFirstZoneTx_seeded {i : FirstZoneInput} {ready : Bool} {s s' : Site} (hw : Whole s)
    (h : seedFirstZoneTx i ready s = .ok s') : Seeded i ready s' ∧ TemplateStored i.group s' := by
  obtain ⟨hc, s₁, s₂, s₃, s₄, h₁, h₂, h₃, h₄, h₅⟩ := seedFirstZoneTx_ok.mp h
  have w₁ := createZone_whole hw h₁
  have w₂ := createCluster_whole w₁ h₂
  have w₃ := createMembership_whole w₂ h₃
  have w₄ := createPool_whole w₃ h₄
  have k₅ := (createGroup_grows w₄ h₅).kept
  have k₄ := (createPool_grows h₄).kept.trans k₅
  have k₃ := (createMembership_grows h₃).kept.trans k₄
  have k₂ := (createCluster_grows w₁ h₂).kept.trans k₃
  obtain ⟨hgroup, htemplate⟩ := createGroup_stored h₅
  obtain ⟨r, -, hm, -⟩ := createMembership_ok h₃
  obtain ⟨hvp, -, row, hrow, -⟩ := createPool_ok h₄
  refine ⟨⟨hc, (createZone_ok h₁).1, k₂.zoneStored (createZone_stored h₁), (createCluster_ok h₂).1,
    k₃.clusterStored (createCluster_stored h₂), by rw [hm]; rfl, ?_, ⟨hvp, by rw [hrow]; rfl⟩,
    k₅.poolStored (createPool_stored h₄), hgroup⟩, htemplate⟩
  exact k₄.memberships _ (createMembership_stored h₃)

theorem Seeded.kept {i : FirstZoneInput} {ready : Bool} {s s' : Site} (h : Seeded i ready s) (hk : Kept s s') :
    Seeded i ready s' :=
  { h with
    zone := hk.zoneStored h.zone, cluster := hk.clusterStored h.cluster, member := hk.memberships _ h.member
    pool := hk.poolStored h.pool, group := hk.groupStored h.group }

/-- **A seed whose rows are stored succeeds and changes nothing.** -/
theorem Seeded.again {i : FirstZoneInput} {ready : Bool} {s : Site} (h : Seeded i ready s)
    (ht : TemplateStored i.group s) : seedFirstZoneTx i ready s = .ok s := by
  obtain ⟨r, hm⟩ := Option.isSome_iff_exists.mp h.validMember
  obtain ⟨row, hrow⟩ := Option.isSome_iff_exists.mp h.validPool.2
  exact seedFirstZoneTx_ok.mpr ⟨h.consistent, s, s, s, s, createZone_again h.validZone h.zone,
    createCluster_again h.validCluster h.cluster, createMembership_again hm h.member,
    createPool_again h.validPool.1 hrow h.pool, createGroup_again h.group ht⟩

end Crane.Topology
