/-
The phase machine of zone bootstraps over whole runs: phases move one step at a time, a zone and a cluster have at most
one active bootstrap (`Alone`), and the cluster, the zone and their membership become ready together with its last phase.

- `Moves`, `BootStep.moves`: a phase is as it was, or the holder of the operation moved it to the next one or to Failed.
- `step_opening`: between the two steps of `CreateBootstrap` its cluster has no active bootstrap.
- `step_life`: lifecycles of clusters and zones change with the last phase of a bootstrap only.
-/
import Mathlib.Data.List.Pairwise
import Crane.Topology.Phases

namespace Crane.Topology

open Capacity Tx

/-! ## One active bootstrap -/

/-- active bootstraps share no zone and no cluster, and their cluster and zone are not ready; a request between its two
steps is the only one of its cluster, which has no active bootstrap -/
structure Alone (w : World) : Prop where
  zones : ∀ i j b b', w.site.bootstraps.find i = some b → w.site.bootstraps.find j = some b' →
    b.phase.terminal = false → b'.phase.terminal = false → b.zoneId = b'.zoneId → i = j
  clusters : ∀ i j b b', w.site.bootstraps.find i = some b → w.site.bootstraps.find j = some b' →
    b.phase.terminal = false → b'.phase.terminal = false → b.clusterId = b'.clusterId → i = j
  rows : ∀ i b, w.site.bootstraps.find i = some b → b.phase.terminal = false →
    (∃ c, w.site.db.clusters.find b.clusterId = some c ∧ c.lifecycle = .initializing) ∧
      ∃ z, w.site.db.zones.find b.zoneId = some z ∧ z.lifecycle = .initializing
  free : ∀ r ∈ w.opening, ∀ i b, w.site.bootstraps.find i = some b → b.phase.terminal = false →
    b.clusterId ≠ r.clusterId
  apart : w.opening.Pairwise fun r r' => r.clusterId ≠ r'.clusterId

/-- the phases a step can take from `p` to `q` -/
inductive Moves (p : ZoneBootstrapPhase) : ZoneBootstrapPhase → Prop
  | next {q : ZoneBootstrapPhase} (h : p.next = some q) : Moves p q
  | fail (h : p.terminal = false) : Moves p .failed

theorem Moves.open {p q : ZoneBootstrapPhase} (h : Moves p q) : p.terminal = false := by
  cases h with
  | next h => cases p <;> simp_all [ZoneBootstrapPhase.next, ZoneBootstrapPhase.terminal]
  | fail h => exact h

/-- a bootstrap is as it was, or its operation's holder has moved it -/
theorem BootStep.moves {now : ℕ} {a : Act} {o o' : OperationRow} {b b' : Bootstrap} (h : BootStep now a o b o' b')
    (hb : b.phase.agrees o.state = true) : b' = b ∨ ∃ op v, a = .controller op (.bootstrapPhase b'.phase v) ∧
      op.id = o.id ∧ Moves b.phase b'.phase ∧ (b'.phase = .ready → v = true) ∧ b' = { b with phase := b'.phase } := by
  cases h with
  | phase _ _ op next v hi hh ha hn hv =>
    refine .inr ⟨op, v, rfl, hi, ?_, hv, rfl⟩
    rcases hn with rfl | hn
    · exact .fail (agrees_of_active hb ha)
    · exact .next hn
  | _ => exact .inl rfl

/-- a bootstrap that is active after a step was active before, or is new -/
theorem step_active (E : Env) {w : World} (hw : Whole w.site) (hr : Rows w) (a : Act) {i : String} {b' : Bootstrap}
    (hb' : (step E w a).site.bootstraps.find i = some b') (ht : b'.phase.terminal = false) :
    (∃ b, w.site.bootstraps.find i = some b ∧ b.phase.terminal = false ∧ b'.zoneId = b.zoneId ∧
      b'.clusterId = b.clusterId) ∨
    ∃ r u s₁, a = .finish r u ∧ Inserts w r u s₁ (step E w a).site ∧ i = u 0 ∧ b'.zoneId = r.zoneId ∧
      b'.clusterId = r.clusterId := by
  rcases (step_fromBoots E hw a).1 i b' hb' with hsome | ⟨r, u, s₁, ha, hins, rfl⟩
  · obtain ⟨b, hb⟩ := Option.isSome_iff_exists.mp hsome
    obtain ⟨o, ho, -, -, hagree⟩ := hr.ops i b hb
    obtain ⟨o', b'', -, hb'', hs⟩ := step_boots E hw hr a i o b ho hb
    obtain rfl := Option.some.inj (hb''.symm.trans hb')
    refine .inl ⟨b, hb, ?_, hs.ids.1, hs.ids.2.1⟩
    rcases hs.moves hagree with rfl | ⟨op, v, -, -, hm, -⟩
    · exact ht
    · exact hm.open
  · obtain rfl := Option.some.inj (hins.rows.1.symm.trans hb')
    exact .inr ⟨r, u, s₁, ha, hins, rfl, rfl, rfl⟩

/-- what a committed request knows of the other bootstraps -/
theorem Inserts.fresh {w : World} {r : BootstrapRequest} {u : Uuids} {s₁ s' : Site} (h : Inserts w r u s₁ s') {j : String}
    {b : Bootstrap} (hb : w.site.bootstraps.find j = some b) (ht : b.phase.terminal = false) : b.zoneId ≠ r.zoneId := by
  intro hz
  have htaken := h.taken
  simp only [bootstrapTaken, Bool.or_eq_false_iff] at htaken
  have hmem : b ∈ s₁.bootstraps.rows := by
    rw [h.same.boots]
    exact Table.mem_of_find hb
  have := List.any_eq_false.mp htaken.2 b hmem
  simp [hz, ht] at this

theorem step_zones (E : Env) {w : World} (hw : Whole w.site) (hr : Rows w) (hal : Alone w) (a : Act) (i j : String)
    (b b' : Bootstrap) (hi : (step E w a).site.bootstraps.find i = some b)
    (hj : (step E w a).site.bootstraps.find j = some b') (ht : b.phase.terminal = false) (ht' : b'.phase.terminal = false)
    (hz : b.zoneId = b'.zoneId) : i = j := by
  rcases step_active E hw hr a hi ht with ⟨b₀, hb₀, ht₀, hz₀, -⟩ | ⟨r, u, s₁, ha, hins, rfl, hz₁, -⟩ <;>
    rcases step_active E hw hr a hj ht' with ⟨b₁, hb₁, ht₁, hz₂, -⟩ | ⟨r', u', s₂, ha', hins', rfl, hz₃, -⟩
  · exact hal.zones i j b₀ b₁ hb₀ hb₁ ht₀ ht₁ (hz₀.symm.trans (hz.trans hz₂))
  · exact absurd (hz₀.symm.trans (hz.trans hz₃)) (hins'.fresh hb₀ ht₀)
  · exact absurd (hz₂.symm.trans (hz.symm.trans hz₁)) (hins.fresh hb₁ ht₁)
  · rw [ha] at ha'
    obtain ⟨-, rfl⟩ := Act.finish.inj ha'
    rfl

theorem step_clusters (E : Env) {w : World} (hw : Whole w.site) (hr : Rows w) (hal : Alone w) (a : Act) (i j : String)
    (b b' : Bootstrap) (hi : (step E w a).site.bootstraps.find i = some b)
    (hj : (step E w a).site.bootstraps.find j = some b') (ht : b.phase.terminal = false) (ht' : b'.phase.terminal = false)
    (hc : b.clusterId = b'.clusterId) : i = j := by
  rcases step_active E hw hr a hi ht with ⟨b₀, hb₀, ht₀, -, hc₀⟩ | ⟨r, u, s₁, ha, hins, rfl, -, hc₁⟩ <;>
    rcases step_active E hw hr a hj ht' with ⟨b₁, hb₁, ht₁, -, hc₂⟩ | ⟨r', u', s₂, ha', hins', rfl, -, hc₃⟩
  · exact hal.clusters i j b₀ b₁ hb₀ hb₁ ht₀ ht₁ (hc₀.symm.trans (hc.trans hc₂))
  · exact absurd (hc₀.symm.trans (hc.trans hc₃)) (hal.free r' hins'.opening i b₀ hb₀ ht₀)
  · exact absurd (hc₂.symm.trans (hc.symm.trans hc₁)) (hal.free r hins.opening j b₁ hb₁ ht₁)
  · rw [ha] at ha'
    obtain ⟨-, rfl⟩ := Act.finish.inj ha'
    rfl

/-- a request goes on if its cluster has no active bootstrap -/
theorem openBootstrap_free {r : BootstrapRequest} {s : Site} (h : openBootstrap r s = .ok none) :
    clusterBusy r s = false := by
  unfold openBootstrap at h
  split at h
  · simp at h
  · split at h
    · simp at h
    · split at h
      · split at h <;> simp at h
      · split at h
        · simp at h
        · rename_i hb
          simpa using hb

/-- the lock of the cluster, from the first step of a request to its end -/
theorem step_opening (E : Env) {w : World} (hw : Whole w.site) (hr : Rows w) (hal : Alone w) (a : Act) :
    (∀ r ∈ (step E w a).opening, ∀ i b, (step E w a).site.bootstraps.find i = some b → b.phase.terminal = false →
      b.clusterId ≠ r.clusterId) ∧ (step E w a).opening.Pairwise fun r r' => r.clusterId ≠ r'.clusterId := by
  -- requests that were open before keep their cluster free: a new bootstrap is of another cluster
  have hold : ∀ r ∈ w.opening, (∀ r' u, a = .finish r' u → r ≠ r') → ∀ i b,
      (step E w a).site.bootstraps.find i = some b → b.phase.terminal = false → b.clusterId ≠ r.clusterId := by
    intro r hmem hne i b hb ht
    rcases step_active E hw hr a hb ht with ⟨b₀, hb₀, ht₀, -, hc₀⟩ | ⟨r', u, s₁, ha, hins, rfl, -, hc₁⟩
    · rw [hc₀]
      exact hal.free r hmem i b₀ hb₀ ht₀
    · rw [hc₁]
      have : Std.Symm fun r r' : BootstrapRequest => r.clusterId ≠ r'.clusterId := ⟨fun _ _ h => h.symm⟩
      exact hal.apart.forall hins.opening hmem fun e => hne r' u ha e.symm
  cases a with
  | «open» i =>
    have hsite : (step E w (.open i)).site = w.site := by
      simp only [step]
      split_ifs
      · rfl
      · split <;> rfl
    simp only [hsite] at hold ⊢
    simp only [step]
    split_ifs with hbusy
    · exact ⟨fun r hmem => hold r hmem (by simp), hal.apart⟩
    · split
      · rename_i hopen
        refine ⟨fun r hmem j b hb ht => ?_, List.pairwise_cons.mpr ⟨fun r hmem => ?_, hal.apart⟩⟩
        · rcases List.mem_cons.mp hmem with rfl | hmem
          · -- the check for an active operation of the cluster
            intro hc
            have hfree := openBootstrap_free hopen
            obtain ⟨o, ho, hboot, -⟩ := hr.ops j b hb
            have hid : b.operationId = j := Table.key_of_find hb
            have := List.any_eq_false.mp hfree b (Table.mem_of_find hb)
            simp [hc, ht, hid, ho, hboot.kind] at this
          · exact hold r hmem (by simp) j b hb ht
        · intro hc
          exact hbusy (List.any_eq_true.mpr ⟨r, hmem, by simpa using hc.symm⟩)
      · exact ⟨fun r hmem => hold r hmem (by simp), hal.apart⟩
  | finish i u =>
    have hopening : (step E w (.finish i u)).opening = if i ∈ w.opening then w.opening.filter (· ≠ i) else w.opening := by
      simp only [step]
      split_ifs <;> rfl
    rw [hopening]
    split_ifs with hmem
    · refine ⟨fun r hr' => ?_, hal.apart.filter _⟩
      obtain ⟨hr', hne⟩ := List.mem_filter.mp hr'
      refine hold r hr' fun r' u' he => ?_
      obtain ⟨rfl, -⟩ := Act.finish.inj he
      simpa using hne
    · refine ⟨fun r hr' => hold r hr' fun r' u' he => ?_, hal.apart⟩
      obtain ⟨rfl, -⟩ := Act.finish.inj he
      rintro rfl
      exact hmem hr'
  | abort i =>
    refine ⟨fun r hr' => hold r (List.mem_of_mem_filter hr') (by simp), hal.apart.filter _⟩
  | controller op c =>
    have hopening : (step E w (.controller op c)).opening = w.opening := by
      simp only [step]
      split_ifs <;> rfl
    rw [hopening]
    exact ⟨fun r hmem => hold r hmem (by simp), hal.apart⟩
  | call c ans =>
    have hopening : (step E w (.call c ans)).opening = w.opening := by
      simp only [step]
      split_ifs
      · rfl
      · split <;> rfl
    rw [hopening]
    exact ⟨fun r hmem => hold r hmem (by simp), hal.apart⟩
  | _ => exact ⟨fun r hmem => hold r hmem (by simp), hal.apart⟩

/-! ## Lifecycles -/

/-- clusters and zones stay in their lifecycle -/
structure SameLife (s s' : Site) : Prop where
  clusters : ∀ i c, s.db.clusters.find i = some c → ∃ c', s'.db.clusters.find i = some c' ∧ c'.lifecycle = c.lifecycle
  zones : ∀ i z, s.db.zones.find i = some z → ∃ z', s'.db.zones.find i = some z' ∧ z'.lifecycle = z.lifecycle

theorem SameLife.of_keeps {s s' : Site} (hc : Keeps s.db.clusters s'.db.clusters) (hz : Keeps s.db.zones s'.db.zones) :
    SameLife s s' :=
  ⟨fun i c h => ⟨c, hc i c h, rfl⟩, fun i z h => ⟨z, hz i z h, rfl⟩⟩

theorem SameLife.of_eq {s s' : Site} (hc : s'.db.clusters = s.db.clusters) (hz : s'.db.zones = s.db.zones) :
    SameLife s s' := by
  refine .of_keeps ?_ ?_
  · rw [hc]
    exact .refl _
  · rw [hz]
    exact .refl _

/-- a cluster, a zone and their membership become ready, and nothing else does -/
structure Readied (clusterId zoneId : String) (s s' : Site) : Prop where
  others : (∀ i, i ≠ clusterId → s'.db.clusters.find i = s.db.clusters.find i) ∧
    ∀ i, i ≠ zoneId → s'.db.zones.find i = s.db.zones.find i
  cluster : ∀ c, s.db.clusters.find clusterId = some c → c.lifecycle = .initializing →
    s'.db.clusters.find clusterId = some { c with lifecycle := .ready }
  zone : ∀ z, s.db.zones.find zoneId = some z → z.lifecycle = .initializing →
    s'.db.zones.find zoneId = some { z with lifecycle := .ready }
  membership : ∃ m, s.db.clusterZones.find (clusterId, zoneId) = some m ∧ m.lifecycle = .initializing ∧
    m.access = .pending ∧
    s'.db.clusterZones.find (clusterId, zoneId) = some { m with lifecycle := .ready, access := .approved }

theorem clusterReady_find (id : String) (s : Site) : (∀ i, i ≠ id → (clusterReady id s).db.clusters.find i =
    s.db.clusters.find i) ∧ (∀ c, s.db.clusters.find id = some c → c.lifecycle = .initializing →
      (clusterReady id s).db.clusters.find id = some { c with lifecycle := .ready }) ∧
    (clusterReady id s).db.zones = s.db.zones ∧ (clusterReady id s).db.clusterZones = s.db.clusterZones ∧
    (clusterReady id s).db.zoneDominators = s.db.zoneDominators := by
  unfold clusterReady
  cases hf : s.db.clusters.find id with
  | none => exact ⟨fun _ _ => rfl, by simp, rfl, rfl, rfl⟩
  | some c =>
    dsimp only
    by_cases hl : c.lifecycle = .initializing
    · rw [if_pos hl]
      refine ⟨fun i hi => ?_, fun c' hc' _ => ?_, rfl, rfl, rfl⟩
      · exact Table.find_update_ne _ hf rfl hi
      · obtain rfl := Option.some.inj hc'
        exact Table.find_update _ hf rfl
    · rw [if_neg hl]
      refine ⟨fun _ _ => rfl, fun c' hc' hl' => ?_, rfl, rfl, rfl⟩
      rw [← Option.some.inj hc'] at hl'
      exact absurd hl' hl

theorem zoneReady_find (id : String) (s : Site) : (∀ i, i ≠ id → (zoneReady id s).db.zones.find i =
    s.db.zones.find i) ∧ (∀ z, s.db.zones.find id = some z → z.lifecycle = .initializing →
      (zoneReady id s).db.zones.find id = some { z with lifecycle := .ready }) ∧
    (zoneReady id s).db.clusters = s.db.clusters ∧ (zoneReady id s).db.clusterZones = s.db.clusterZones ∧
    (zoneReady id s).db.zoneDominators = s.db.zoneDominators := by
  unfold zoneReady
  cases hf : s.db.zones.find id with
  | none => exact ⟨fun _ _ => rfl, by simp, rfl, rfl, rfl⟩
  | some z =>
    dsimp only
    by_cases hl : z.lifecycle = .initializing
    · rw [if_pos hl]
      refine ⟨fun i hi => ?_, fun z' hz' _ => ?_, rfl, rfl, rfl⟩
      · exact Table.find_update_ne _ hf rfl hi
      · obtain rfl := Option.some.inj hz'
        exact Table.find_update _ hf rfl
    · rw [if_neg hl]
      refine ⟨fun _ _ => rfl, fun z' hz' hl' => ?_, rfl, rfl, rfl⟩
      rw [← Option.some.inj hz'] at hl'
      exact absurd hl' hl

theorem membershipReady_find {c z : String} {s s' : Site} (h : membershipReady c z s = some s') :
    (∃ m, s.db.clusterZones.find (c, z) = some m ∧ m.lifecycle = .initializing ∧ m.access = .pending ∧
      s'.db.clusterZones.find (c, z) = some { m with lifecycle := .ready, access := .approved }) ∧
    s'.db.clusters = s.db.clusters ∧ s'.db.zones = s.db.zones ∧ s'.db.zoneDominators = s.db.zoneDominators := by
  unfold membershipReady at h
  cases hf : s.db.clusterZones.find (c, z) with
  | none => simp [hf] at h
  | some m =>
    simp only [hf, Option.ite_none_right_eq_some, Option.some.injEq] at h
    obtain ⟨⟨hl, ha⟩, rfl⟩ := h
    exact ⟨⟨m, rfl, hl, ha, Table.find_update _ hf rfl⟩, rfl, rfl, rfl⟩

/-- the phase is stored beside the topology -/
theorem advance_topology (o : OperationRow) (b : Bootstrap) (next : ZoneBootstrapPhase) (s : Site) :
    (advance o b next s).db.clusters = s.db.clusters ∧ (advance o b next s).db.zones = s.db.zones ∧
      (advance o b next s).db.clusterZones = s.db.clusterZones ∧
      (advance o b next s).db.zoneDominators = s.db.zoneDominators := by
  unfold advance
  dsimp only
  by_cases ht : next.terminal = true
  · rw [if_pos ht]
    exact ⟨rfl, rfl, rfl, rfl⟩
  · rw [if_neg ht]
    exact ⟨rfl, rfl, rfl, rfl⟩

/-- the effect of a committed phase call on the topology -/
theorem enterPhase_life {op : Operation} {next : ZoneBootstrapPhase} {v : Bool} {o : OperationRow} {b : Bootstrap}
    {s s' : Site} (h : enterPhase op next v o b s = (s', .ok ())) :
    (next ≠ .ready ∧ SameLife s s') ∨ (next = .ready ∧ Readied b.clusterId op.zoneId s s') := by
  obtain ⟨-, -, ⟨hne, rfl⟩ | ⟨he, s₁, hm, rfl⟩⟩ := enterPhase_ok h
  · obtain ⟨hc, hz, -⟩ := advance_topology o b next s
    exact .inl ⟨hne, .of_eq hc hz⟩
  · obtain ⟨hc, hz, hcz, -⟩ := advance_topology o b next s₁
    obtain ⟨⟨m, hf, hl, ha, hf'⟩, hmc, hmz, -⟩ := membershipReady_find hm
    obtain ⟨hzo, hzz, hzc, hzm, -⟩ := zoneReady_find op.zoneId (clusterReady b.clusterId s)
    obtain ⟨hco, hcc, hcz', hcm, -⟩ := clusterReady_find b.clusterId s
    rw [hcz'] at hzo hzz
    rw [hzm, hcm] at hf
    refine .inr ⟨he, ⟨fun i hi => ?_, fun i hi => ?_⟩, fun c hf hl => ?_, fun z hf hl => ?_, m, hf, hl, ha, ?_⟩
    · rw [hc, hmc, hzc]
      exact hco i hi
    · rw [hz, hmz]
      exact hzo i hi
    · rw [hc, hmc, hzc]
      exact hcc c hf hl
    · rw [hz, hmz]
      exact hzz z hf hl
    · rw [hcz]
      exact hf'

/-- the phase a committed call has stored -/
theorem bootstrapPhase_stored {op : Operation} {next : ZoneBootstrapPhase} {v : Bool} {s s' : Site}
    (h : bootstrapPhase op next v s = (s', .ok ())) : ∃ o b, heldBootstrap s op = some (o, b) ∧
      enterPhase op next v o b s = (s', .ok ()) ∧ s'.bootstraps.find op.id = some { b with phase := next } := by
  obtain ⟨-, o, b, hheld, he⟩ := bootstrapPhase_ok h
  obtain ⟨-, -, -, hb⟩ := heldBootstrap_eq_some hheld
  obtain ⟨s₁, hsame, -, rfl⟩ := enterPhase_advance he
  refine ⟨o, b, hheld, he, ?_⟩
  rw [(advance_operations o b next s₁).1, hsame.boots]
  exact Table.find_update _ hb rfl

/-- **Lifecycles change with the last phase of a bootstrap only.** -/
theorem step_life (E : Env) {w : World} (hw : Whole w.site) (a : Act) : SameLife w.site (step E w a).site ∨
    ∃ op v o b, a = .controller op (.bootstrapPhase .ready v) ∧ op ∈ w.held ∧ op.kind = .createCluster ∧
      heldBootstrap w.site op = some (o, b) ∧ Readied b.clusterId op.zoneId w.site (step E w a).site ∧
      (step E w a).site.bootstraps.find op.id = some { b with phase := .ready } := by
  have hst := step_cases E hw a
  generalize (step E w a).site = s' at hst ⊢
  cases hst with
  | grows _ hg _ => exact .inl (.of_keeps hg.clusters hg.zones)
  | call hc h =>
    obtain ⟨hz, hk, -, -⟩ := call_tables hc h
    exact .inl (.of_eq hk hz)
  | @controller op c s' hop h =>
    cases c with
    | setClusterDiscovery r =>
      obtain ⟨c, hd, rfl⟩ := setClusterDiscovery_ok h
      obtain ⟨-, b, -, -, hf, -⟩ := discoverable_eq_some hd
      refine .inl ⟨fun i c' hc' => ?_, fun i z hz => ⟨z, hz, rfl⟩⟩
      rcases find_put_cases (a := { c with apiServerEndpoint := r.apiServerEndpoint.text, caCertHash := r.caCertHash })
        hc' with ⟨-, hold, hnew⟩ | hsame
      · have hold : w.site.db.clusters.find c.id = some c' := hold
        rw [Table.key_of_find hf, hf] at hold
        exact ⟨_, hnew, by rw [← Option.some.inj hold]⟩
      · exact ⟨c', hsame, rfl⟩
    | recordBootstrapHost r =>
      rcases recordBootstrapHost_ok h with rfl | ⟨-, rfl⟩ | ⟨k, -, -, -, -, rfl⟩ <;> exact .inl (.of_eq rfl rfl)
    | setDominatorRoute r =>
      obtain ⟨-, b, -, -, rfl | ⟨-, rfl⟩⟩ := setDominatorRoute_ok h <;> exact .inl (.of_eq rfl rfl)
    | bootstrapPhase next v =>
      obtain ⟨hkind, -⟩ := bootstrapPhase_ok h
      obtain ⟨o, b, hheld, he, hstored⟩ := bootstrapPhase_stored h
      rcases enterPhase_life he with ⟨-, hsame⟩ | ⟨rfl, hready⟩
      · exact .inl hsame
      · exact .inr ⟨op, v, o, b, rfl, hop, hkind, hheld, hready, hstored⟩
    | releaseBootstrapLease =>
      obtain ⟨o, -, rfl⟩ := releaseBootstrapLease_ok h
      exact .inl (.of_eq rfl rfl)
  | finish _ hg _ _ _ => exact .inl (.of_keeps hg.clusters hg.zones)
  | tick n => exact .inl (.of_eq rfl rfl)

theorem Grows.routes {s s' : Site} (h : Grows s s') : s'.db.zoneDominators = s.db.zoneDominators := by
  have hd : s'.runtime.db.zoneDominators = s.runtime.db.zoneDominators := by rw [h.runtime]
  exact hd

theorem enterPhase_routes {op : Operation} {next : ZoneBootstrapPhase} {v : Bool} {o : OperationRow} {b : Bootstrap}
    {s s' : Site} (h : enterPhase op next v o b s = (s', .ok ())) : s'.db.zoneDominators = s.db.zoneDominators := by
  obtain ⟨-, -, ⟨-, rfl⟩ | ⟨-, s₁, hm, rfl⟩⟩ := enterPhase_ok h
  · exact (advance_topology o b next s).2.2.2
  · rw [(advance_topology o b next s₁).2.2.2, (membershipReady_find hm).2.2.2, (zoneReady_find _ _).2.2.2.2,
      (clusterReady_find _ _).2.2.2.2]

/-- **The route of a zone is set once.** -/
theorem step_routes (E : Env) {w : World} (hw : Whole w.site) (a : Act) :
    Keeps w.site.db.zoneDominators (step E w a).site.db.zoneDominators := by
  have hst := step_cases E hw a
  generalize (step E w a).site = s' at hst ⊢
  cases hst with
  | grows _ hg _ =>
    rw [hg.routes]
    exact .refl _
  | call hc h =>
    rw [(call_tables hc h).2.2.2]
    exact .refl _
  | @controller op c s' hop h =>
    cases c with
    | setClusterDiscovery r =>
      obtain ⟨c, -, rfl⟩ := setClusterDiscovery_ok h
      exact .refl _
    | recordBootstrapHost r =>
      rcases recordBootstrapHost_ok h with rfl | ⟨-, rfl⟩ | ⟨k, -, -, -, -, rfl⟩ <;> exact .refl _
    | setDominatorRoute r =>
      obtain ⟨-, b, -, -, rfl | ⟨hnone, rfl⟩⟩ := setDominatorRoute_ok h
      · exact .refl _
      · exact keeps_put hnone
    | bootstrapPhase next v =>
      obtain ⟨-, o, b, -, he⟩ := bootstrapPhase_ok h
      rw [enterPhase_routes he]
      exact .refl _
    | releaseBootstrapLease =>
      obtain ⟨o, -, rfl⟩ := releaseBootstrapLease_ok h
      exact .refl _
  | @finish r u s₁ _ hg _ _ _ =>
    show Keeps w.site.db.zoneDominators s₁.db.zoneDominators
    rw [hg.routes]
    exact .refl _
  | tick n => exact .refl _

/-! ## The invariant over runs -/

/-- a controller's copy names the zone of its bootstrap -/
theorem Rows.zone {w : World} (hr : Rows w) {op : Operation} (hop : op ∈ w.held) (hk : op.kind = .createCluster)
    {b : Bootstrap} (hb : w.site.bootstraps.find op.id = some b) : op.zoneId = b.zoneId := by
  obtain ⟨o, ho, -, hz, -⟩ := hr.held op hop hk
  obtain ⟨o', ho', -, hz', -⟩ := hr.ops op.id b hb
  obtain rfl := Option.some.inj (ho.symm.trans ho')
  exact hz.symm.trans hz'

/-- a held bootstrap is active -/
theorem Rows.held_active {w : World} (hr : Rows w) {op : Operation} {o : OperationRow} {b : Bootstrap}
    (h : heldBootstrap w.site op = some (o, b)) : b.phase.terminal = false := by
  obtain ⟨hf, -, ha, hb⟩ := heldBootstrap_eq_some h
  obtain ⟨o', ho', -, -, hagree⟩ := hr.ops op.id b hb
  obtain rfl := Option.some.inj (hf.symm.trans ho')
  exact agrees_of_active hagree ha

/-- an active bootstrap finds its cluster and its zone initializing -/
theorem step_initializing (E : Env) {w : World} (hw : Whole w.site) (hr : Rows w) (hal : Alone w) (a : Act) (i : String)
    (b' : Bootstrap) (hb' : (step E w a).site.bootstraps.find i = some b') (ht : b'.phase.terminal = false) :
    (∃ c, (step E w a).site.db.clusters.find b'.clusterId = some c ∧ c.lifecycle = .initializing) ∧
      ∃ z, (step E w a).site.db.zones.find b'.zoneId = some z ∧ z.lifecycle = .initializing := by
  rcases step_active E hw hr a hb' ht with ⟨b, hb, ht₀, hz, hc⟩ | ⟨r, u, s₁, -, hins, -, hz, hc⟩
  · rw [hz, hc]
    obtain ⟨⟨c, hfc, hlc⟩, z, hfz, hlz⟩ := hal.rows i b hb ht₀
    rcases step_life E hw a with hlife | ⟨op, v, o, b₁, -, hop, hk, hheld, hready, hstored⟩
    · obtain ⟨c', hfc', hlc'⟩ := hlife.clusters _ c hfc
      obtain ⟨z', hfz', hlz'⟩ := hlife.zones _ z hfz
      exact ⟨⟨c', hfc', hlc'.trans hlc⟩, z', hfz', hlz'.trans hlz⟩
    · -- another bootstrap became ready: it shares neither the cluster nor the zone
      obtain ⟨-, -, -, hb₁⟩ := heldBootstrap_eq_some hheld
      have hact := hr.held_active hheld
      have hne : i ≠ op.id := by
        rintro rfl
        rw [hb'] at hstored
        rw [Option.some.inj hstored] at ht
        simp [ZoneBootstrapPhase.terminal] at ht
      have hcl : b.clusterId ≠ b₁.clusterId := fun e => hne (hal.clusters i op.id b b₁ hb hb₁ ht₀ hact e)
      have hzo : b.zoneId ≠ op.zoneId := fun e =>
        hne (hal.zones i op.id b b₁ hb hb₁ ht₀ hact (e.trans (hr.zone hop hk hb₁)))
      exact ⟨⟨c, (hready.others.1 _ hcl).trans hfc, hlc⟩, z, (hready.others.2 _ hzo).trans hfz, hlz⟩
  · have hi := hins.ready
    simp only [initializing, Bool.and_eq_true, Option.any_eq_true, decide_eq_true_eq] at hi
    rw [hz, hc, hins.eq]
    exact hi

/-- **One active bootstrap for a zone, and one for a cluster, after every step.** -/
theorem step_alone (E : Env) {w : World} (hw : Whole w.site) (hr : Rows w) (hal : Alone w) (a : Act) :
    Alone (step E w a) where
  zones := step_zones E hw hr hal a
  clusters := step_clusters E hw hr hal a
  rows := step_initializing E hw hr hal a
  free := (step_opening E hw hr hal a).1
  apart := (step_opening E hw hr hal a).2

theorem start_alone (clock : ℕ) (hosts : Table Host.id) : Alone (start clock hosts) where
  zones := by simp [start, empty]
  clusters := by simp [start, empty]
  rows := by simp [start, empty]
  free := by simp [start]
  apart := List.Pairwise.nil

theorem run_alone (E : Env) {w : World} (hw : Whole w.site) (hr : Rows w) (hal : Alone w) (acts : List Act) :
    Alone (run E w acts) := by
  induction acts generalizing w with
  | nil => exact hal
  | cons a acts ih => exact ih (step_kept E hw a).2 (step_rows E hw hr a) (step_alone E hw hr hal a)

/-! ## The phase machine -/

/-- what one step does to the bootstraps and to what they publish -/
structure PhaseStep (w : World) (a : Act) (s' : Site) : Prop where
  /-- a bootstrap stays as it is, or a phase call of its operation moves it one phase on or to Failed -/
  moves : ∀ i b, w.site.bootstraps.find i = some b → ∃ b', s'.bootstraps.find i = some b' ∧
    (b' = b ∨ ∃ op v, a = .controller op (.bootstrapPhase b'.phase v) ∧ op.id = i ∧ Moves b.phase b'.phase ∧
      (b'.phase = .ready → v = true) ∧ b' = { b with phase := b'.phase })
  /-- a phase call that succeeds has moved its bootstrap -/
  succeeds : ∀ op next v, a = .controller op (.bootstrapPhase next v) → op ∈ w.held →
    (bootstrapPhase op next v w.site).2 = .ok () → ∃ b, w.site.bootstraps.find op.id = some b ∧ Moves b.phase next ∧
      s'.bootstraps.find op.id = some { b with phase := next }
  /-- a new bootstrap begins with the first phase -/
  begins : ∀ i b', w.site.bootstraps.find i = none → s'.bootstraps.find i = some b' → b'.phase = .requested
  /-- the last phase makes the cluster, the zone and the membership ready, which were not -/
  ready : ∀ i b b', w.site.bootstraps.find i = some b → s'.bootstraps.find i = some b' → b.phase ≠ .ready →
    b'.phase = .ready → b.phase = .validating ∧
      (∃ c, w.site.db.clusters.find b.clusterId = some c ∧ c.lifecycle = .initializing ∧
        s'.db.clusters.find b.clusterId = some { c with lifecycle := .ready }) ∧
      (∃ z, w.site.db.zones.find b.zoneId = some z ∧ z.lifecycle = .initializing ∧
        s'.db.zones.find b.zoneId = some { z with lifecycle := .ready }) ∧
      ∃ m, w.site.db.clusterZones.find (b.clusterId, b.zoneId) = some m ∧ m.lifecycle = .initializing ∧
        m.access = .pending ∧
        s'.db.clusterZones.find (b.clusterId, b.zoneId) = some { m with lifecycle := .ready, access := .approved }
  /-- discovery of a cluster is set once -/
  discovery : ∀ i c, w.site.db.clusters.find i = some c → ∃ c', s'.db.clusters.find i = some c' ∧
    (c.apiServerEndpoint ≠ "" → c'.apiServerEndpoint = c.apiServerEndpoint) ∧
    (c.caCertHash ≠ "" → c'.caCertHash = c.caCertHash)
  /-- the Dominator's endpoint and identity of a zone are set once -/
  route : ∀ i d, w.site.db.zoneDominators.find i = some d → s'.db.zoneDominators.find i = some d

theorem step_moves (E : Env) {w : World} (hw : Whole w.site) (hr : Rows w) (a : Act) (i : String) (b : Bootstrap)
    (hb : w.site.bootstraps.find i = some b) : ∃ b', (step E w a).site.bootstraps.find i = some b' ∧
      (b' = b ∨ ∃ op v, a = .controller op (.bootstrapPhase b'.phase v) ∧ op.id = i ∧ Moves b.phase b'.phase ∧
        (b'.phase = .ready → v = true) ∧ b' = { b with phase := b'.phase }) := by
  obtain ⟨o, ho, -, -, hagree⟩ := hr.ops i b hb
  obtain ⟨o', b', -, hb', hs⟩ := step_boots E hw hr a i o b ho hb
  refine ⟨b', hb', ?_⟩
  rcases hs.moves hagree with hsame | ⟨op, v, ha, hid, hm, hv, heq⟩
  · exact .inl hsame
  · exact .inr ⟨op, v, ha, hid.trans (Table.key_of_find ho), hm, hv, heq⟩

/-- a step that changes a bootstrap's phase is a committed phase call of its holder -/
theorem step_phase (E : Env) {w : World} {op : Operation} {next : ZoneBootstrapPhase} {v : Bool} {i : String}
    {b b' : Bootstrap} (hb : w.site.bootstraps.find i = some b)
    (hb' : (step E w (.controller op (.bootstrapPhase next v))).site.bootstraps.find i = some b') (hne : b' ≠ b) :
    op ∈ w.held ∧ bootstrapPhase op next v w.site =
      ((step E w (.controller op (.bootstrapPhase next v))).site, .ok ()) := by
  have hchanged : (step E w (.controller op (.bootstrapPhase next v))).site ≠ w.site := by
    intro e
    rw [e, hb] at hb'
    exact hne (Option.some.inj hb').symm
  simp only [step] at hchanged ⊢
  by_cases hop : op ∈ w.held
  · rw [if_pos hop] at hchanged ⊢
    refine ⟨hop, ?_⟩
    rcases controller_rollsBack op (.bootstrapPhase next v) w.site with ⟨s', h⟩ | ⟨e, h⟩
    · simp only [h]
      exact h
    · rw [h] at hchanged
      exact absurd rfl hchanged
  · rw [if_neg hop] at hchanged
    exact absurd rfl hchanged

/-- a committed phase call moves its bootstrap -/
theorem Rows.moves {w : World} (hr : Rows w) {op : Operation} {next : ZoneBootstrapPhase} {v : Bool} {o : OperationRow}
    {b : Bootstrap} {s' : Site} (hheld : heldBootstrap w.site op = some (o, b))
    (h : enterPhase op next v o b w.site = (s', .ok ())) : Moves b.phase next := by
  obtain ⟨rfl | hn, -⟩ := enterPhase_ok h
  · exact .fail (hr.held_active hheld)
  · exact .next hn

theorem Moves.validating {p : ZoneBootstrapPhase} (h : Moves p .ready) : p = .validating := by
  cases h with
  | next h => cases p <;> simp [ZoneBootstrapPhase.next] at h ⊢

theorem step_ready (E : Env) {w : World} (hw : Whole w.site) (hr : Rows w) (a : Act) (i : String)
    (b b' : Bootstrap) (hb : w.site.bootstraps.find i = some b) (hb' : (step E w a).site.bootstraps.find i = some b')
    (hne : b.phase ≠ .ready) (hp : b'.phase = .ready) :
    b.phase = .validating ∧ Readied b.clusterId b.zoneId w.site (step E w a).site := by
  obtain ⟨b'', hb'', h⟩ := step_moves E hw hr a i b hb
  obtain rfl := Option.some.inj (hb''.symm.trans hb')
  rcases h with rfl | ⟨op, v, rfl, rfl, hm, -, -⟩
  · exact absurd hp hne
  · rw [hp] at hm hb' ⊢
    refine ⟨hm.validating, ?_⟩
    obtain ⟨hop, h⟩ := step_phase E hb hb' fun e => hne (e ▸ hp)
    obtain ⟨hk, o, b₁, hheld, he⟩ := bootstrapPhase_ok h
    obtain ⟨-, -, -, hb₁⟩ := heldBootstrap_eq_some hheld
    obtain rfl := Option.some.inj (hb.symm.trans hb₁)
    rcases enterPhase_life he with ⟨hno, -⟩ | ⟨-, hready⟩
    · exact absurd rfl hno
    · rw [hr.zone hop hk hb] at hready
      exact hready

theorem step_phaseStep (E : Env) {w : World} (hw : Whole w.site) (hr : Rows w) (hal : Alone w) (a : Act) :
    PhaseStep w a (step E w a).site where
  moves := step_moves E hw hr a
  succeeds := by
    rintro op next v rfl hop hok
    have hrun : bootstrapPhase op next v w.site = ((bootstrapPhase op next v w.site).1, .ok ()) := Prod.ext rfl hok
    obtain ⟨o, b, hheld, he, hstored⟩ := bootstrapPhase_stored hrun
    obtain ⟨-, -, -, hb⟩ := heldBootstrap_eq_some hheld
    refine ⟨b, hb, hr.moves hheld he, ?_⟩
    simp only [step, if_pos hop]
    exact hstored
  begins := by
    intro i b' hnone hb'
    rcases (step_fromBoots E hw a).1 i b' hb' with hsome | ⟨r, u, s₁, -, hins, rfl⟩
    · simp [hnone] at hsome
    · rw [← Option.some.inj (hins.rows.1.symm.trans hb')]
  ready := by
    intro i b b' hb hb' hne hp
    obtain ⟨hv, hready⟩ := step_ready E hw hr a i b b' hb hb' hne hp
    obtain ⟨⟨c, hfc, hlc⟩, z, hfz, hlz⟩ := hal.rows i b hb (by rw [hv]; rfl)
    exact ⟨hv, ⟨c, hfc, hlc, hready.cluster c hfc hlc⟩, ⟨z, hfz, hlz, hready.zone z hfz hlz⟩, hready.membership⟩
  discovery := (step_kept E hw a).1.clusters
  route := step_routes E hw a

/-- no two active bootstraps of one zone or of one cluster, and every operation ended as its bootstrap did -/
structure OneBootstrap (s : Site) : Prop where
  zone : ∀ i j b b', s.bootstraps.find i = some b → s.bootstraps.find j = some b' → b.phase ≠ .ready →
    b.phase ≠ .failed → b'.phase ≠ .ready → b'.phase ≠ .failed → b.zoneId = b'.zoneId → i = j
  cluster : ∀ i j b b', s.bootstraps.find i = some b → s.bootstraps.find j = some b' → b.phase ≠ .ready →
    b.phase ≠ .failed → b'.phase ≠ .ready → b'.phase ≠ .failed → b.clusterId = b'.clusterId → i = j
  operation : ∀ i b, s.bootstraps.find i = some b → ∃ o, s.db.operations.find i = some o ∧
    (o.state = .succeeded ↔ b.phase = .ready) ∧ (o.state = .failed ↔ b.phase = .failed)

theorem terminal_eq_false {p : ZoneBootstrapPhase} (hr : p ≠ .ready) (hf : p ≠ .failed) : p.terminal = false := by
  cases p <;> simp_all [ZoneBootstrapPhase.terminal]

theorem agrees_iff {p : ZoneBootstrapPhase} {state : OperationState} (h : p.agrees state = true) :
    (state = .succeeded ↔ p = .ready) ∧ (state = .failed ↔ p = .failed) := by
  cases p <;> cases state <;> simp_all [ZoneBootstrapPhase.agrees, OperationState.active]

theorem Alone.oneBootstrap {w : World} (hal : Alone w) (hr : Rows w) : OneBootstrap w.site where
  zone := fun i j b b' hi hj hr hf hr' hf' =>
    hal.zones i j b b' hi hj (terminal_eq_false hr hf) (terminal_eq_false hr' hf')
  cluster := fun i j b b' hi hj hr hf hr' hf' =>
    hal.clusters i j b b' hi hj (terminal_eq_false hr hf) (terminal_eq_false hr' hf')
  operation := by
    intro i b hb
    obtain ⟨o, ho, -, -, hagree⟩ := hr.ops i b hb
    exact ⟨o, ho, agrees_iff hagree⟩

/-- **The phase machine.** After every run of the store, with requests, controllers, lease loss, crashes and membership
updates interleaved as they may be, the bootstraps of a zone and of a cluster have at most one active among them and
operations ended as their bootstraps did; and every next step moves a bootstrap at most one phase on or to Failed. -/
theorem phase_machine (E : Env) (clock : ℕ) (hosts : Table Host.id) (acts : List Act) (a : Act) :
    OneBootstrap (run E (start clock hosts) acts).site ∧
      PhaseStep (run E (start clock hosts) acts) a (step E (run E (start clock hosts) acts) a).site := by
  obtain ⟨hw, hr⟩ := run_rows E (start_whole clock hosts) (start_rows clock hosts) acts
  have hal := run_alone E (start_whole clock hosts) (start_rows clock hosts) (start_alone clock hosts) acts
  exact ⟨hal.oneBootstrap hr, step_phaseStep E hw hr hal a⟩

-- a controller that keeps its lease takes a bootstrap through all phases
example : let w := run Sample.env Sample.claimedByA ([.infrastructureProvisioning, .controlPlaneInitializing,
      .networkInstalling, .dominatorInstalling, .validating, .ready].map fun p =>
        .controller Sample.copyA (.bootstrapPhase p true))
    (w.site.bootstraps.find "op").map Bootstrap.phase = some .ready ∧
      (w.site.db.clusters.find "c").map Cluster.lifecycle = some .ready ∧
      (w.site.db.operations.find "op").map OperationRow.state = some .succeeded := by
  decide +kernel

end Crane.Topology
