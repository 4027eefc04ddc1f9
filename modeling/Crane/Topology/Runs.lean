/-
What every step of the store keeps of the topology, and seeds that are repeated at any later time.

The columns a creation compares are kept by every step of the machine, whoever takes it: creations and seeds only add
rows, the calls of the capacity store write targets, leases and memberships, and a bootstrap moves lifecycles and sets
discovery that was not set. So a seed that succeeded once finds its rows again after any run that leaves the group's
template and scheduling as they were.
-/
import Crane.Topology.Bootstrap
import Crane.Capacity.Effects

namespace Crane.Topology

open Capacity Tx RowStore

/-! ## One row -/

/-- a version that keeps the columns a creation compares -/
def RowKept (old : Option Row) : Row → Prop
  | .zone z' => ∀ z, old = some (.zone z) → z'.place = z.place
  | .cluster c' => ∀ c, old = some (.cluster c) → (c.apiServerEndpoint ≠ "" → c'.apiServerEndpoint = c.apiServerEndpoint) ∧
      (c.caCertHash ≠ "" → c'.caCertHash = c.caCertHash)
  | .nodePool p' => ∀ p, old = some (.nodePool p) → p'.limits = p.limits
  | .nodeGroup g' => ∀ g, old = some (.nodeGroup g) → g'.declared = g.declared
  | _ => True

/-- a version of the row's own columns, or the row itself -/
theorem find_put_cases {α κ : Type} [DecidableEq κ] {key : α → κ} {t : Table key} {a : α} {k : κ} {b : α}
    (h : t.find k = some b) : (key a = k ∧ t.find (key a) = some b ∧ (t.put a).find k = some a) ∨
      (t.put a).find k = some b := by
  rw [Table.find_put]
  split_ifs with hk
  · exact .inl ⟨hk, by rw [hk]; exact h, rfl⟩
  · exact .inr h

theorem kept_put {s : Site} {r : Row} (h : RowKept (s.db.look r.key) r) : Kept s (s.put r) := by
  have hrefl := Kept.refl s
  cases r with
  | zone z' =>
    refine { hrefl with zones := fun i z hz => ?_ }
    rcases find_put_cases (a := z') hz with ⟨hk, hold, hnew⟩ | hsame
    · exact ⟨z', hnew, h z (by simp [DB.look, Row.key, hold])⟩
    · exact ⟨z, hsame, rfl⟩
  | cluster c' =>
    refine { hrefl with clusters := fun i c hc => ?_ }
    rcases find_put_cases (a := c') hc with ⟨hk, hold, hnew⟩ | hsame
    · exact ⟨c', hnew, h c (by simp [DB.look, Row.key, hold])⟩
    · exact ⟨c, hsame, fun _ => rfl, fun _ => rfl⟩
  | clusterZone m =>
    refine { hrefl with memberships := fun i hi => ?_ }
    obtain ⟨m', hm'⟩ := Option.isSome_iff_exists.mp hi
    rcases find_put_cases (a := m) hm' with ⟨-, -, hnew⟩ | hsame
    · exact Option.isSome_iff_exists.mpr ⟨m, hnew⟩
    · exact Option.isSome_iff_exists.mpr ⟨m', hsame⟩
  | nodePool p' =>
    refine { hrefl with pools := fun i p hp => ?_ }
    rcases find_put_cases (a := p') hp with ⟨hk, hold, hnew⟩ | hsame
    · exact ⟨p', hnew, h p (by simp [DB.look, Row.key, hold])⟩
    · exact ⟨p, hsame, rfl⟩
  | nodeGroup g' =>
    refine { hrefl with groups := fun i g hg => ?_ }
    rcases find_put_cases (a := g') hg with ⟨hk, hold, hnew⟩ | hsame
    · exact ⟨g', hnew, h g (by simp [DB.look, Row.key, hold])⟩
    · exact ⟨g, hsame, rfl⟩
  | _ => exact { hrefl with }

/-- rows of other tables -/
theorem kept_bootstraps (s : Site) (t : Table Bootstrap.operationId) : Kept s { s with bootstraps := t } :=
  { Kept.refl s with }

/-! ## The calls of a controller -/

theorem clusterReady_kept (id : String) (s : Site) : Kept s (clusterReady id s) := by
  unfold clusterReady
  split
  · rename_i c hc
    split_ifs
    · refine kept_put fun c' hc' => ?_
      rw [DB.look_cluster { c with lifecycle := .ready } hc rfl] at hc'
      obtain rfl := Row.cluster.inj (Option.some.inj hc')
      exact ⟨fun _ => rfl, fun _ => rfl⟩
    · exact .refl s
  · exact .refl s

theorem zoneReady_kept (id : String) (s : Site) : Kept s (zoneReady id s) := by
  unfold zoneReady
  split
  · rename_i z hz
    split_ifs
    · refine kept_put fun z' hz' => ?_
      rw [DB.look_zone { z with lifecycle := .ready } hz rfl] at hz'
      obtain rfl := Row.zone.inj (Option.some.inj hz')
      rfl
    · exact .refl s
  · exact .refl s

theorem membershipReady_kept {c z : String} {s s' : Site} (h : membershipReady c z s = some s') : Kept s s' := by
  unfold membershipReady at h
  split at h
  · split_ifs at h
    rw [← Option.some.inj h]
    exact kept_put trivial
  · simp at h

theorem advance_kept (o : OperationRow) (b : Bootstrap) (next : ZoneBootstrapPhase) (s : Site) :
    Kept s (advance o b next s) := by
  unfold advance
  dsimp only
  by_cases ht : next.terminal = true
  · rw [if_pos ht]
    exact (kept_bootstraps s _).trans (kept_put trivial)
  · rw [if_neg ht]
    exact kept_bootstraps s _

/-- a call commits, or it fails and is rolled back -/
def RollsBack (f : BootstrapCall) : Prop := ∀ s, (∃ s', f s = (s', .ok ())) ∨ ∃ e, f s = (s, .error e)

theorem enterPhase_rollsBack (op : Operation) (next : ZoneBootstrapPhase) (validated : Bool) (o : OperationRow)
    (b : Bootstrap) : RollsBack (enterPhase op next validated o b) := by
  intro s
  unfold enterPhase
  split_ifs
  · exact .inr ⟨_, rfl⟩
  · exact .inr ⟨_, rfl⟩
  · split
    · exact .inl ⟨_, rfl⟩
    · exact .inr ⟨_, rfl⟩
  · exact .inl ⟨_, rfl⟩

theorem controller_rollsBack (op : Operation) (c : ControllerCall) : RollsBack (c.run op) := by
  intro s
  cases c with
  | setClusterDiscovery r =>
    simp only [ControllerCall.run, setClusterDiscovery]
    split_ifs
    · split
      · exact .inl ⟨_, rfl⟩
      · exact .inr ⟨_, rfl⟩
    · exact .inr ⟨_, rfl⟩
  | recordBootstrapHost r =>
    simp only [ControllerCall.run, recordBootstrapHost]
    split_ifs
    · exact .inr ⟨_, rfl⟩
    · exact .inr ⟨_, rfl⟩
    · exact .inr ⟨_, rfl⟩
    · split
      · exact .inr ⟨_, rfl⟩
      · split
        · exact .inl ⟨_, rfl⟩
        · split_ifs
          · exact .inl ⟨_, rfl⟩
          · exact .inl ⟨_, rfl⟩
          · exact .inr ⟨_, rfl⟩
  | setDominatorRoute r =>
    simp only [ControllerCall.run, setDominatorRoute]
    split_ifs
    · exact .inr ⟨_, rfl⟩
    · exact .inr ⟨_, rfl⟩
    · exact .inr ⟨_, rfl⟩
    · split
      · exact .inr ⟨_, rfl⟩
      · split
        · exact .inl ⟨_, rfl⟩
        · split_ifs
          · exact .inl ⟨_, rfl⟩
          · exact .inr ⟨_, rfl⟩
  | bootstrapPhase next v =>
    simp only [ControllerCall.run, bootstrapPhase]
    split_ifs
    · exact .inr ⟨_, rfl⟩
    · split
      · exact .inr ⟨_, rfl⟩
      · exact enterPhase_rollsBack op next v _ _ s
  | releaseBootstrapLease =>
    simp only [ControllerCall.run, releaseBootstrapLease]
    split_ifs
    · exact .inr ⟨_, rfl⟩
    · split
      · exact .inr ⟨_, rfl⟩
      · exact .inl ⟨_, rfl⟩

/-- what a committed phase call did -/
theorem enterPhase_ok {op : Operation} {next : ZoneBootstrapPhase} {validated : Bool} {o : OperationRow} {b : Bootstrap}
    {s s' : Site} (h : enterPhase op next validated o b s = (s', .ok ())) :
    (next = .failed ∨ b.phase.next = some next) ∧ (next = .ready → validated = true) ∧
      ((next ≠ .ready ∧ s' = advance o b next s) ∨
        (next = .ready ∧ ∃ s₁, membershipReady b.clusterId op.zoneId
          (zoneReady op.zoneId (clusterReady b.clusterId s)) = some s₁ ∧ s' = advance o b next s₁)) := by
  unfold enterPhase at h
  by_cases ht : next ≠ .failed ∧ b.phase.next ≠ some next
  · simp [ht, fails] at h
  · have hnext : next = .failed ∨ b.phase.next = some next := by
      by_contra hno
      exact ht ⟨fun e => hno (.inl e), fun e => hno (.inr e)⟩
    rw [if_neg ht] at h
    by_cases hr : next = .ready
    · cases validated with
      | false => simp [hr, fails] at h
      | true =>
        simp only [hr, Bool.true_eq_false, and_false, if_false, if_true] at h
        refine ⟨hnext, fun _ => rfl, .inr ⟨hr, ?_⟩⟩
        split at h
        · rename_i s₁ hs₁
          exact ⟨s₁, hs₁, by rw [hr, ← (Prod.mk.inj h).1]⟩
        · simp [fails] at h
    · rw [if_neg fun e => hr e.1, if_neg hr] at h
      exact ⟨hnext, fun e => absurd e hr, .inl ⟨hr, (Prod.mk.inj h).1.symm⟩⟩

theorem bootstrapPhase_ok {op : Operation} {next : ZoneBootstrapPhase} {validated : Bool} {s s' : Site}
    (h : bootstrapPhase op next validated s = (s', .ok ())) : op.kind = .createCluster ∧
      ∃ o b, heldBootstrap s op = some (o, b) ∧ enterPhase op next validated o b s = (s', .ok ()) := by
  unfold bootstrapPhase at h
  by_cases hk : op.kind ≠ .createCluster
  · simp [hk, fails] at h
  · rw [if_neg hk] at h
    refine ⟨by simpa using hk, ?_⟩
    split at h
    · simp [fails] at h
    · rename_i o b hh
      exact ⟨o, b, hh, h⟩

theorem setClusterDiscovery_ok {op : Operation} {r : BootstrapStepResult} {s s' : Site}
    (h : setClusterDiscovery op r s = (s', .ok ())) :
    ∃ c, discoverable s op r.apiServerEndpoint.text r.caCertHash = some c ∧
      s' = s.put (.cluster { c with apiServerEndpoint := r.apiServerEndpoint.text, caCertHash := r.caCertHash }) := by
  unfold setClusterDiscovery at h
  split_ifs at h
  · split at h
    · rename_i c hc
      exact ⟨c, hc, (Prod.mk.inj h).1.symm⟩
    · simp [fails] at h
  · simp [fails] at h

theorem discoverable_eq_some {s : Site} {op : Operation} {endpoint hash : String} {c : Cluster}
    (h : discoverable s op endpoint hash = some c) : ∃ o b, heldBootstrap s op = some (o, b) ∧
      b.phase = .infrastructureProvisioning ∧ s.db.clusters.find b.clusterId = some c ∧ c.lifecycle = .initializing ∧
      (c.apiServerEndpoint ≠ "" → endpoint = c.apiServerEndpoint) ∧ (c.caCertHash ≠ "" → hash = c.caCertHash) := by
  simp only [discoverable, Option.bind_eq_bind, Option.bind_eq_some_iff, Option.ite_none_right_eq_some,
    Option.some.injEq] at h
  obtain ⟨⟨o, b⟩, hh, c', hc, ⟨-, hp, hl, he, hk⟩, rfl⟩ := h
  refine ⟨o, b, hh, hp, hc, hl, fun hne => ?_, fun hne => ?_⟩
  · exact (he.resolve_left hne).symm
  · exact (hk.resolve_left hne).symm

/-- the two ways to record a host: a new protected row, or the same protected instance again -/
theorem recordBootstrapHost_ok {op : Operation} {r : BootstrapStepResult} {s s' : Site}
    (h : recordBootstrapHost op r s = (s', .ok ())) :
    s' = s ∨ (s.db.hosts.find (bootstrapHostId op) = none ∧ s' = s.put (.host (bootstrapHost op r s.db.clock))) ∨
      ∃ k, s.db.hosts.find (bootstrapHostId op) = some k ∧ k.isProtected = true ∧ k.provider = "aws" ∧
        k.providerId = some r.providerHostId ∧ s' = s.put (.host (Host.rerecorded k (bootstrapHost op r s.db.clock))) := by
  unfold recordBootstrapHost at h
  split_ifs at h
  · simp [fails] at h
  · simp [fails] at h
  · simp [fails] at h
  · split at h
    · simp [fails] at h
    · dsimp only at h
      split at h
      · rename_i hn
        exact .inr (.inl ⟨hn, (Prod.mk.inj h).1.symm⟩)
      · rename_i k hk
        split_ifs at h with hc
        · exact .inr (.inr ⟨k, hk, hc.2.2, hc.1, hc.2.1, (Prod.mk.inj h).1.symm⟩)
        · exact .inl (Prod.mk.inj h).1.symm
        · simp [fails] at h

/-- a route is stored once for a zone -/
theorem setDominatorRoute_ok {op : Operation} {r : BootstrapStepResult} {s s' : Site}
    (h : setDominatorRoute op r s = (s', .ok ())) : ∃ o b, heldBootstrap s op = some (o, b) ∧
      b.phase = .networkInstalling ∧ (s' = s ∨ (s.db.zoneDominators.find b.zoneId = none ∧
        s' = s.put (.zoneDominator ⟨b.zoneId, r.dominatorEndpoint.text, r.dominatorIdentity.text⟩))) := by
  unfold setDominatorRoute at h
  split_ifs at h
  · simp [fails] at h
  · simp [fails] at h
  · simp [fails] at h
  · split at h
    · simp [fails] at h
    · rename_i o b hh
      obtain ⟨hh, hp⟩ := Option.filter_eq_some_iff.mp hh
      simp only [Bool.and_eq_true, decide_eq_true_eq] at hp
      refine ⟨o, b, hh, hp.2, ?_⟩
      split at h
      · rename_i hn
        exact .inr ⟨hn, (Prod.mk.inj h).1.symm⟩
      · split_ifs at h
        · exact .inl (Prod.mk.inj h).1.symm
        · simp [fails] at h

theorem releaseBootstrapLease_ok {op : Operation} {s s' : Site} (h : releaseBootstrapLease op s = (s', .ok ())) :
    ∃ o, heldRow s.db op (fun o => OperationState.active o.state) = some o ∧
      s' = s.put (.operation { o with state := .pending, lease := none, updatedAt := s.db.clock }) := by
  unfold releaseBootstrapLease at h
  split_ifs at h
  · simp [fails] at h
  · split at h
    · simp [fails] at h
    · rename_i o ho
      exact ⟨o, ho, (Prod.mk.inj h).1.symm⟩

theorem controller_kept (op : Operation) (c : ControllerCall) (s : Site) : Kept s (c.run op s).1 := by
  rcases controller_rollsBack op c s with ⟨s', h⟩ | ⟨e, h⟩
  · rw [h]
    cases c with
    | setClusterDiscovery r =>
      obtain ⟨c, hc, rfl⟩ := setClusterDiscovery_ok h
      obtain ⟨-, b, -, -, hf, -, he, hk⟩ := discoverable_eq_some hc
      refine kept_put fun c' hc' => ?_
      rw [DB.look_cluster { c with apiServerEndpoint := r.apiServerEndpoint.text, caCertHash := r.caCertHash } hf rfl]
        at hc'
      obtain rfl := Row.cluster.inj (Option.some.inj hc')
      exact ⟨he, hk⟩
    | recordBootstrapHost r =>
      rcases recordBootstrapHost_ok h with rfl | ⟨-, rfl⟩ | ⟨k, -, -, -, -, rfl⟩
      · exact .refl _
      · exact kept_put trivial
      · exact kept_put trivial
    | setDominatorRoute r =>
      obtain ⟨-, b, -, -, rfl | ⟨-, rfl⟩⟩ := setDominatorRoute_ok h
      · exact .refl _
      · exact kept_put trivial
    | bootstrapPhase next v =>
      obtain ⟨-, o, b, -, he⟩ := bootstrapPhase_ok h
      obtain ⟨-, -, ⟨-, rfl⟩ | ⟨-, s₁, hm, rfl⟩⟩ := enterPhase_ok he
      · exact advance_kept o b next s
      · exact ((clusterReady_kept _ s).trans (zoneReady_kept _ _)).trans
          ((membershipReady_kept hm).trans (advance_kept o b next s₁))
    | releaseBootstrapLease =>
      obtain ⟨o, -, rfl⟩ := releaseBootstrapLease_ok h
      exact kept_put trivial
  · rw [h]
    exact .refl s

/-! ## Whole rows -/

/-- a version of a row that is not a group, or of a group with valid scheduling -/
theorem Whole.put {s : Site} (hw : Whole s) (r : Row)
    (h : ∀ g, r = .nodeGroup g → unset g.scheduling = true → g.scheduling = {}) : Whole (s.put r) := by
  cases r with
  | cluster c =>
    refine ⟨fun i hi => ?_, hw.names, hw.scheduling⟩
    have hi : (s.db.clusters.put c).find i = none := hi
    rw [Table.find_put] at hi
    split_ifs at hi
    exact hw.software i hi
  | nodeGroup g => exact hw.putGroup g (h g rfl) s.names fun _ _ => rfl
  | _ => exact hw.congr rfl rfl rfl rfl

theorem clusterReady_whole {s : Site} (hw : Whole s) (id : String) : Whole (clusterReady id s) := by
  unfold clusterReady
  split
  · split_ifs
    · exact hw.put _ (by simp)
    · exact hw
  · exact hw

theorem zoneReady_whole {s : Site} (hw : Whole s) (id : String) : Whole (zoneReady id s) := by
  unfold zoneReady
  split
  · split_ifs
    · exact hw.put _ (by simp)
    · exact hw
  · exact hw

theorem membershipReady_whole {c z : String} {s s' : Site} (hw : Whole s) (h : membershipReady c z s = some s') :
    Whole s' := by
  unfold membershipReady at h
  split at h
  · split_ifs at h
    rw [← Option.some.inj h]
    exact hw.put _ (by simp)
  · simp at h

theorem advance_whole {s : Site} (hw : Whole s) (o : OperationRow) (b : Bootstrap) (next : ZoneBootstrapPhase) :
    Whole (advance o b next s) := by
  unfold advance
  dsimp only
  by_cases ht : next.terminal = true
  · rw [if_pos ht]
    exact hw.congr rfl rfl rfl rfl
  · rw [if_neg ht]
    exact hw.congr rfl rfl rfl rfl

theorem controller_whole {s : Site} (hw : Whole s) (op : Operation) (c : ControllerCall) : Whole (c.run op s).1 := by
  rcases controller_rollsBack op c s with ⟨s', h⟩ | ⟨e, h⟩
  · rw [h]
    cases c with
    | setClusterDiscovery r =>
      obtain ⟨c, -, rfl⟩ := setClusterDiscovery_ok h
      exact hw.put _ (by simp)
    | recordBootstrapHost r =>
      rcases recordBootstrapHost_ok h with rfl | ⟨-, rfl⟩ | ⟨k, -, -, -, -, rfl⟩
      · exact hw
      · exact hw.put _ (by simp)
      · exact hw.put _ (by simp)
    | setDominatorRoute r =>
      obtain ⟨-, b, -, -, rfl | ⟨-, rfl⟩⟩ := setDominatorRoute_ok h
      · exact hw
      · exact hw.put _ (by simp)
    | bootstrapPhase next v =>
      obtain ⟨-, o, b, -, he⟩ := bootstrapPhase_ok h
      obtain ⟨-, -, ⟨-, rfl⟩ | ⟨-, s₁, hm, rfl⟩⟩ := enterPhase_ok he
      · exact advance_whole hw o b next
      · exact advance_whole (membershipReady_whole (zoneReady_whole (clusterReady_whole hw _) _) hm) o b next
    | releaseBootstrapLease =>
      obtain ⟨o, -, rfl⟩ := releaseBootstrapLease_ok h
      exact hw.put _ (by simp)
  · rw [h]
    exact hw

/-! ## Calls of the capacity store -/

section
variable {E : Env} {c : Call} {ans : Operation → Bool} {s : Site} {y : Reply × DB}

/-- zones, clusters and pools are not written -/
theorem call_tables (hc : isTopology c = false) (h : (code E.externals c).run ans s.db = .ok y) :
    y.2.zones = s.db.zones ∧ y.2.clusters = s.db.clusters ∧ y.2.nodePools = s.db.nodePools ∧
      y.2.zoneDominators = s.db.zoneDominators := by
  refine code_keeps (I := fun d => d.zones = s.db.zones ∧ d.clusters = s.db.clusters ∧ d.nodePools = s.db.nodePools ∧
    d.zoneDominators = s.db.zoneDominators) h (fun r d hr hd => ?_) ⟨rfl, rfl, rfl, rfl⟩
  cases r <;> first | exact hd | (cases c <;> simp [Row.kind, Call.writes, isTopology] at hr hc)

/-- a membership stays, whatever its states become -/
theorem call_memberships (h : (code E.externals c).run ans s.db = .ok y) (i : String × String)
    (hi : (s.db.clusterZones.find i).isSome = true) : (y.2.clusterZones.find i).isSome = true := by
  refine code_keeps (I := fun d => (d.clusterZones.find i).isSome = true) h (fun r d _ hd => ?_) hi
  cases r with
  | clusterZone m =>
    show ((d.clusterZones.put m).find i).isSome = true
    rw [Table.find_put]
    split_ifs
    · rfl
    · exact hd
  | _ => exact hd

theorem call_kept (hc : isTopology c = false) (h : (code E.externals c).run ans s.db = .ok y) :
    Kept s { s with db := y.2 } := by
  obtain ⟨hz, hk, hp, -⟩ := call_tables hc h
  refine ⟨.refl _, .refl _, .refl _, fun i z hi => ⟨z, by rw [← hz] at hi; exact hi, rfl⟩, fun i k hi => ?_,
    call_memberships h, fun i p hi => ⟨p, by rw [← hp] at hi; exact hi, rfl⟩, fun i g hg => ?_⟩
  · exact ⟨k, by rw [← hk] at hi; exact hi, fun _ => rfl, fun _ => rfl⟩
  · have hd := (code_groups_run h i).1
    rw [hg] at hd
    obtain ⟨g', hg', hd'⟩ := Option.map_eq_some_iff.mp hd
    exact ⟨g', hg', hd'⟩

/-- the scheduling of a group after a call: as it was, or accepted by the validator -/
theorem call_scheduling (h : (code E.externals c).run ans s.db = .ok y) {i : String} {g' : NodeGroup}
    (hg' : y.2.nodeGroups.find i = some g') : (∃ g, s.db.nodeGroups.find i = some g ∧ g.scheduling = g'.scheduling) ∨
      ∃ pool, validateScheduling g'.scheduling pool = true := by
  by_cases hc : c.retemplates = some i
  · cases c <;> simp only [Call.retemplates, reduceCtorEq, Option.some.injEq] at hc
    rename_i id e r t l
    subst hc
    simp only [code, bind_eq, run_bind_ok, pure_eq, run_done, Except.ok.injEq] at h
    obtain ⟨p, hp, rfl⟩ := h
    rcases updateNodeGroupScheduling_ok hp with hd | ⟨g, hg, -, hv, hd⟩
    · rw [hd] at hg'
      exact .inl ⟨g', hg', rfl⟩
    · rw [hd] at hg'
      have hnew : (s.db.nodeGroups.put { g with templateRevision := r, scheduling := t, launchParameters := l }).find id =
          some g' := hg'
      rw [Table.find_put, if_pos (Table.key_of_find hg : g.id = id)] at hnew
      rw [← Option.some.inj hnew]
      exact .inr ⟨g.nodePoolId, hv⟩
  · have ht := (code_groups_run h i).2 hc
    rw [hg'] at ht
    obtain ⟨g, hg, ht⟩ := Option.map_eq_some_iff.mp ht.symm
    exact .inl ⟨g, hg, congrArg ProvisioningTemplate.scheduling ht⟩

theorem call_whole (hw : Whole s) (hc : isTopology c = false) (h : (code E.externals c).run ans s.db = .ok y) :
    Whole { s with db := y.2 } := by
  obtain ⟨-, hk, -, -⟩ := call_tables hc h
  refine ⟨fun i hi => hw.software i ?_, fun i hi => hw.names i ?_, fun i g' hg' hu => ?_⟩
  · rw [← hk]
    exact hi
  · have hd := (code_groups_run h i).1
    rw [show y.2.nodeGroups.find i = none from hi] at hd
    simpa using hd.symm
  · rcases call_scheduling h hg' with ⟨g, hg, ht⟩ | ⟨pool, hv⟩
    · rw [← ht] at hu ⊢
      exact hw.scheduling i g hg hu
    · simp only [unset, Bool.and_eq_true, decide_eq_true_eq] at hu
      simp [validateScheduling, hu.1] at hv

end

/-! ## Steps -/

/-- a refused creation may have stored a region, and nothing else -/
theorem request_refused {r : Request} {s : Site} {e : Err} (h : (r.run s).2 = .error e) :
    ∃ regions, (r.run s).1 = { s with regions := regions } ∧ Keeps s.regions regions := by
  by_cases hq : r.quiet s = true
  · have hclean : Clean r.run s := by
      cases r with
      | zone z => exact createZone_clean hq
      | cluster c => exact createCluster_clean c .ready false s
      | nodePool p => exact createPool_clean p s
      | nodeGroup g => exact createGroup_clean g s
      | clusterZone m => exact createMembership_clean m false s
    exact ⟨s.regions, hclean.refused e h, .refl _⟩
  · cases r with
    | zone z =>
      simp only [Request.run, createZone] at h ⊢
      by_cases hv : z.valid = true
      · rw [if_pos hv] at h ⊢
        unfold immutableInsert at h ⊢
        cases hi : insertZone (z.row .ready) s with
        | error e => exact ⟨s.regions, rfl, .refl _⟩
        | ok x =>
          obtain ⟨s', n⟩ := x
          obtain ⟨s₁, hr, ⟨old, -, rfl, -⟩ | ⟨-, -, -, rfl⟩⟩ := insertZone_ok hi
          · exact ⟨s'.regions, craneZoneRegion_db hr, (craneZoneRegion_grows hr).regions⟩
          · simp [hi] at h
      · rw [if_neg hv] at h ⊢
        exact ⟨s.regions, rfl, .refl _⟩
    | _ => simp [Request.quiet] at hq

/-- a creation stores new rows, or nothing but a region -/
theorem request_grows {s : Site} (hw : Whole s) (r : Request) : Grows s (r.run s).1 ∧ Whole (r.run s).1 := by
  cases h : (r.run s).2 with
  | error e =>
    obtain ⟨regions, hs, hk⟩ := request_refused h
    rw [hs]
    exact ⟨{ Grows.refl s with regions := hk }, hw.congr rfl rfl rfl rfl⟩
  | ok u =>
    have hrun : r.run s = ((r.run s).1, .ok ()) := Prod.ext rfl h
    cases r with
    | zone z => exact ⟨createZone_grows hrun, createZone_whole hw hrun⟩
    | cluster c => exact ⟨createCluster_grows hw hrun, createCluster_whole hw hrun⟩
    | nodePool p => exact ⟨createPool_grows hrun, createPool_whole hw hrun⟩
    | nodeGroup g => exact ⟨createGroup_grows hw hrun, createGroup_whole hw hrun⟩
    | clusterZone m => exact ⟨createMembership_grows hrun, createMembership_whole hw hrun⟩

/-- a seed fails and leaves no trace, or succeeds -/
theorem seedFirstZone_cases (i : FirstZoneInput) (ready : Bool) (s : Site) :
    (∃ s', seedFirstZoneTx i ready s = .ok s' ∧ seedFirstZone i ready s = (s', .ok ())) ∨
      ∃ e, seedFirstZone i ready s = (s, .error e) := by
  unfold seedFirstZone
  cases h : seedFirstZoneTx i ready s with
  | error e => exact .inr ⟨e, rfl⟩
  | ok s' => exact .inl ⟨s', rfl, rfl⟩

/-- what a committed bootstrap request did -/
theorem finishBootstrap_ok {f : Json → Option FirstZoneInput} {i : BootstrapRequest} {u : Uuids} {s s' : Site}
    {id : String} (h : finishBootstrap f i u s = (s', .ok id)) : ∃ z s₁, z.cluster.id = i.clusterId ∧ z.zone.id = i.zoneId ∧
      seedFirstZoneTx z false s = .ok s₁ ∧ initializing i s₁ = true ∧ bootstrapTaken i u s₁ = false ∧ id = u 0 ∧
      s' = { s₁.put (.operation (bootstrapOperation i u s₁.db.clock)) with
        bootstraps := s₁.bootstraps.put ⟨u 0, i.zoneId, i.clusterId, i.requestId, .requested⟩ } := by
  unfold finishBootstrap at h
  split at h
  · simp at h
  · rename_i z hz
    obtain ⟨-, hids⟩ := Option.filter_eq_some_iff.mp hz
    simp only [Bool.and_eq_true, decide_eq_true_eq] at hids
    split at h
    · simp at h
    · rename_i s₁ hs₁
      split_ifs at h with hi ht
      · simp at h
      · simp at h
      · simp only [Prod.mk.injEq, Except.ok.injEq] at h
        exact ⟨z, s₁, hids.1, hids.2, hs₁, by simpa using hi, by simpa using ht, h.2.symm, h.1.symm⟩

theorem finishBootstrap_cases (f : Json → Option FirstZoneInput) (i : BootstrapRequest) (u : Uuids) (s : Site) :
    (∃ s' id, finishBootstrap f i u s = (s', .ok id)) ∨ ∃ e, finishBootstrap f i u s = (s, .error e) := by
  unfold finishBootstrap
  split
  · exact .inr ⟨_, rfl⟩
  · split
    · exact .inr ⟨_, rfl⟩
    · split_ifs
      · exact .inr ⟨_, rfl⟩
      · exact .inr ⟨_, rfl⟩
      · exact .inl ⟨_, _, rfl⟩

/-- what a step leaves in the database: more rows of the catalog, the effect of a call or of a controller, a new bootstrap,
or a later time -/
inductive Stepped (E : Env) (w : World) : Act → Site → Prop
  | grows (a : Act) {s' : Site} (hg : Grows w.site s') (hw : Whole s') : Stepped E w a s'
  | call {c : Call} {ans : Operation → Bool} {reply : Reply} {d : DB} (hc : isTopology c = false)
      (h : (code E.externals c).run ans w.site.db = .ok (reply, d)) : Stepped E w (.call c ans) { w.site with db := d }
  | controller {op : Operation} {c : ControllerCall} {s' : Site} (hop : op ∈ w.held)
      (h : c.run op w.site = (s', .ok ())) : Stepped E w (.controller op c) s'
  | finish {r : BootstrapRequest} {u : Uuids} {s₁ : Site} (hr : r ∈ w.opening) (hg : Grows w.site s₁) (hw : Whole s₁)
      (hi : initializing r s₁ = true) (ht : bootstrapTaken r u s₁ = false) :
      Stepped E w (.finish r u) { s₁.put (.operation (bootstrapOperation r u s₁.db.clock)) with
        bootstraps := s₁.bootstraps.put ⟨u 0, r.zoneId, r.clusterId, r.requestId, .requested⟩ }
  | tick (n : ℕ) : Stepped E w (.tick n) { w.site with db := w.site.db.tick n }

theorem step_cases (E : Env) {w : World} (hw : Whole w.site) (a : Act) : Stepped E w a (step E w a).site := by
  have hsame : Stepped E w a w.site := .grows a (.refl _) hw
  cases a with
  | request r =>
    obtain ⟨hg, hw'⟩ := request_grows hw r
    exact .grows _ hg hw'
  | seed i ready =>
    rcases seedFirstZone_cases i ready w.site with ⟨s', hs, he⟩ | ⟨e, he⟩
    · obtain ⟨hg, hw'⟩ := seedFirstZoneTx_grows hw hs
      simp only [step, he]
      exact .grows _ hg hw'
    · simp only [step, he]
      exact hsame
  | call c ans =>
    simp only [step]
    by_cases hc : isTopology c = true
    · rw [if_pos hc]
      exact hsame
    · rw [if_neg hc]
      split
      · rename_i reply d h
        exact .call (by simpa using hc) h
      · exact hsame
  | controller op c =>
    simp only [step]
    split_ifs with hop
    · rcases controller_rollsBack op c w.site with ⟨s', h⟩ | ⟨e, h⟩
      · rw [h]
        exact .controller hop h
      · rw [h]
        exact hsame
    · exact hsame
  | «open» i =>
    simp only [step]
    split_ifs
    · exact hsame
    · split
      · exact hsame
      · exact hsame
  | finish i u =>
    simp only [step]
    split_ifs with hi
    · rcases finishBootstrap_cases E.firstZone i u w.site with ⟨s', id, h⟩ | ⟨e, h⟩
      · obtain ⟨z, s₁, -, -, hs, hready, htaken, -, rfl⟩ := finishBootstrap_ok h
        obtain ⟨hg, hw'⟩ := seedFirstZoneTx_grows hw hs
        rw [h]
        exact .finish hi hg hw' hready htaken
      · rw [h]
        exact hsame
    · exact hsame
  | abort i => exact hsame
  | tick n => exact .tick n

/-- **No step changes a column that a creation compares.** -/
theorem step_kept (E : Env) {w : World} (hw : Whole w.site) (a : Act) :
    Kept w.site (step E w a).site ∧ Whole (step E w a).site := by
  have hst := step_cases E hw a
  generalize (step E w a).site = s' at hst ⊢
  cases hst with
  | grows _ hg hw' => exact ⟨hg.kept, hw'⟩
  | call hc h => exact ⟨call_kept hc h, call_whole hw hc h⟩
  | @controller op c s' _ h =>
    have hk := controller_kept op c w.site
    have hw' := controller_whole hw op c
    rw [h] at hk hw'
    exact ⟨hk, hw'⟩
  | finish _ hg hw' =>
    refine ⟨hg.kept.trans ?_, hw'.congr rfl rfl rfl rfl⟩
    exact (kept_put (r := .operation _) trivial).trans (kept_bootstraps _ _)
  | tick n => exact ⟨{ Kept.refl w.site with }, hw.congr rfl rfl rfl rfl⟩

theorem run_kept (E : Env) {w : World} (hw : Whole w.site) (acts : List Act) :
    Kept w.site (run E w acts).site ∧ Whole (run E w acts).site := by
  induction acts generalizing w with
  | nil => exact ⟨.refl _, hw⟩
  | cons a acts ih =>
    obtain ⟨hk, hw'⟩ := step_kept E hw a
    obtain ⟨hk', hw''⟩ := ih hw'
    exact ⟨hk.trans hk', hw''⟩

theorem start_whole (clock : ℕ) (hosts : Table Host.id) : Whole (start clock hosts).site :=
  ⟨fun _ _ => rfl, fun _ _ => rfl, fun _ _ h => by simp [start, empty] at h⟩

/-- the template and scheduling that the group of a request has -/
def templateOf (i : NodeGroupInput) (s : Site) : Option ProvisioningTemplate :=
  i.normalizeId.bind fun g => (s.db.nodeGroups.find g.id).map NodeGroup.template

/-- **Seeding is idempotent and never resets runtime state.** A seed fails and leaves every table as it was, or only adds
rows and fills in scheduling that was never given; and after any further run that leaves the group's template and
scheduling as the seed left them, the same seed succeeds and changes nothing. -/
theorem seed_idempotent (E : Env) (clock : ℕ) (hosts : Table Host.id) (acts : List Act) (i : FirstZoneInput)
    (ready : Bool) :
    let w := run E (start clock hosts) acts
    (∃ e, seedFirstZone i ready w.site = (w.site, .error e)) ∨
      ∃ s', seedFirstZone i ready w.site = (s', .ok ()) ∧ Grows w.site s' ∧
        ∀ later : List Act, templateOf i.group (run E { w with site := s' } later).site = templateOf i.group s' →
          seedFirstZone i ready (run E { w with site := s' } later).site =
            ((run E { w with site := s' } later).site, .ok ()) := by
  intro w
  have hw : Whole w.site := (run_kept E (start_whole clock hosts) acts).2
  rcases seedFirstZone_cases i ready w.site with ⟨s', hs, he⟩ | ⟨e, he⟩
  · obtain ⟨hgrows, hw'⟩ := seedFirstZoneTx_grows hw hs
    obtain ⟨hseeded, htemplate⟩ := seedFirstZoneTx_seeded hw hs
    refine .inr ⟨s', he, hgrows, fun later hsame => ?_⟩
    obtain ⟨hkept, -⟩ := run_kept E (w := { w with site := s' }) hw' later
    have hstored : TemplateStored i.group (run E { w with site := s' } later).site := by
      intro g launch hg hl
      have hthen := htemplate g launch hg hl
      simp only [templateOf, hg, Option.bind_some] at hsame
      exact hsame.trans hthen
    unfold seedFirstZone
    rw [(hseeded.kept hkept).again hstored]
  · exact .inl ⟨e, he⟩

namespace Sample

/-- a zone, its cluster, and a pool with one empty group -/
def firstZone : FirstZoneInput where
  zone := zone
  cluster := ⟨"c", "", "", "1.30", "1.30", "containerd", "cilium"⟩
  membership := { clusterId := "c", zoneId := "z" }
  pool := ⟨"p", ⟨10, 100, 5⟩⟩
  group := { naming := ⟨"aws", "dev", "r", "a", "workers"⟩, clusterId := "c", nodePoolId := "p", zoneId := "z",
             capacityClass := "std", providerZoneId := "r-a", minNodes := 0, maxNodes := 5, templateRevision := "t1",
             vcpu := 2, memoryMib := 4, launchParameters := some (.obj []) }

example : (seedFirstZone firstZone true (empty 0 .empty)).2 = .ok () := by decide +kernel

example : (seedFirstZone firstZone false (seedFirstZone firstZone true (empty 0 .empty)).1).2 = .ok () := by decide +kernel

end Sample

end Crane.Topology
