/-
What a committed call can do to a provision operation, in one theorem.

A fenced call takes its step on the operation it names, a claim takes its step on the operation it returns, `SetTarget`
adds fresh operations or cancels and marks, and no other call changes an operation, its host or its reservation
(`code_view`). Referential integrity and the clock are kept by every call (`code_wf`, `code_clock`).
-/
import Crane.Capacity.Admissions
import Crane.Capacity.Writes

namespace Crane.Capacity

open Tx

variable {ans : Operation → Bool}

/-! ## Calls of the operators -/

/-- an accepted request adds fresh operations, or cancels and marks -/
theorem Admission.effect {d : DB} {req : CapacityRequest} {u : Uuids} {x : CapacityResult × DB} {p : Policy}
    {pool : NodePool} {g' : NodeGroup} {d₂ : DB} (h : Admission ans d req u x p pool g' d₂) (hw : d.WF) :
    Admits d x.2 ∨ (req.desiredTarget < p.group.targetNodes ∧ Decrease req.nodeGroupId d x.2) := by
  rcases h.cancels with ⟨hlt, hc⟩ | ⟨-, hx⟩
  · -- a decrease adds no intent
    have hzero : (req.desiredTarget - p.group.targetNodes).toNat = 0 := by omega
    have hi := h.intents
    rw [hzero] at hi
    obtain rfl := (Prod.mk.inj (Except.ok.inj hi)).2
    have hd := (decrease_put_side req.nodeGroupId d (.capacityRequest ⟨u 0, req.nodeGroupId, req.requestId, req.clusterId,
      req.expectedTargetRevision, req.desiredTarget, req.templateRevision, wrap64 (p.group.targetRevision + 1)⟩) rfl).trans
      (decrease_put_side _ _ (.nodeGroup g') rfl)
    exact .inr ⟨hlt, hd.trans (cancelPending_decrease (hw.of_sameRefs hd.refs) hc)⟩
  · rw [hx]
    exact .inl (((admits_put_side d rfl).trans (admits_put_side _ rfl)).trans (provisionIntents_admits h.intents))

theorem Removals.admits {d : DB} {clusterId : String} {req : NodeRemovalRequest} {u : Uuids} {deadline : ℕ} {d' : DB}
    {p : Policy} {g' : NodeGroup} {ps : List String} (h : Removals ans d clusterId req u deadline d' p g' ps) :
    Admits d d' :=
  insertRemovals_induct (I := fun _ d' => Admits d d') (fun _ _ _ _ _ _ hi hs => hi.trans hs.admits) _
    (admits_put_side d rfl) h.inserts

theorem OneRemoval.admits {d : DB} {clusterId : String} {expectedRevision : ℤ} {r : NodeRemovalOperation} {u : Uuids}
    {d' : DB} {p : Policy} {k : Host} {d₁ : DB} (h : OneRemoval d clusterId expectedRevision r u d' p k d₁) :
    Admits d d' := by
  obtain ⟨_, hi⟩ := h.insert
  rcases h.target with ⟨-, -, g', -, rfl⟩ | ⟨-, rfl⟩
  · exact (admits_put_side d rfl).trans hi.admits
  · exact hi.admits

theorem updateNodeGroupScheduling_ok {ext : Externals} {id expected revision : String} {t : SchedulingTemplate}
    {launch : Json} {d : DB} {x : Unit × DB}
    (h : (updateNodeGroupScheduling ext id expected revision t launch).run ans d = .ok x) :
    x.2 = d ∨ ∃ g, d.nodeGroups.find id = some g ∧ g.templateRevision ≠ revision ∧
      ext.validScheduling t g.nodePoolId = true ∧ x.2 = d.put (.nodeGroup
        { g with templateRevision := revision, scheduling := t, launchParameters := launch }) := by
  simp only [updateNodeGroupScheduling, bind_eq, run_require_bind, run_selectForUpdate_bind, run_orFail_bind] at h
  obtain ⟨-, ⟨g, z⟩, hg, hv, -, h⟩ := h
  simp only [groupInZone, Option.bind_eq_bind, Option.bind_eq_some_iff, Option.some.injEq, Prod.mk.injEq] at hg
  obtain ⟨g, hg, z, -, rfl, rfl⟩ := hg
  split_ifs at h with hr
  · exact .inl (run_require.mp h).2
  · simp only [run_require_bind, run_update_bind, hg, pure_eq, run_done] at h
    obtain rfl := Except.ok.inj h.2
    exact .inr ⟨g, hg, hr, hv, rfl⟩

theorem updateClusterZone_ok {m : ClusterZone} {d : DB} {x : Unit × DB}
    (h : (updateClusterZone m).run ans d = .ok x) :
    ∃ y, d.clusterZones.find m.key = some y ∧
      x.2 = d.put (.clusterZone { y with lifecycle := m.lifecycle, access := m.access }) := by
  simp only [updateClusterZone, bind_eq, run_require_bind, run_update_bind, run_require] at h
  obtain ⟨-, hn, hx⟩ := h
  cases hy : d.clusterZones.find m.key with
  | none => simp [hy] at hn
  | some y => exact ⟨y, rfl, by simpa [hy] using hx⟩

theorem topologyUpdate_rows {t : TopologyUpdate} {d : DB} {x : Unit × DB} (h : (topologyUpdate t).run ans d = .ok x) :
    x.2 = d ∨ ∃ r ∈ t.rows d, r.isSide = true ∧ x.2 = d.put r := by
  simp only [topologyUpdate, bind_eq, run_update_bind, pure_eq, run_done] at h
  obtain rfl := Except.ok.inj h
  dsimp only
  cases t with
  | zone id _ _ => cases hf : d.zones.find id <;> simp [TopologyUpdate.rows, hf, Row.isSide]
  | cluster id _ _ _ => cases hf : d.clusters.find id <;> simp [TopologyUpdate.rows, hf, Row.isSide]
  | nodeGroup id _ => cases hf : d.nodeGroups.find id <;> simp [TopologyUpdate.rows, hf, Row.isSide]
  | nodePool id _ => cases hf : d.nodePools.find id <;> simp [TopologyUpdate.rows, hf, Row.isSide]
  | zoneDominator r => simp [TopologyUpdate.rows, Row.isSide]

/-! ## All calls -/

variable {ext : Externals}

theorem code_clock {c : Call} {d : DB} {x : Reply × DB} (h : (code ext c).run ans d = .ok x) : x.2.clock = d.clock :=
  code_keeps (I := fun s => s.clock = d.clock) h (fun r s _ hs => by cases r <;> exact hs) rfl

/-- a committed fenced call takes its step on the operation it names -/
theorem fenced_effect {c : Call} {op : Operation} (hc : c.fenced = some op) {d : DB} (hw : d.WF) {x : Reply × DB}
    (h : (code ext c).run ans d = .ok x) : Effect d x.2 op.id (ViewStep d.clock c) := by
  cases c <;> simp only [Call.fenced, Option.some.injEq, reduceCtorEq] at hc <;> subst hc <;>
    simp only [code, bind_eq, run_bind_ok, pure_eq, run_done, Except.ok.injEq] at h <;> obtain ⟨y, hy, rfl⟩ := h
  case renew => exact renew_effect hy
  case beginLaunch => exact beginLaunch_effect hy
  case recordLaunchWithAddress => exact recordLaunchWithAddress_effect hw hy
  case setProvisionDesiredVersion => exact setProvisionDesiredVersion_effect hw hy
  case setProvisionState => exact setProvisionState_effect hw hy
  case bindProvisionNode => exact bindProvisionNode_effect hy
  case pinProvisionExpectedState => exact pinProvisionExpectedState_effect hw hy
  case prepareProvisionRelease => exact prepareProvisionRelease_effect hy
  case finalizeProvision => exact finalizeProvision_effect hw hy
  case completeProvision => exact completeProvision_effect hy
  case recordProvisionFailure => exact recordProvisionFailure_effect hy
  case releaseProvisionLease => exact releaseProvisionLease_effect hy

/-- the part of a committed call that concerns provision operations -/
inductive Outcome (d : DB) : Call → Reply × DB → Prop
  | fenced {c : Call} {x : Reply × DB} (op : Operation) (hc : c.fenced = some op)
      (he : Effect d x.2 op.id (ViewStep d.clock c)) : Outcome d c x
  | claim {zoneId : String} {kind : OperationKind} {owner : String} {duration : Duration} {locked : String → Bool}
      {x : Reply × DB} (op : Operation) (hr : x.1 = .operation op) (ho : op.leaseOwner = owner)
      (he : Effect d x.2 op.id fun v v' => op = v'.op.toOperation ∧
        ViewStep d.clock (.claimDominator zoneId kind owner duration locked) v v') :
      Outcome d (.claimDominator zoneId kind owner duration locked) x
  | bootstrap {zoneId : String} {kind : OperationKind} {owner : String} {duration : Duration} {locked : String → Bool}
      {x : Reply × DB} (i : String) (he : Effect d x.2 i fun _ _ => False) :
      Outcome d (.claimBootstrap zoneId kind owner duration locked) x
  | admits {c : Call} {x : Reply × DB} (hc : c.fenced = none ∧ c.isClaim = false) (ha : Admits d x.2) : Outcome d c x
  | decrease {req : CapacityRequest} {u : Uuids} {x : Reply × DB} (g : NodeGroup)
      (hg : d.nodeGroups.find req.nodeGroupId = some g) (hlt : req.desiredTarget < g.targetNodes)
      (hd : Decrease req.nodeGroupId d x.2) : Outcome d (.setTarget req u) x

theorem code_outcome {c : Call} {d : DB} (hw : d.WF) {x : Reply × DB} (h : (code ext c).run ans d = .ok x) :
    Outcome d c x := by
  cases hf : c.fenced with
  | some op => exact .fenced op hf (fenced_effect hf hw h)
  | none =>
    cases c <;> simp only [Call.fenced, reduceCtorEq] at hf <;>
      simp only [code, bind_eq, run_bind_ok, pure_eq, run_done, Except.ok.injEq] at h <;> obtain ⟨y, hy, rfl⟩ := h
    case setTarget req u =>
      rcases setTarget_ok hy with ⟨_, -, -, rfl⟩ | ⟨p, pool, g', d₂, ha⟩
      · exact .admits ⟨rfl, rfl⟩ (.refl d)
      · rcases ha.effect hw with ha' | ⟨hlt, hd⟩
        · exact .admits ⟨rfl, rfl⟩ ha'
        · exact .decrease p.group ha.policy.group hlt hd
    case createAutoscalerRemovals =>
      rcases createAutoscalerRemovals_ok hy with ⟨_, -, -, hd⟩ | ⟨p, g', ps, hr⟩
      · exact .admits ⟨rfl, rfl⟩ (hd ▸ .refl d)
      · exact .admits ⟨rfl, rfl⟩ hr.admits
    case createRemoval =>
      obtain ⟨p, k, d₁, hr⟩ := createRemoval_ok hy
      exact .admits ⟨rfl, rfl⟩ hr.admits
    case updateNodeGroupScheduling =>
      rcases updateNodeGroupScheduling_ok hy with hd | ⟨g, -, -, -, hd⟩
      · exact .admits ⟨rfl, rfl⟩ (hd ▸ .refl d)
      · exact .admits ⟨rfl, rfl⟩ (hd ▸ admits_put_side d rfl)
    case updateClusterZone =>
      obtain ⟨m, -, hd⟩ := updateClusterZone_ok hy
      exact .admits ⟨rfl, rfl⟩ (hd ▸ admits_put_side d rfl)
    case topology =>
      rcases topologyUpdate_rows hy with hd | ⟨r, -, hr, hd⟩
      · exact .admits ⟨rfl, rfl⟩ (hd ▸ .refl d)
      · exact .admits ⟨rfl, rfl⟩ (hd ▸ admits_put_side d hr)
    case claimBootstrap zoneId kind owner duration locked =>
      simp only [claimBootstrap, bind_eq, run_require_bind] at hy
      obtain ⟨hk, hy⟩ := hy
      obtain ⟨o, hc, -, rfl⟩ := claim_ok hy
      obtain ⟨hfo, hko, -⟩ := claimCandidate_spec hc
      refine .bootstrap o.id ((effect_put_operation (o.claimed d owner duration) hfo rfl rfl).mono fun v v' hv _ hs => ?_)
      rw [← hs.1, hv.kind, hk] at hko
      simp at hko
    case claimDominator zoneId kind owner duration locked =>
      obtain ⟨ho, he⟩ := claimDominator_effect hy
      exact .claim y.1 rfl ho he

/-- **Referential integrity is kept by every call.** -/
theorem code_wf {c : Call} {d : DB} (hw : d.WF) {x : Reply × DB} (h : (code ext c).run ans d = .ok x) : x.2.WF := by
  cases code_outcome hw h with
  | fenced _ _ he => exact hw.of_sameRefs he.refs
  | claim _ _ _ he => exact hw.of_sameRefs he.refs
  | bootstrap _ he => exact hw.of_sameRefs he.refs
  | admits _ ha => exact ha.wf hw
  | decrease _ _ _ hd => exact hw.of_sameRefs hd.refs

/-- no operation disappears, and its admitted columns stay -/
theorem code_op {c : Call} {d : DB} (hw : d.WF) {x : Reply × DB} (h : (code ext c).run ans d = .ok x) {i : String}
    {o : OperationRow} (ho : d.operations.find i = some o) :
    ∃ o', x.2.operations.find i = some o' ∧ o'.intent = o.intent := by
  have hrefs : SameRefs d x.2 → ∃ o', x.2.operations.find i = some o' ∧ o'.intent = o.intent :=
    fun hr => exists_of_map_eq (hr.ops i).symm ho
  cases code_outcome hw h with
  | fenced _ _ he => exact hrefs he.refs
  | claim _ _ _ he => exact hrefs he.refs
  | bootstrap _ he => exact hrefs he.refs
  | admits _ ha => exact ⟨o, ha.ops i o ho, rfl⟩
  | decrease _ _ _ hd => exact hrefs hd.refs

/-- what a committed call `c` with reply `r` can do to one operation -/
inductive ViewChange (d : DB) : Call → Reply → View → View → Prop
  | same (c : Call) (r : Reply) (v : View) : ViewChange d c r v v
  | fenced {c : Call} {r : Reply} {v v' : View} (op : Operation) (hc : c.fenced = some op) (hi : v.op.id = op.id)
      (hs : ViewStep d.clock c v v') : ViewChange d c r v v'
  | claim {zoneId : String} {kind : OperationKind} {owner : String} {duration : Duration} {locked : String → Bool}
      {v v' : View} (op : Operation) (ho : op.leaseOwner = owner) (hi : v.op.id = op.id) (hop : op = v'.op.toOperation)
      (hs : ViewStep d.clock (.claimDominator zoneId kind owner duration locked) v v') :
      ViewChange d (.claimDominator zoneId kind owner duration locked) (.operation op) v v'
  | decrease {req : CapacityRequest} {u : Uuids} {r : Reply} {v v' : View} (g : NodeGroup)
      (hg : d.nodeGroups.find req.nodeGroupId = some g) (hlt : req.desiredTarget < g.targetNodes)
      (hs : Relation.ReflTransGen (DecreaseStep d.clock req.nodeGroupId) v v') : ViewChange d (.setTarget req u) r v v'

/-- **What a call can do to one operation.** Every operation after a committed call is new and in its first states, or
was there before and changed as `ViewChange` says. -/
theorem code_view {c : Call} {d : DB} (hw : d.WF) {x : Reply × DB} (h : (code ext c).run ans d = .ok x) {v' : View}
    (hv' : x.2.IsView v') : (d.operations.find v'.op.id = none ∧ v'.Initial) ∨
      ∃ v, d.IsView v ∧ v'.op.id = v.op.id ∧ ViewChange d c x.1 v v' := by
  cases code_outcome hw h with
  | fenced op hc he =>
    obtain ⟨v, hv, hid, ⟨hi, hs⟩ | ⟨-, rfl⟩⟩ := he.touches v' hv'
    · exact .inr ⟨v, hv, hid, .fenced op hc hi hs⟩
    · exact .inr ⟨_, hv, rfl, .same _ _ _⟩
  | claim op hr ho he =>
    obtain ⟨v, hv, hid, ⟨hi, hop, hs⟩ | ⟨-, rfl⟩⟩ := he.touches v' hv'
    · rw [hr]
      exact .inr ⟨v, hv, hid, .claim op ho hi hop hs⟩
    · exact .inr ⟨_, hv, rfl, .same _ _ _⟩
  | bootstrap i he =>
    obtain ⟨v, hv, hid, ⟨-, hs⟩ | ⟨-, rfl⟩⟩ := he.touches v' hv'
    · exact hs.elim
    · exact .inr ⟨_, hv, rfl, .same _ _ _⟩
  | admits _ ha => exact (ha.view hw v' hv').symm.imp id fun hv => ⟨v', hv, rfl, .same _ _ _⟩
  | decrease g hg hlt hd =>
    obtain ⟨v, hv, hid, hs⟩ := hd.view v' hv'
    exact .inr ⟨v, hv, hid, .decrease g hg hlt hs⟩

/-- the same, from the side of an operation that was there before -/
theorem code_view_of {c : Call} {d : DB} (hw : d.WF) {x : Reply × DB} (h : (code ext c).run ans d = .ok x) {v : View}
    (hv : d.IsView v) : ∃ v', x.2.IsView v' ∧ v'.op.id = v.op.id ∧ ViewChange d c x.1 v v' := by
  obtain ⟨o', ho', hi⟩ := code_op hw h hv.op
  simp only [OperationRow.intent, Prod.mk.injEq] at hi
  obtain ⟨v', hv', rfl⟩ := (code_wf hw h).exists_view ho' (hi.1.trans hv.kind)
  have hid : v'.op.id = v.op.id := Table.key_of_find ho'
  rcases code_view hw h hv' with ⟨hn, -⟩ | ⟨u, hu, hidu, hc⟩
  · rw [hid, hv.op] at hn
    simp at hn
  · obtain rfl := hw.view_unique hu hv (hidu.symm.trans hid)
    exact ⟨v', hv', hid, hc⟩

end Crane.Capacity
