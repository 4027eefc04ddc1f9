/-
What the calls of the store keep of a node group.

A call rewrites a group's target or, for `UpdateNodeGroupScheduling`, its template. Everything else a group was created
with stays (`NodeGroup.declared`), and the template stays under every other call. Shown statement by statement, as in
`Writes`, for the columns that `NodeGroup.fixed` does not have.
-/
import Crane.Capacity.Writes

namespace Crane.Capacity

open Tx RowStore

/-- the columns of a group that stay as they were inserted -/
def NodeGroup.declared (g : NodeGroup) : (String × String × String × ℤ × ℤ × ℤ × ℤ) × String × String :=
  (g.fixed, g.capacityClass, g.providerZoneId)

/-- what an intent admitted now would store -/
def NodeGroup.template (g : NodeGroup) : ProvisioningTemplate :=
  ⟨g.launchParameters, g.scheduling, g.templateRevision, g.capacityClass⟩

/-- the group whose template a call can change -/
def Call.retemplates : Call → Option String
  | .updateNodeGroupScheduling id _ _ _ _ => some id
  | _ => none

/-- call `c` may store group `new` in place of `old` -/
def GroupStep (c : Call) (old : Option Row) : Row → Prop
  | .nodeGroup g' => ∃ g, old = some (.nodeGroup g) ∧ g'.declared = g.declared ∧
      (c.retemplates ≠ some g'.id → g'.template = g.template)
  | _ => True

theorem NodeGroup.setTarget_template {g g' : NodeGroup} {target revision : ℤ} (h : g.setTarget target revision = .ok g') :
    g'.declared = g.declared ∧ g'.template = g.template := by
  unfold NodeGroup.setTarget at h
  split_ifs at h
  obtain rfl := Except.ok.inj h
  exact ⟨rfl, rfl⟩

section
variable {x : Externals} {c : Call}

theorem groupStep_updateTarget (i : String) (t : NodeGroup → ℤ) (revision : ℤ) :
    (updateTarget i t revision).Writes (GroupStep c) := by
  refine writes_execute fun d rows hr => ?_
  split at hr
  · obtain rfl := Except.ok.inj hr
    trivial
  · rename_i g hg
    cases hs : g.setTarget (t g) revision with
    | error e => simp [hs, Bind.bind, Except.bind] at hr
    | ok g' =>
      simp only [hs, Bind.bind, Except.bind, Except.ok.injEq] at hr
      subst hr
      obtain ⟨hd, ht⟩ := NodeGroup.setTarget_template hs
      refine ⟨?_, trivial⟩
      rw [look_eq, key_eq, DB.look_nodeGroup _ hg (NodeGroup.setTarget_ok hs).1]
      exact ⟨g, rfl, hd, fun _ => ht⟩

/-- a call that does not write groups -/
theorem groupStep_of_writes (h : RowKind.nodeGroup ∉ c.writes) : (code x c).Writes (GroupStep c) := by
  refine (code_writes x c).mono fun old new hf => ?_
  cases new with
  | nodeGroup g => exact absurd hf.kind h
  | _ => trivial

theorem groupStep_setTarget (req : CapacityRequest) (u : Uuids) : (setTarget req u).Writes (GroupStep c) := by
  refine (writes_require _ _).bind fun _ => (writes_loadPolicy _).bind fun p => (writes_require _ _).bind fun _ =>
    (writes_select _).bind fun prev => ?_
  cases prev with
  | some row => exact (writes_require _ _).bind fun _ => trivial
  | none =>
    refine (writes_require _ _).bind fun _ => (writes_require _ _).bind fun _ => (writes_require _ _).bind fun _ =>
      (writes_require _ _).bind fun _ => (writes_selectForUpdate _ _).bind fun _ => (writes_orFail _ _).bind fun _ =>
      (Writes.when ?_).bind fun _ => (Writes.when ?_).bind fun _ => (writes_execute fun d rows hr => ?_).bind fun _ =>
      (groupStep_updateTarget _ _ _).bind fun _ => Writes.bind ?_ fun _ => (Writes.when ?_).bind fun _ => trivial
    · exact (writes_require _ _).bind fun _ => (writes_select _).bind fun _ => writes_require _ _
    · exact (writes_select _).bind fun _ => writes_require _ _
    · split_ifs at hr
      obtain rfl := Except.ok.inj hr
      exact ⟨trivial, trivial⟩
    · exact writes_provisionIntents (fun _ _ => trivial) (fun _ _ => trivial) (fun _ => trivial) _
    · exact writes_cancelPending (fun _ _ => trivial) (fun _ _ => trivial) (fun _ => trivial) (fun _ => trivial) _ _

theorem groupStep_createAutoscalerRemovals (k : String) (req : NodeRemovalRequest) (u : Uuids) (t : ℕ) :
    (createAutoscalerRemovals k req u t).Writes (GroupStep c) := by
  refine (writes_require _ _).bind fun _ => (writes_loadPolicy _).bind fun p => (writes_require _ _).bind fun _ =>
    (writes_select _).bind fun prev => ?_
  cases prev with
  | some row => exact writes_require _ _
  | none =>
    exact (writes_require _ _).bind fun _ => (writes_require _ _).bind fun _ => (writes_checkNodes _ _).bind fun _ =>
      (groupStep_updateTarget _ _ _).bind fun _ => writes_insertRemovals (fun _ _ _ => trivial) (fun _ => trivial) _ _

theorem groupStep_createRemoval (k : String) (e : ℤ) (r : NodeRemovalOperation) (u : Uuids) :
    (createRemoval k e r u).Writes (GroupStep c) := by
  refine (writes_require _ _).bind fun _ => (writes_require _ _).bind fun _ => (writes_loadPolicy _).bind fun p =>
    (writes_require _ _).bind fun _ => (writes_require _ _).bind fun _ => (writes_selectForUpdate _ _).bind fun _ =>
    (writes_orFail _ _).bind fun _ => (writes_require _ _).bind fun _ => (Writes.when ?_).bind fun _ =>
    (writes_insertOperation fun _ => trivial).bind fun _ => (writes_insertRemoval trivial).bind fun _ => trivial
  exact (writes_require _ _).bind fun _ => groupStep_updateTarget _ _ _

theorem groupStep_updateNodeGroupScheduling (id e r : String) (t : SchedulingTemplate) (l : Json) :
    (updateNodeGroupScheduling x id e r t l).Writes (GroupStep (.updateNodeGroupScheduling id e r t l)) := by
  refine (writes_require _ _).bind fun _ => (writes_selectForUpdate _ _).bind fun _ => (writes_orFail _ _).bind fun _ =>
    (writes_require _ _).bind fun _ => (writes_require _ _).bind fun _ => ?_
  split_ifs
  · exact writes_require _ _
  · refine (writes_require _ _).bind fun _ => (writes_update fun d => follow_map fun g hg => ?_).bind fun _ => trivial
    rw [DB.look_nodeGroup { g with templateRevision := r, scheduling := t, launchParameters := l } hg rfl]
    exact ⟨g, rfl, rfl, fun h => absurd (congrArg some (Table.key_of_find hg).symm) h⟩

theorem groupStep_topologyUpdate (t : TopologyUpdate) : (topologyUpdate t).Writes (GroupStep c) := by
  refine (writes_update fun d => ?_).bind fun _ => trivial
  cases t with
  | zone i e l => exact follow_map fun z hz => trivial
  | cluster i e h l => exact follow_map fun k hk => trivial
  | nodeGroup i l =>
    refine follow_map fun g hg => ?_
    rw [DB.look_nodeGroup { g with lifecycle := l } hg rfl]
    exact ⟨g, rfl, rfl, fun _ => rfl⟩
  | nodePool i e => exact follow_map fun p hp => trivial
  | zoneDominator r => exact ⟨trivial, trivial⟩

/-- **Only a template update changes what a group was given besides its target.** -/
theorem code_groups (x : Externals) (c : Call) : (code x c).Writes (GroupStep c) := by
  cases c with
  | setTarget req u => exact (groupStep_setTarget req u).bind fun _ => trivial
  | createAutoscalerRemovals c req u t => exact (groupStep_createAutoscalerRemovals c req u t).bind fun _ => trivial
  | createRemoval c e r u => exact (groupStep_createRemoval c e r u).bind fun _ => trivial
  | updateNodeGroupScheduling id e r t l => exact (groupStep_updateNodeGroupScheduling id e r t l).bind fun _ => trivial
  | topology t => exact (groupStep_topologyUpdate t).bind fun _ => trivial
  | _ => exact groupStep_of_writes (by simp [Call.writes])

/-- the groups after a call -/
theorem code_groups_run {ans : Operation → Bool} {d : DB} {y : Reply × DB} (h : (code x c).run ans d = .ok y) (i : String) :
    (y.2.nodeGroups.find i).map NodeGroup.declared = (d.nodeGroups.find i).map NodeGroup.declared ∧
      (c.retemplates ≠ some i → (y.2.nodeGroups.find i).map NodeGroup.template = (d.nodeGroups.find i).map NodeGroup.template) := by
  refine (code_groups x c).run_keeps (I := fun s =>
    (s.nodeGroups.find i).map NodeGroup.declared = (d.nodeGroups.find i).map NodeGroup.declared ∧
      (c.retemplates ≠ some i → (s.nodeGroups.find i).map NodeGroup.template = (d.nodeGroups.find i).map NodeGroup.template))
    (fun r s hr hs => ?_) h ⟨rfl, fun _ => rfl⟩
  cases r with
  | nodeGroup g' =>
    obtain ⟨g, hg, hd, ht⟩ := hr
    have hg : s.nodeGroups.find g'.id = some g := by simpa [DB.look, Row.key] using hg
    show ((s.nodeGroups.put g').find i).map NodeGroup.declared = _ ∧
      (_ → ((s.nodeGroups.put g').find i).map NodeGroup.template = _)
    by_cases hi : g'.id = i
    · subst hi
      rw [hg] at hs
      rw [Table.find_put_self]
      exact ⟨(congrArg some hd).trans hs.1, fun hc => (congrArg some (ht hc)).trans (hs.2 hc)⟩
    · rw [Table.find_put_ne _ hi]
      exact hs
  | _ => exact hs

end

end Crane.Capacity
