/-
Operations that create a cluster, under the calls of the capacity store.

A create_cluster operation has no group and no host. Of all calls only `Claim` and `Renew` change its row, and no call
inserts one: admissions insert provision and remove_node operations, and the provisioning steps and cancellations select
provision operations. Bootstraps are the subject of `Crane.Topology`.
-/
import Crane.Capacity.Effects
import Crane.Capacity.Writes

namespace Crane.Capacity

open Tx RowStore

variable {ext : Externals} {ans : Operation → Bool} {d : DB} {i : String} {α : Type}

/-- no statement stores a version of operation `i` -/
def Avoids (i : String) (_ : Option Row) (new : Row) : Prop := new.key ≠ .operation i

theorem avoids_run {x : StoreTx α} (hx : x.Writes (Avoids i)) {q : α × DB} (h : x.run ans d = .ok q) :
    q.2.operations.find i = d.operations.find i := by
  refine hx.run_keeps (I := fun s => s.operations.find i = d.operations.find i) (fun r s hr hs => ?_) h rfl
  cases r with
  | operation o =>
    have hne : o.id ≠ i := fun e => hr (congrArg Key.operation e)
    exact (Table.find_put_ne s.operations hne).trans hs
  | _ => exact hs

/-- a call that does not write operations -/
theorem avoids_of_writes {c : Call} (h : RowKind.operation ∉ c.writes) : (code ext c).Writes (Avoids i) := by
  refine (code_writes ext c).mono fun old new hf => ?_
  cases new with
  | operation o => exact absurd hf.kind h
  | _ => simp [Avoids, Row.key]

theorem find_put_operation_ne {o : OperationRow} (o' : OperationRow) {op : String} (ho : d.operations.find op = some o) (hid : o'.id = o.id)
    (hne : op ≠ i) : (d.put (.operation o')).operations.find i = d.operations.find i := by
  exact Table.find_update_ne o' ho hid hne.symm

theorem authorized_group {o' : OperationRow} {identity : String} (h : authorized d o' identity = true) :
    o'.groupId ≠ none := by
  intro hn
  simp [authorized, hn] at h

theorem cancelIntent_keeps {o : OperationRow} (ho : d.operations.find i = some o) {j k : String} (hne : j ≠ i) {q : Unit × DB}
    (h : (cancelIntent j k).run ans d = .ok q) : q.2.operations.find i = some o := by
  have hw : (cancelIntent j k).Writes (Avoids i) := by
    refine (writes_update fun d' => follow_map fun a ha => ?_).bind fun _ =>
      (writes_update fun d' => follow_map fun a ha => ?_).bind fun _ => (writes_update fun d' => ?_).bind fun _ => trivial
    · simpa [Avoids, Row.key, OperationRow.cancelled, Table.key_of_find ha] using hne
    · simp [Avoids, Row.key]
    · exact follow_reservations (fun _ => rfl) fun r _ => by simp [Avoids, Row.key]
  exact (avoids_run hw h).trans ho

theorem cancelIntents_keeps {o : OperationRow} (ho : d.operations.find i = some o) {l : List OperationRow} (hl : ∀ o' ∈ l, o'.id ≠ i)
    {q : Unit × DB} (h : (cancelIntents l).run ans d = .ok q) : q.2.operations.find i = some o := by
  induction l generalizing d with
  | nil =>
    obtain rfl := Except.ok.inj h
    exact ho
  | cons a l ih =>
    obtain ⟨p, hp, hq⟩ := run_bind_ok.mp h
    have hone := cancelIntent_keeps ho (hl a List.mem_cons_self) hp
    exact ih hone (fun o' ho' => hl o' (List.mem_cons_of_mem a ho')) hq

/-- an operation that creates a cluster -/
structure OperationRow.Bootstraps (o : OperationRow) : Prop where
  kind : o.kind = .createCluster
  group : o.groupId = none

section
variable {o : OperationRow} (hb : o.Bootstraps) (ho : d.operations.find i = some o)

include hb ho

/-- an operation that another one cannot be -/
theorem ne_of_row {j : String} {o' : OperationRow} (hj : d.operations.find j = some o')
    (h : o'.kind ≠ .createCluster ∨ o'.groupId ≠ none) : j ≠ i := by
  rintro rfl
  obtain rfl := Option.some.inj (hj.symm.trans ho)
  exact h.elim (fun hk => hk hb.kind) fun hg => hg hb.group

/-- a fenced UPDATE of an operation that does not create a cluster -/
theorem fenced_keeps {op : Operation} {p : DB → OperationRow → Bool} {f : DB → OperationRow → OperationRow}
    (hid : ∀ o, (f d o).id = o.id)
    (hp : ∀ o, p d o = true → o.kind ≠ .createCluster ∨ o.groupId ≠ none) {q : Unit × DB}
    (h : (fencedUpdate fun d => (heldRow d op (p d)).map fun o => .operation (f d o)).run ans d = .ok q) :
    q.2.operations.find i = some o := by
  obtain ⟨r, hr, hq⟩ := updateOne_ok.mp h
  obtain ⟨o', ho', rfl⟩ := Option.map_eq_some_iff.mp hr
  obtain ⟨hf, -, hpo⟩ := heldRow_eq_some.mp ho'
  rw [hq, find_put_operation_ne _ hf (hid o') (ne_of_row hb ho hf (hp o' hpo))]
  exact ho

theorem cancelPending_keeps {g : String} {n : ℕ} {q : Unit × DB} (h : (cancelPending g n).run ans d = .ok q) :
    q.2.operations.find i = some o := by
  simp only [cancelPending, bind_eq, run_selectForUpdate_bind] at h
  obtain ⟨p, hp, hq⟩ := run_bind_ok.mp h
  have hone : p.2.operations.find i = some o := by
    refine cancelIntents_keeps ho (fun o' ho' => ?_) hp
    obtain ⟨hmem, hc⟩ := mem_selectCancellable ho'
    simp only [cancellable, Bool.and_eq_true, decide_eq_true_eq] at hc
    exact ne_of_row hb ho (Table.find_mem hmem) (.inl (by simp [hc.1.1.1.2]))
  have hw : (Tx.when ((selectCancellable d g n).length < n)
      (markExcess g (n - (selectCancellable d g n).length))).Writes (Avoids i) :=
    Writes.when (writes_markExcess (fun h => by simp [Avoids, Row.key]) _ _)
  exact (avoids_run hw hq).trans hone

theorem setTarget_keeps {req : CapacityRequest} {u : Uuids} {q : CapacityResult × DB}
    (h : (setTarget req u).run ans d = .ok q) : q.2.operations.find i = some o := by
  rcases setTarget_ok h with ⟨_, -, -, rfl⟩ | ⟨p, pool, g', d₂, ha⟩
  · exact ho
  · have hint := (provisionIntents_admits ha.intents).ops i o ho
    rcases ha.cancels with ⟨-, hc⟩ | ⟨-, hx⟩
    · exact cancelPending_keeps hb hint hc
    · rw [hx]
      exact hint

theorem claimDominator_keeps {z : String} {k : OperationKind} {identity : String} {t : Duration} {l : String → Bool}
    {q : Operation × DB} (h : (claimDominator z k identity t l).run ans d = .ok q) : q.2.operations.find i = some o := by
  simp only [claimDominator, bind_eq, run_require_bind] at h
  obtain ⟨hk, h⟩ := h
  obtain ⟨o', hc, -, rfl⟩ := claim_ok h
  obtain ⟨hf, hko, -⟩ := claimCandidate_spec hc
  refine (find_put_operation_ne (o'.claimed d identity t) hf rfl (ne_of_row hb ho hf (.inl ?_))).trans ho
  rw [hko]
  rcases hk with rfl | rfl <;> decide

theorem recordLaunchWithAddress_keeps {op : Operation} {p : String} {a : AddressText} {n : String} {q : Unit × DB}
    (h : (recordLaunchWithAddress op p a n).run ans d = .ok q) : q.2.operations.find i = some o := by
  simp only [recordLaunchWithAddress, bind_eq, run_require_bind] at h
  obtain ⟨-, h⟩ := h
  obtain ⟨s, hs, h⟩ := run_bind_ok.mp h
  have hone : s.2.operations.find i = some o := by
    refine fenced_keeps hb ho (f := fun d o => { o with updatedAt := d.clock }) (fun _ => rfl) (fun o' ho' => ?_) hs
    simp only [Bool.and_eq_true, decide_eq_true_eq] at ho'
    exact .inl (by simp [ho'.1.1])
  refine (avoids_run ?_ h).trans hone
  refine (writes_require _ _).bind fun _ => (writes_updateOne fun d' r hr => ?_).bind fun _ =>
    (writes_update fun d' => ?_).bind fun _ => trivial
  · obtain ⟨k, -, rfl⟩ := Option.map_eq_some_iff.mp hr
    simp [Avoids, Row.key]
  · exact follow_reservations (fun _ => rfl) fun r _ => by simp [Avoids, Row.key]

theorem finalizeProvision_keeps {op : Operation} {v : String} {q : Unit × DB}
    (h : (finalizeProvision op v).run ans d = .ok q) : q.2.operations.find i = some o := by
  simp only [finalizeProvision, bind_eq, run_selectForUpdate_bind, run_orFail_bind, run_external_bind,
    run_require_bind] at h
  obtain ⟨t, ht, -, h⟩ := h
  have hne : op.id ≠ i := by
    simp only [finalizeTarget, Option.bind_eq_bind, Option.bind_eq_some_iff, Option.filter_eq_some_iff,
      Bool.and_eq_true, decide_eq_true_eq] at ht
    obtain ⟨o', ⟨ho', ⟨-, hk⟩, -⟩, -⟩ := ht
    exact ne_of_row hb ho ho' (.inl (by simp [hk]))
  refine (avoids_run ?_ h).trans ho
  refine (writes_updateOne fun d' r hr => ?_).bind fun _ => writes_updateOne fun d' r hr => ?_
  · obtain ⟨k, -, rfl⟩ := Option.map_eq_some_iff.mp hr
    simp [Avoids, Row.key]
  · obtain ⟨k, hk, rfl⟩ := Option.map_eq_some_iff.mp hr
    have hid : k.id = op.id := Table.key_of_find (Option.filter_eq_some_iff.mp hk).1
    simpa [Avoids, Row.key, hid] using hne

theorem completeProvision_keeps {op : Operation} {q : Unit × DB} (h : (completeProvision op).run ans d = .ok q) :
    q.2.operations.find i = some o := by
  obtain ⟨r, hr, hq⟩ := updateOne_ok.mp h
  obtain ⟨o', ho', rfl⟩ := Option.map_eq_some_iff.mp hr
  obtain ⟨hf, -, hk, -⟩ := launchingRow_eq_some.mp (Option.filter_eq_some_iff.mp ho').1
  rw [hq]
  exact (find_put_operation_ne { o' with state := .succeeded, lease := none, updatedAt := d.clock } hf rfl (ne_of_row hb ho hf (.inl (by simp [hk])))).trans ho

end

/-- the calls that may change an operation that creates a cluster -/
def Call.leases : Call → Bool
  | .claimBootstrap _ _ _ _ _ | .renew _ _ => true
  | _ => false

/-- **An operation that creates a cluster is left alone by every call but `Claim` and `Renew`.** -/
theorem code_keeps_bootstrap {c : Call} (hc : c.leases = false) {o : OperationRow} (hb : o.Bootstraps)
    (ho : d.operations.find i = some o) {y : Reply × DB} (h : (code ext c).run ans d = .ok y) :
    y.2.operations.find i = some o := by
  by_cases hw : RowKind.operation ∈ c.writes
  · cases c <;> simp [Call.writes] at hw <;> simp [Call.leases] at hc <;>
      simp only [code, bind_eq, run_bind_ok, pure_eq, run_done, Except.ok.injEq] at h <;> obtain ⟨p, hp, rfl⟩ := h
    case setTarget => exact setTarget_keeps hb ho hp
    case createAutoscalerRemovals =>
      rcases createAutoscalerRemovals_ok hp with ⟨_, -, -, hd⟩ | ⟨_, _, _, hr⟩
      · rw [hd]
        exact ho
      · exact hr.admits.ops i o ho
    case createRemoval =>
      obtain ⟨_, _, _, hr⟩ := createRemoval_ok hp
      exact hr.admits.ops i o ho
    case claimDominator => exact claimDominator_keeps hb ho hp
    case beginLaunch =>
      refine fenced_keeps hb ho (fun _ => rfl) (fun o' ho' => .inr ?_) hp
      simp only [Bool.and_eq_true] at ho'
      exact authorized_group ho'.2
    case recordLaunchWithAddress => exact recordLaunchWithAddress_keeps hb ho hp
    case finalizeProvision => exact finalizeProvision_keeps hb ho hp
    case completeProvision => exact completeProvision_keeps hb ho hp
    case recordProvisionFailure =>
      simp only [recordProvisionFailure, bind_eq, run_require_bind] at hp
      refine fenced_keeps hb ho (fun _ => rfl) (fun o' ho' => .inl ?_) hp.2
      simp only [Bool.and_eq_true, decide_eq_true_eq] at ho'
      simp [ho'.1]
    case releaseProvisionLease =>
      refine fenced_keeps hb ho (fun _ => rfl) (fun o' ho' => .inl ?_) hp
      simp only [Bool.and_eq_true, decide_eq_true_eq] at ho'
      simp [ho'.1]
  · exact (avoids_run (avoids_of_writes hw) h).trans ho

theorem renew_ok {op : Operation} {t : Duration} {q : Unit × DB} (h : (renew op t).run ans d = .ok q) :
    ∃ o, d.operations.find op.id = some o ∧ o.heldBy op d.clock = true ∧ OperationState.active o.state = true ∧
      q.2 = d.put (.operation { o with lease := some ⟨op.leaseOwner, d.clock + t.micros⟩, updatedAt := d.clock }) := by
  simp only [renew, bind_eq, run_require_bind] at h
  obtain ⟨r, hr, hq⟩ := updateOne_ok.mp h.2
  obtain ⟨o, ho, rfl⟩ := Option.map_eq_some_iff.mp hr
  obtain ⟨hf, hh, hp⟩ := heldRow_eq_some.mp ho
  simp only [Bool.and_eq_true] at hp
  exact ⟨o, hf, hh, hp.1, hq⟩

theorem claimBootstrap_ok {z : String} {k : OperationKind} {owner : String} {t : Duration} {l : String → Bool}
    {q : Operation × DB} (h : (claimBootstrap z k owner t l).run ans d = .ok q) :
    ∃ o, d.operations.find o.id = some o ∧ o.kind = .createCluster ∧ o.claimableAt d.clock ∧
      q = ((o.claimed d owner t).toOperation, d.put (.operation (o.claimed d owner t))) := by
  simp only [claimBootstrap, bind_eq, run_require_bind] at h
  obtain ⟨hk, h⟩ := h
  obtain ⟨o, hc, -, hq⟩ := claim_ok h
  obtain ⟨hf, hko, hcl⟩ := claimCandidate_spec hc
  exact ⟨o, hf, hko.trans hk, hcl, hq⟩

/-- no call inserts an operation that creates a cluster -/
theorem code_inserts_no_bootstrap {c : Call} {y : Reply × DB} (h : (code ext c).run ans d = .ok y) {o : OperationRow}
    (ho : y.2.operations.find i = some o) (hk : o.kind = .createCluster) :
    ∃ o', d.operations.find i = some o' ∧ o'.intent = o.intent := by
  revert o
  refine (code_writes ext c).run_keeps (I := fun s => ∀ {o : OperationRow}, s.operations.find i = some o →
    o.kind = .createCluster → ∃ o', d.operations.find i = some o' ∧ o'.intent = o.intent)
    (fun r s hr hs => ?_) h fun {o} ho _ => ⟨o, ho, rfl⟩
  intro o ho hk
  cases r with
  | operation o' =>
    have ho : (s.operations.put o').find i = some o := ho
    rw [Table.find_put] at ho
    split_ifs at ho with hi
    · obtain rfl := Option.some.inj ho
      rcases hr.step with ⟨-, ha⟩ | ⟨old, hold, hint⟩
      · cases c <;> simp [Call.admits, hk] at ha
      · have hold : s.operations.find o'.id = some old := by simpa [DB.look, Row.key] using hold
        simp only [OperationRow.intent, Prod.mk.injEq] at hint
        obtain ⟨o₀, h₀, h₁⟩ := hs (hi ▸ hold) (hint.1.symm.trans hk)
        refine ⟨o₀, h₀, h₁.trans ?_⟩
        simp [OperationRow.intent, hint]
    · exact hs ho hk
  | _ => exact hs ho hk

end Crane.Capacity
