/-
What a successful admission, removal or catalog update did.

`Admission` collects every check an accepted `SetTarget` passed and the states it went through; a call that succeeds
without one is a replay and changes nothing. Removals and catalog updates add rows or change group and topology columns
only. Together: no call other than the fenced ones and the claims does anything to existing operations, hosts and
reservations except cancel and mark (`admin_effect`).
-/
import Crane.Capacity.Intents

namespace Crane.Capacity

open Tx

variable {ans : Operation → Bool}

/-! ## Shared statements -/

/-- the rows `loadPolicy` joined -/
structure Policy.Spec (p : Policy) (d : DB) (id : String) : Prop where
  group : d.nodeGroups.find id = some p.group
  pool : ∃ q, d.nodePools.find p.group.nodePoolId = some q ∧ p.poolLimit = ⟨q.maxVcpu, q.maxMemoryMib, q.maxNodes⟩

theorem policyOf_spec {d : DB} {id : String} {p : Policy} (h : policyOf d id = some p) : p.Spec d id := by
  simp only [policyOf, Option.bind_eq_bind, Option.bind_eq_some_iff, Option.some.injEq] at h
  obtain ⟨g, hg, q, hq, z, -, c, -, m, -, rfl⟩ := h
  exact ⟨hg, q, hq, rfl⟩

theorem Policy.Spec.id {p : Policy} {d : DB} {id : String} (h : p.Spec d id) : p.group.id = id :=
  Table.key_of_find h.group

theorem loadPolicy_bind {γ : Type} {f : Policy → StoreTx γ} {id : String} {d : DB} {x : γ × DB} :
    ((loadPolicy id).bind f).run ans d = .ok x ↔ ∃ p, policyOf d id = some p ∧ (f p).run ans d = .ok x := by
  simp only [loadPolicy, bind_eq, run_bind_ok, run_selectForUpdate_bind, run_orFail]
  constructor
  · rintro ⟨⟨p, d'⟩, ⟨hp, rfl⟩, hf⟩
    exact ⟨p, hp, hf⟩
  · rintro ⟨p, hp, hf⟩
    exact ⟨(p, d), ⟨hp, rfl⟩, hf⟩

/-- the admission test of `checkReservations` on the sums it read -/
def Fits (p : Policy) (used : Resources) (nodes : ℤ) : Prop :=
  (nodes ≤ maxInt64.tdiv p.group.vcpu ∧ nodes ≤ maxInt64.tdiv p.group.memoryMib) ∧
    wrap64 (nodes * p.group.vcpu) ≤ wrap64 (p.poolLimit.vcpu - used.vcpu) ∧
    wrap64 (nodes * p.group.memoryMib) ≤ wrap64 (p.poolLimit.memoryMib - used.memoryMib) ∧
    nodes ≤ wrap64 (p.poolLimit.nodes - used.nodes)

theorem checkReservations_ok {p : Policy} {nodes : ℤ} {d : DB} {x : Unit × DB} :
    (checkReservations p nodes).run ans d = .ok x ↔ Fits p (usedBy d p.group.nodePoolId) nodes ∧ x.2 = d := by
  simp only [checkReservations, bind_eq, run_require_bind, run_select_bind, run_require, Fits, and_assoc]

theorem checkRegistered_ok {g : String} {desired : ℤ} {d : DB} {x : Unit × DB} :
    (checkRegistered g desired).run ans d = .ok x ↔
      ((d.hosts.count fun h => h.nodeGroupId = some g && HostState.registered h.state : ℕ) : ℤ) ≤ desired ∧ x.2 = d := by
  simp only [checkRegistered, bind_eq, run_select_bind, run_require]

theorem insertRequest_bind {γ : Type} {f : Unit → StoreTx γ} {row : CapacityRequestRow} {d : DB} {x : γ × DB} :
    ((insertRequest row).bind f).run ans d = .ok x ↔ d.capacityRequests.find row.id = none ∧
      previousRequest d row.groupId row.requestId = none ∧ (f ()).run ans (d.put (.capacityRequest row)) = .ok x := by
  simp only [insertRequest, run_execute_bind]
  constructor
  · rintro ⟨rows, hr, hf⟩
    split_ifs at hr with hc
    simp only [Bool.or_eq_true, not_or, Bool.not_eq_true, Option.isSome_eq_false_iff, Option.isNone_iff_eq_none] at hc
    obtain rfl := Except.ok.inj hr
    exact ⟨hc.1, hc.2, hf⟩
  · rintro ⟨h₁, h₂, hf⟩
    exact ⟨[.capacityRequest row], by simp [h₁, h₂], hf⟩

/-- the group row with a new target and revision -/
structure Retarget (g g' : NodeGroup) (target revision : ℤ) : Prop where
  inRange : g.minNodes ≤ target ∧ target ≤ g.maxNodes
  nonneg : NonNeg64 revision
  eq : g' = { g with targetNodes := target, targetRevision := revision, check_revision := nonneg, check_target := inRange }

theorem setTarget_eq_ok {g g' : NodeGroup} {target revision : ℤ} :
    g.setTarget target revision = .ok g' ↔ Retarget g g' target revision := by
  unfold NodeGroup.setTarget
  split_ifs with h
  · exact ⟨fun e => ⟨h.2, h.1, (Except.ok.inj e).symm⟩, fun r => congrArg Except.ok r.eq.symm⟩
  · exact ⟨fun e => by simp at e, fun r => absurd ⟨r.nonneg, r.inRange⟩ h⟩

theorem updateTarget_bind {γ : Type} {f : Unit → StoreTx γ} {id : String} {target : NodeGroup → ℤ} {revision : ℤ}
    {d : DB} {g : NodeGroup} (hg : d.nodeGroups.find id = some g) {x : γ × DB} :
    ((updateTarget id target revision).bind f).run ans d = .ok x ↔
      ∃ g', Retarget g g' (target g) revision ∧ (f ()).run ans (d.put (.nodeGroup g')) = .ok x := by
  simp only [updateTarget, run_execute_bind, hg]
  constructor
  · rintro ⟨rows, hr, hf⟩
    cases hs : g.setTarget (target g) revision with
    | error e => simp [hs, Bind.bind, Except.bind] at hr
    | ok g' =>
      simp only [hs, Bind.bind, Except.bind, Except.ok.injEq] at hr
      subst hr
      exact ⟨g', setTarget_eq_ok.mp hs, hf⟩
  · rintro ⟨g', hr, hf⟩
    refine ⟨[.nodeGroup g'], ?_, hf⟩
    rw [setTarget_eq_ok.mpr hr]
    rfl

/-! ## SetTarget -/

/-- an accepted request, not a replay: the checks it passed and the states it went through -/
structure Admission (ans : Operation → Bool) (d : DB) (req : CapacityRequest) (u : Uuids) (x : CapacityResult × DB)
    (p : Policy) (pool : NodePool) (g' : NodeGroup) (d₂ : DB) : Prop where
  policy : p.Spec d req.nodeGroupId
  cluster : p.group.clusterId = req.clusterId
  fresh : previousRequest d req.nodeGroupId req.requestId = none
  rowFresh : d.capacityRequests.find (u 0) = none
  template : p.group.templateRevision = req.templateRevision
  revision : p.group.targetRevision = req.expectedTargetRevision
  notMax : p.group.targetRevision ≠ maxInt64
  poolRow : d.nodePools.find p.group.nodePoolId = some pool
  fits : p.group.targetNodes < req.desiredTarget →
    Fits { p with poolLimit := ⟨pool.maxVcpu, pool.maxMemoryMib, pool.maxNodes⟩ } (usedBy d p.group.nodePoolId)
      (req.desiredTarget - p.group.targetNodes)
  registered : req.desiredTarget < p.group.targetNodes →
    ((d.hosts.count fun h => h.nodeGroupId = some req.nodeGroupId && HostState.registered h.state : ℕ) : ℤ) ≤
      req.desiredTarget
  group : Retarget p.group g' req.desiredTarget (wrap64 (p.group.targetRevision + 1))
  reply : x.1 = ⟨req.requestId, req.nodeGroupId, req.desiredTarget, wrap64 (p.group.targetRevision + 1)⟩
  intents : (provisionIntents { p with poolLimit := ⟨pool.maxVcpu, pool.maxMemoryMib, pool.maxNodes⟩ } (u 0)
    (wrap64 (p.group.targetRevision + 1)) (fun j => u (j + 1)) (req.desiredTarget - p.group.targetNodes).toNat).run ans
    ((d.put (.capacityRequest ⟨u 0, req.nodeGroupId, req.requestId, req.clusterId, req.expectedTargetRevision,
      req.desiredTarget, req.templateRevision, wrap64 (p.group.targetRevision + 1)⟩)).put (.nodeGroup g')) = .ok ((), d₂)
  cancels : (req.desiredTarget < p.group.targetNodes ∧
      (cancelPending req.nodeGroupId (p.group.targetNodes - req.desiredTarget).toNat).run ans d₂ = .ok ((), x.2)) ∨
    (p.group.targetNodes ≤ req.desiredTarget ∧ x.2 = d₂)

theorem acceptTarget_ok {p : Policy} {req : CapacityRequest} {u : Uuids} {d : DB} {x : CapacityResult × DB}
    (hp : p.Spec d req.nodeGroupId) (hc : p.group.clusterId = req.clusterId)
    (hf : previousRequest d req.nodeGroupId req.requestId = none) (h : (acceptTarget p req u).run ans d = .ok x) :
    ∃ pool g' d₂, Admission ans d req u x p pool g' d₂ := by
  simp only [acceptTarget, bind_eq, run_require_bind, run_selectForUpdate_bind, run_orFail_bind, run_when_bind,
    checkReservations_ok, checkRegistered_ok, insertRequest_bind] at h
  obtain ⟨-, ht, hr, ⟨hmin, hmax, hnm⟩, pool, hpool, s₁, hs₁, s₂, hs₂, hrow, hprev, h⟩ := h
  obtain rfl : s₁ = d := by rcases hs₁ with ⟨-, -, e⟩ | ⟨-, e⟩ <;> exact e
  obtain rfl : s₂ = s₁ := by rcases hs₂ with ⟨-, -, e⟩ | ⟨-, e⟩ <;> exact e
  have hg : (s₂.put (.capacityRequest ⟨u 0, req.nodeGroupId, req.requestId, req.clusterId, req.expectedTargetRevision,
      req.desiredTarget, req.templateRevision, wrap64 (p.group.targetRevision + 1)⟩)).nodeGroups.find req.nodeGroupId =
      some p.group := hp.group
  rw [updateTarget_bind hg] at h
  obtain ⟨g', hg', h⟩ := h
  obtain ⟨⟨_, d₂⟩, hint, h⟩ := run_bind_ok.mp h
  obtain ⟨d₃, hd₃, hx⟩ := run_when_bind.mp h
  obtain rfl := Except.ok.inj hx
  refine ⟨pool, g', d₂, ⟨hp, hc, hf, hrow, ht, hr, hnm, hpool, fun hlt => ?_, fun hlt => ?_, hg', rfl, hint, ?_⟩⟩
  · rcases hs₁ with ⟨-, hfit, -⟩ | ⟨hn, -⟩
    · exact hfit
    · omega
  · rcases hs₂ with ⟨-, hcount, -⟩ | ⟨hn, -⟩
    · exact hcount
    · omega
  · rcases hd₃ with ⟨hlt, hrun⟩ | ⟨hn, rfl⟩
    · exact .inl ⟨by omega, by rwa [neg_sub] at hrun⟩
    · exact .inr ⟨by omega, rfl⟩

/-- **A successful `SetTarget`** is a replay of a stored request, which changes nothing, or an accepted admission. -/
theorem setTarget_ok {req : CapacityRequest} {u : Uuids} {d : DB} {x : CapacityResult × DB}
    (h : (setTarget req u).run ans d = .ok x) :
    (∃ row, previousRequest d req.nodeGroupId req.requestId = some row ∧ row.request = req ∧
      x = (⟨req.requestId, req.nodeGroupId, req.desiredTarget, row.resultRevision⟩, d)) ∨
    ∃ p pool g' d₂, Admission ans d req u x p pool g' d₂ := by
  simp only [setTarget, bind_eq, run_require_bind, loadPolicy_bind, run_select_bind] at h
  obtain ⟨-, p, hp, hc, h⟩ := h
  cases hprev : previousRequest d req.nodeGroupId req.requestId with
  | some row =>
    simp only [hprev, run_require_bind, pure_eq, run_done] at h
    exact .inl ⟨row, rfl, h.1, (Except.ok.inj h.2).symm⟩
  | none =>
    simp only [hprev] at h
    exact .inr ⟨p, acceptTarget_ok (policyOf_spec hp) hc hprev h⟩

/-! ## Removals -/

/-- adding an operation of another kind changes no provision operation -/
theorem admits_put_operation {d : DB} {o : OperationRow} (hk : o.kind ≠ .provision) (hf : o.Fresh) (hn : d.operations.find o.id = none)
    (ht : ∀ i o', d.operations.find i = some o' → o'.providerToken ≠ o.providerToken) :
    Admits d (d.put (.operation o)) := by
  have hold : ∀ i x, d.operations.find i = some x → (d.put (.operation o)).operations.find i = some x := by
    intro i x hx
    simp only [DB.put]
    rw [Table.find_put_ne _ fun e => by simp [← e, hn] at hx]
    exact hx
  have hnew : ∀ i x, (d.put (.operation o)).operations.find i = some x →
      (i = o.id ∧ x = o) ∨ d.operations.find i = some x := by
    intro i x hx
    simp only [DB.put, Table.find_put] at hx
    split_ifs at hx with hi
    · exact .inl ⟨hi.symm, (Option.some.inj hx).symm⟩
    · exact .inr hx
  refine ⟨rfl, rfl, hold, fun i x hx => ?_, fun _ _ h => h, fun hw => ⟨fun i x hx hp => ?_, fun i x hx hp => ?_, fun k h i hh hi => ?_,
    hw.managed, hw.resOne, fun i i' x x' hx hx' he => ?_, fun k b hb => ?_⟩, fun _ v hv => ?_⟩
  · rcases hnew i x hx with ⟨rfl, rfl⟩ | hx
    · exact .inr ⟨hn, hf⟩
    · exact .inl hx
  · rcases hnew i x hx with ⟨-, rfl⟩ | hx
    · exact absurd hp hk
    · exact hw.opHost i x hx hp
  · rcases hnew i x hx with ⟨-, rfl⟩ | hx
    · exact absurd hp hk
    · exact hw.opRes i x hx hp
  · obtain ⟨x, hx, h₁, h₂⟩ := hw.hostOp k h i hh hi
    exact ⟨x, hold _ _ hx, h₁, h₂⟩
  · rcases hnew i x hx with ⟨h₁, e₁⟩ | h₁ <;> rcases hnew i' x' hx' with ⟨h₂, e₂⟩ | h₂
    · rw [h₁, h₂]
    · exact absurd (e₁ ▸ he.symm) (ht i' x' h₂)
    · exact absurd (e₂ ▸ he) (ht i x h₁)
    · exact hw.token i i' x x' h₁ h₂ he
  · obtain ⟨x, hx, h₁, h₂⟩ := hw.bound k b hb
    exact ⟨x, hold _ _ hx, h₁, h₂⟩
  · rcases hnew _ _ hv.op with ⟨-, ho⟩ | ho
    · exact absurd (ho ▸ hv.kind) hk
    · exact .inl ⟨ho, hv.kind, hv.hostId, hv.host, hv.res, hv.resHost⟩

/-- what `checkNode` found -/
structure CheckedNode (d : DB) (groupId hostId : String) (h : Host) : Prop where
  row : d.hosts.find hostId = some h
  group : h.nodeGroupId.getD "" = groupId
  providerId : h.providerId.getD "" ≠ ""
  live : h.state ≠ .terminated ∧ h.state ≠ .terminating ∧ h.state ≠ .failed
  free : removalActive d hostId = false

theorem checkNode_ok {groupId : String} {n : RemovalNode} {d : DB} {x : String × DB}
    (h : (checkNode groupId n).run ans d = .ok x) :
    ∃ k, CheckedNode d groupId n.hostId k ∧ x = (k.providerId.getD "", d) := by
  simp only [checkNode, bind_eq, run_selectForUpdate_bind, run_orFail_bind, run_require_bind, run_select_bind, pure_eq,
    run_done, Except.ok.injEq] at h
  obtain ⟨⟨k, z⟩, hk, ⟨h₁, h₂, -⟩, h₃, h₄, rfl⟩ := h
  simp only [hostInZone, Option.bind_eq_bind, Option.bind_eq_some_iff, Option.some.injEq, Prod.mk.injEq] at hk
  obtain ⟨k', hk', _, -, rfl, -⟩ := hk
  exact ⟨k', ⟨hk', h₁, h₂, h₃, h₄⟩, rfl⟩

theorem checkNodes_ok {groupId : String} {ns : List RemovalNode} {d : DB} {x : List String × DB}
    (h : (checkNodes groupId ns).run ans d = .ok x) :
    (∀ n ∈ ns, ∃ k, CheckedNode d groupId n.hostId k) ∧ x.1.length = ns.length ∧ x.2 = d := by
  induction ns generalizing x with
  | nil =>
    obtain rfl := Except.ok.inj h
    simp
  | cons n ns ih =>
    simp only [checkNodes, bind_eq, run_bind_ok, pure_eq, run_done, Except.ok.injEq] at h
    obtain ⟨p, hp, q, hq, rfl⟩ := h
    obtain ⟨k, hk, rfl⟩ := checkNode_ok hp
    obtain ⟨hall, hlen, hd⟩ := ih hq
    refine ⟨fun m hm => ?_, congrArg (· + 1) hlen, hd⟩
    rcases List.mem_cons.mp hm with rfl | hm
    · exact ⟨k, hk⟩
    · exact hall m hm

/-- one removal: its operation row and its ownership row, with unused keys -/
structure RemovalInsert (g : NodeGroup) (hostId : String) (revision : ℤ) (params : Parameters) (u : Uuids) (r : Removal)
    (d d' : DB) : Prop where
  op : d.operations.find (u 0) = none
  token : ∀ i o, d.operations.find i = some o → o.providerToken ≠ u 1
  row : d.removals.find r.operationId = none
  free : removalActive d r.hostId = false
  eq : d' = (d.put (.operation (removalOperation g hostId revision params u d))).put (.removal r)

theorem insertRemoval_bind {γ : Type} {f : Unit → StoreTx γ} {r : Removal} {d : DB} {x : γ × DB} :
    ((insertRemoval r).bind f).run ans d = .ok x ↔ d.removals.find r.operationId = none ∧
      removalActive d r.hostId = false ∧ (f ()).run ans (d.put (.removal r)) = .ok x := by
  simp only [insertRemoval, run_execute_bind]
  constructor
  · rintro ⟨rows, hr, hf⟩
    split_ifs at hr with hc
    simp only [Bool.or_eq_true, not_or, Bool.not_eq_true, Option.isSome_eq_false_iff, Option.isNone_iff_eq_none] at hc
    obtain rfl := Except.ok.inj hr
    exact ⟨hc.1, hc.2, hf⟩
  · rintro ⟨h₁, h₂, hf⟩
    exact ⟨[.removal r], by simp [h₁, h₂], hf⟩

theorem RemovalInsert.admits {g : NodeGroup} {hostId : String} {revision : ℤ} {params : Parameters} {u : Uuids}
    {r : Removal} {d d' : DB} (h : RemovalInsert g hostId revision params u r d d') : Admits d d' := by
  rw [h.eq]
  exact (admits_put_operation (by simp [removalOperation]) ⟨rfl, rfl, rfl⟩ h.op h.token).trans (.of_eq rfl rfl rfl rfl rfl)

/-- the loop over the named nodes, as a rule -/
theorem insertRemovals_induct {g : NodeGroup} {req : NodeRemovalRequest} {revision : ℤ} {deadline : ℕ}
    {I : List (RemovalNode × String) → DB → Prop}
    (hstep : ∀ n p l u d d', I ((n, p) :: l) d → RemovalInsert g n.hostId revision (.removal req) u
      ⟨u 0, g.id, n.hostId, n.nodeName, p, .autoscalerDelete, false, deadline, none⟩ d d' → I l d')
    (l : List (RemovalNode × String)) {u : Uuids} {d : DB} {x : Unit × DB} (h₀ : I l d)
    (h : (insertRemovals g req revision deadline u l).run ans d = .ok x) : I [] x.2 := by
  induction l generalizing u d with
  | nil =>
    obtain rfl := Except.ok.inj h
    exact h₀
  | cons np l ih =>
    obtain ⟨n, p⟩ := np
    simp only [insertRemovals, bind_eq, insertOperation_bind, insertRemoval_bind] at h
    obtain ⟨ho, ht, hr, hf, h⟩ := h
    exact ih (hstep n p l u d _ h₀ ⟨ho, ht, hr, hf, rfl⟩) h

/-- an accepted request of named removals, not a replay -/
structure Removals (ans : Operation → Bool) (d : DB) (clusterId : String) (req : NodeRemovalRequest) (u : Uuids)
    (deadline : ℕ) (d' : DB) (p : Policy) (g' : NodeGroup) (providerIds : List String) : Prop where
  wellFormed : NodeRemovalRequest.wellFormed clusterId req
  policy : p.Spec d req.nodeGroupId
  cluster : p.group.clusterId = clusterId
  fresh : previousRemoval d req.nodeGroupId req.requestId = none
  revision : p.group.targetRevision = req.expectedTargetRevision
  notMax : p.group.targetRevision ≠ maxInt64
  nodes : ∀ n ∈ req.nodes, ∃ k, CheckedNode d req.nodeGroupId n.hostId k
  length : providerIds.length = req.nodes.length
  group : Retarget p.group g' (p.group.targetNodes - req.nodes.length) (wrap64 (p.group.targetRevision + 1))
  inserts : (insertRemovals p.group req (wrap64 (p.group.targetRevision + 1)) deadline u (req.nodes.zip providerIds)).run
    ans (d.put (.nodeGroup g')) = .ok ((), d')

/-- **A successful `CreateAutoscalerRemovals`** is a replay, which changes nothing, or an accepted request. -/
theorem createAutoscalerRemovals_ok {clusterId : String} {req : NodeRemovalRequest} {u : Uuids} {deadline : ℕ} {d : DB}
    {x : Unit × DB} (h : (createAutoscalerRemovals clusterId req u deadline).run ans d = .ok x) :
    (∃ o, previousRemoval d req.nodeGroupId req.requestId = some o ∧ o.removalRequest = some req ∧ x.2 = d) ∨
    ∃ p g' ps, Removals ans d clusterId req u deadline x.2 p g' ps := by
  simp only [createAutoscalerRemovals, bind_eq, run_require_bind, loadPolicy_bind, run_select_bind] at h
  obtain ⟨hw, p, hp, hc, h⟩ := h
  cases hprev : previousRemoval d req.nodeGroupId req.requestId with
  | some o =>
    simp only [hprev, run_require] at h
    exact .inl ⟨o, rfl, h.1, h.2⟩
  | none =>
    simp only [hprev, run_require_bind] at h
    obtain ⟨hr, ⟨-, hnm⟩, h⟩ := h
    obtain ⟨⟨ps, d₁⟩, hps, h'⟩ := run_bind_ok.mp h
    obtain ⟨hn, hlen, hd⟩ := checkNodes_ok hps
    obtain rfl : d₁ = d := hd
    have hs := policyOf_spec hp
    obtain ⟨g', hg', hrun⟩ := (updateTarget_bind hs.group).mp h'
    exact .inr ⟨p, g', ps, ⟨hw, hs, hc, hprev, hr, hnm, hn, hlen, hg', hrun⟩⟩

/-- an accepted `CreateRemoval` -/
structure OneRemoval (d : DB) (clusterId : String) (expectedRevision : ℤ) (r : NodeRemovalOperation) (u : Uuids)
    (d' : DB) (p : Policy) (h : Host) (d₁ : DB) : Prop where
  policy : p.Spec d r.nodeGroupId
  cluster : p.group.clusterId = clusterId
  revision : p.group.targetRevision = expectedRevision
  wellFormed : NodeRemovalOperation.wellFormed clusterId r
  preserve : r.preserveDesiredCapacity = decide (r.reason ≠ .autoscalerDelete)
  host : d.hosts.find r.hostId = some h
  live : h.state ≠ .terminated ∧ h.state ≠ .terminating ∧ h.state ≠ .failed
  hostGroup : h.nodeGroupId.getD "" = r.nodeGroupId
  hostProvider : h.providerId.getD "" = r.providerId
  target : (r.preserveDesiredCapacity = false ∧ p.group.minNodes < p.group.targetNodes ∧
      ∃ g', Retarget p.group g' (p.group.targetNodes - 1) (wrap64 (p.group.targetRevision + 1)) ∧
        d₁ = d.put (.nodeGroup g')) ∨ (r.preserveDesiredCapacity = true ∧ d₁ = d)
  insert : ∃ revision, RemovalInsert p.group r.hostId revision (.document (.obj [])) u ⟨u 0, p.group.id, r.hostId,
    r.nodeName, r.providerId, r.reason, r.preserveDesiredCapacity, r.drainDeadline.getD 0, none⟩ d₁ d'

theorem createRemoval_ok {clusterId : String} {expectedRevision : ℤ} {r : NodeRemovalOperation} {u : Uuids} {d : DB}
    {x : String × DB} (h : (createRemoval clusterId expectedRevision r u).run ans d = .ok x) :
    ∃ p k d₁, OneRemoval d clusterId expectedRevision r u x.2 p k d₁ := by
  simp only [createRemoval, bind_eq, run_require_bind, loadPolicy_bind, run_selectForUpdate_bind, run_orFail_bind,
    run_when_bind, insertOperation_bind, insertRemoval_bind, pure_eq, run_done] at h
  obtain ⟨hw, hpre, p, hp, hc, hr, k, hk, ⟨hg, hpid⟩, d₁, hd₁, ho, ht, hrow, hfree, hx⟩ := h
  obtain rfl := Except.ok.inj hx
  have hs := policyOf_spec hp
  obtain ⟨hkf, hlive⟩ := Option.filter_eq_some_iff.mp hk
  refine ⟨p, k, d₁, ⟨hs, hc, hr, hw, hpre, hkf, by simpa [and_assoc] using hlive, hg, hpid, ?_,
    ⟨_, ⟨ho, ht, hrow, hfree, rfl⟩⟩⟩⟩
  rcases hd₁ with ⟨hf, hlim, hrun⟩ | ⟨hf, rfl⟩
  · rw [hs.id] at hrun
    have hrun' : ((updateTarget r.nodeGroupId (fun g => g.targetNodes - 1)
        (if r.preserveDesiredCapacity = true then p.group.targetRevision else wrap64 (p.group.targetRevision + 1))).bind
        (fun _ => done ())).run ans d = .ok ((), d₁) := run_bind_ok.mpr ⟨((), d₁), hrun, rfl⟩
    rw [updateTarget_bind hs.group, if_neg (by simp [hf])] at hrun'
    obtain ⟨g', hg', hput⟩ := hrun'
    exact .inl ⟨hf, hlim, g', hg', (Prod.mk.inj (Except.ok.inj hput)).2.symm⟩
  · exact .inr ⟨by simpa using hf, rfl⟩

end Crane.Capacity
