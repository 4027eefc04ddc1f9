/-
Which tables a call writes, and which row version may follow which.

`Call.writes` lists the tables of each call. `Follows` says, table by table, what a stored version keeps of the version
it replaces: a group its pool and bounds, an operation its intent, a reservation its amounts, a node binding its
identity and everything that was set. `code_writes` shows it for every statement of every call, in whatever state the
statement finds the database, so that it holds whatever the call is interleaved with.
-/
import Crane.Capacity.Admissions

namespace Crane.Capacity

open Tx RowStore

/-- the tables -/
inductive RowKind where
  | zone | cluster | clusterZone | nodePool | nodeGroup | capacityRequest | host | zoneDominator | operation
  | provisioning | reservation | removal
deriving DecidableEq, Repr

def Row.kind : Row → RowKind
  | .zone _ => .zone
  | .cluster _ => .cluster
  | .clusterZone _ => .clusterZone
  | .nodePool _ => .nodePool
  | .nodeGroup _ => .nodeGroup
  | .capacityRequest _ => .capacityRequest
  | .host _ => .host
  | .zoneDominator _ => .zoneDominator
  | .operation _ => .operation
  | .provisioning _ => .provisioning
  | .reservation _ => .reservation
  | .removal _ => .removal

/-- rows of the listed tables -/
def Of (l : List RowKind) (_ : Option Row) (r : Row) : Prop := r.kind ∈ l

def Call.writes : Call → List RowKind
  | .setTarget _ _ => [.capacityRequest, .nodeGroup, .operation, .host, .reservation]
  | .createAutoscalerRemovals _ _ _ _ => [.nodeGroup, .operation, .removal]
  | .createRemoval _ _ _ _ => [.nodeGroup, .operation, .removal]
  | .updateNodeGroupScheduling _ _ _ _ _ => [.nodeGroup]
  | .updateClusterZone _ => [.clusterZone]
  | .topology _ => [.zone, .cluster, .nodeGroup, .nodePool, .zoneDominator]
  | .claimBootstrap _ _ _ _ _ => [.operation]
  | .claimDominator _ _ _ _ _ => [.operation]
  | .renew _ _ => [.operation]
  | .beginLaunch _ => [.operation]
  | .recordLaunchWithAddress _ _ _ _ => [.operation, .host, .reservation]
  | .setProvisionDesiredVersion _ _ => [.host]
  | .setProvisionState _ _ _ => [.host]
  | .bindProvisionNode _ _ => [.provisioning]
  | .pinProvisionExpectedState _ _ => [.provisioning, .host]
  | .prepareProvisionRelease _ _ => [.provisioning]
  | .finalizeProvision _ _ => [.host, .operation]
  | .completeProvision _ => [.operation]
  | .recordProvisionFailure _ _ => [.operation]
  | .releaseProvisionLease _ => [.operation]

/-! ## Row versions -/

/-- the columns of a zone that no call changes -/
def Zone.place (z : Zone) : String × String × String × String × String × String :=
  (z.provider, z.accountId, z.region, z.providerZoneId, z.kubernetesRegion, z.kubernetesZone)

def NodePool.limits (p : NodePool) : Resources := ⟨p.maxVcpu, p.maxMemoryMib, p.maxNodes⟩

/-- the columns of a group that no call changes -/
def NodeGroup.fixed (g : NodeGroup) : String × String × String × ℤ × ℤ × ℤ × ℤ :=
  (g.clusterId, g.zoneId, g.nodePoolId, g.minNodes, g.maxNodes, g.vcpu, g.memoryMib)

/-- target_nodes and target_revision -/
def NodeGroup.target (g : NodeGroup) : ℤ × ℤ := (g.targetNodes, g.targetRevision)

/-- the group whose target a call can change -/
def Call.group : Call → Option String
  | .setTarget req _ => some req.nodeGroupId
  | .createAutoscalerRemovals _ req _ _ => some req.nodeGroupId
  | .createRemoval _ _ r _ => some r.nodeGroupId
  | _ => none

def Call.retargets (c : Call) : Bool := c.group.isSome

/-- the admission record a call may insert -/
def Call.records : Call → CapacityRequestRow → Prop
  | .setTarget req u, r => r.id = u 0 ∧ r.request = req
  | _, _ => False

/-- the operations a call may insert -/
def Call.admits : Call → OperationRow → Prop
  | .setTarget _ _, o => o.kind = .provision ∧ o.removalRequest = none ∧ o.state = .pending
  | .createAutoscalerRemovals _ req _ _, o =>
      o.kind = .removeNode ∧ o.groupId = some req.nodeGroupId ∧ o.removalRequest = some req
  | .createRemoval _ _ _ _, o => o.kind = .removeNode ∧ o.removalRequest = none
  | _, _ => False

def Call.isSetTarget : Call → Bool
  | .setTarget _ _ => true
  | _ => false

def Call.isPin : Call → Bool
  | .pinProvisionExpectedState _ _ => true
  | _ => false

def Call.isFinalize : Call → Bool
  | .finalizeProvision _ _ => true
  | _ => false

/-- the identity columns of a node binding -/
def ProvisioningState.identity (b : ProvisioningState) : String × String × String × String × String :=
  (b.operationId, b.nodeName, b.nodeUid, b.providerId, b.contractHash)

/-- a node binding keeps its identity and everything that was set -/
structure ProvisioningState.Extends (b b' : ProvisioningState) : Prop where
  identity : b'.identity = b.identity
  pinned : ∀ e, b.expectedState = some e → b'.expectedState = some e
  started : b.releaseStarted = true → b'.releaseStarted = true

/-- a host keeps what it belongs to; only the last step of the handoff makes it READY, and apart from the pin, which
locks the host, no call gives a READY host another version to run -/
structure Host.Follows (c : Call) (h h' : Host) : Prop where
  refs : h'.refs = h.refs
  ready : h'.state = .ready → h.state = .ready ∨ c.isFinalize = true
  desired : h.state = .ready → h'.desiredStateVersion = h.desiredStateVersion ∨ c.isPin = true

/-- a reservation keeps its amounts; once released it stays released -/
structure Reservation.Follows (r r' : Reservation) : Prop where
  refs : r'.refs = r.refs
  state : r'.state = .released ∨ (r'.state = .committed ∧ r.state = .reserved)

/-- call `c` may store `new` in place of `old` -/
def RowStep (x : Externals) (c : Call) (old : Option Row) : Row → Prop
  | .zone z' => ∃ z, old = some (.zone z) ∧ z'.place = z.place
  | .nodePool p' => ∃ p, old = some (.nodePool p) ∧ p'.limits = p.limits
  | .cluster _ => ∃ k, old = some (.cluster k)
  | .clusterZone _ => ∃ m, old = some (.clusterZone m)
  | .nodeGroup g' => ∃ g, old = some (.nodeGroup g) ∧ g'.fixed = g.fixed ∧ (c.group ≠ some g'.id → g'.target = g.target)
  | .capacityRequest r => old = none ∧ c.records r
  | .host h' => (old = none ∧ h'.state = .requested) ∨ ∃ h, old = some (.host h) ∧ h.Follows c h'
  | .operation o' => (old = none ∧ c.admits o') ∨ ∃ o, old = some (.operation o) ∧ o'.intent = o.intent
  | .provisioning b' => (old = none ∧ b'.nodeName = x.workerNodeName b'.hostId) ∨
      ∃ b, old = some (.provisioning b) ∧ b.Extends b'
  | .reservation r' => (old = none ∧ r'.state = .reserved ∧ c.isSetTarget = true) ∨
      ∃ r, old = some (.reservation r) ∧ r.Follows r'
  | .removal _ => old = none
  | .zoneDominator _ => True

/-- a version that call `c` may store: a row of one of its tables, in place of a version it may follow -/
structure Follows (x : Externals) (c : Call) (old : Option Row) (new : Row) : Prop where
  kind : new.kind ∈ c.writes
  step : RowStep x c old new

/-- the columns of a row that no call changes once it is stored -/
inductive Columns where
  | host (refs : Option String × Option String × Option String × Option String)
  | operation (intent : OperationKind × String × Option String × Option String × Option String × ℤ × String × Parameters)
  | group (fixed : String × String × String × ℤ × ℤ × ℤ × ℤ)
  | binding (identity : String × String × String × String × String)
  | other

def Row.columns : Row → Columns
  | .host h => .host h.refs
  | .operation o => .operation o.intent
  | .nodeGroup g => .group g.fixed
  | .provisioning b => .binding b.identity
  | _ => .other

/-- the tables with such columns -/
def Key.hasColumns : Key → Bool
  | .host _ | .operation _ | .nodeGroup _ | .provisioning _ => true
  | _ => false

theorem Follows.columns {x : Externals} {c : Call} {k : Key} (hk : k.hasColumns = true) (old new : Row)
    (hn : RowStore.key DB new = k) (h : Follows x c (some old) new) : new.columns = old.columns := by
  subst hn
  have hs := h.step
  cases new with
  | host h' =>
    simp only [RowStep, reduceCtorEq, false_and, Option.some.injEq, false_or] at hs
    obtain ⟨h, rfl, hf⟩ := hs
    exact congrArg Columns.host hf.refs
  | operation o' =>
    simp only [RowStep, reduceCtorEq, false_and, Option.some.injEq, false_or] at hs
    obtain ⟨o, rfl, hi⟩ := hs
    exact congrArg Columns.operation hi
  | nodeGroup g' =>
    simp only [RowStep, Option.some.injEq] at hs
    obtain ⟨g, rfl, hf, -⟩ := hs
    exact congrArg Columns.group hf
  | provisioning b' =>
    simp only [RowStep, reduceCtorEq, false_and, Option.some.injEq, false_or] at hs
    obtain ⟨b, rfl, he⟩ := hs
    exact congrArg Columns.binding he.identity
  | _ => simp [Key.hasColumns, key_eq, Row.key] at hk

/-! ## The version a row replaces -/

theorem DB.look_zone {d : DB} {i : String} {z : Zone} (z' : Zone) (h : d.zones.find i = some z) (hi : z'.id = z.id) :
    d.look (Row.zone z').key = some (.zone z) := by
  simp [DB.look, Row.key, hi, Table.find_mem (Table.mem_of_find h)]

theorem DB.look_cluster {d : DB} {i : String} {k : Cluster} (k' : Cluster) (h : d.clusters.find i = some k)
    (hi : k'.id = k.id) : d.look (Row.cluster k').key = some (.cluster k) := by
  simp [DB.look, Row.key, hi, Table.find_mem (Table.mem_of_find h)]

theorem DB.look_clusterZone {d : DB} {i : String × String} {m : ClusterZone} (m' : ClusterZone)
    (h : d.clusterZones.find i = some m) (hi : m'.key = m.key) : d.look (Row.clusterZone m').key = some (.clusterZone m) := by
  simp [DB.look, Row.key, hi, Table.find_mem (Table.mem_of_find h)]

theorem DB.look_nodePool {d : DB} {i : String} {p : NodePool} (p' : NodePool) (h : d.nodePools.find i = some p)
    (hi : p'.id = p.id) : d.look (Row.nodePool p').key = some (.nodePool p) := by
  simp [DB.look, Row.key, hi, Table.find_mem (Table.mem_of_find h)]

theorem DB.look_nodeGroup {d : DB} {i : String} {g : NodeGroup} (g' : NodeGroup) (h : d.nodeGroups.find i = some g)
    (hi : g'.id = g.id) : d.look (Row.nodeGroup g').key = some (.nodeGroup g) := by
  simp [DB.look, Row.key, hi, Table.find_mem (Table.mem_of_find h)]

theorem DB.look_host {d : DB} {i : String} {k : Host} (k' : Host) (h : d.hosts.find i = some k) (hi : k'.id = k.id) :
    d.look (Row.host k').key = some (.host k) := by
  simp [DB.look, Row.key, hi, Table.find_mem (Table.mem_of_find h)]

theorem DB.look_operation {d : DB} {i : String} {o : OperationRow} (o' : OperationRow)
    (h : d.operations.find i = some o) (hi : o'.id = o.id) : d.look (Row.operation o').key = some (.operation o) := by
  simp [DB.look, Row.key, hi, Table.find_mem (Table.mem_of_find h)]

theorem DB.look_provisioning {d : DB} {i : String} {b : ProvisioningState} (b' : ProvisioningState)
    (h : d.provisioning.find i = some b) (hi : b'.hostId = b.hostId) :
    d.look (Row.provisioning b').key = some (.provisioning b) := by
  simp [DB.look, Row.key, hi, Table.find_mem (Table.mem_of_find h)]

theorem DB.look_reservation {d : DB} {r : Reservation} (r' : Reservation) (h : r ∈ d.reservations.rows)
    (hi : r'.id = r.id) : d.look (Row.reservation r').key = some (.reservation r) := by
  simp [DB.look, Row.key, hi, Table.find_mem h]

/-! ## Statements and helpers -/

section
variable {G : Option Row → Row → Prop} {α : Type}

theorem follow_map {d : DB} {o : Option α} {f : α → Row} (h : ∀ a, o = some a → G (d.look (f a).key) (f a)) :
    Follow G d (o.toList.map f) := by
  cases o with
  | none => trivial
  | some a => exact ⟨h a rfl, trivial⟩

theorem writes_updateOne {q : DB → Option Row} {e : Err} (h : ∀ d r, q d = some r → G (d.look r.key) r) :
    (updateOne q e).Writes G :=
  (writes_update fun d => follow_toList (h d)).bind fun _ => writes_require _ _

/-- an UPDATE of at most one row, computed from the row `q` finds -/
theorem writes_updateOne_map {q : DB → Option α} {f : DB → α → Row} {e : Err}
    (h : ∀ d a, q d = some a → G (d.look (f d a).key) (f d a)) :
    (updateOne (fun d => (q d).map (f d)) e).Writes G := by
  refine writes_updateOne fun d r hr => ?_
  obtain ⟨a, ha, rfl⟩ := Option.map_eq_some_iff.mp hr
  exact h d a ha

/-- an UPDATE of reservations that keeps their keys -/
theorem follow_reservations {d : DB} {p : Reservation → Bool} {f : Reservation → Reservation}
    (hf : ∀ r, (f r).id = r.id) (h : ∀ r, p r = true → G (some (.reservation r)) (.reservation (f r))) :
    Follow G d (((d.reservations.rows.filter p).map f).map .reservation) := by
  refine follow_of_nodup ?_ fun row hrow => ?_
  · have hn : ((d.reservations.rows.filter p).map Reservation.id).Nodup :=
      d.reservations.nodup.sublist (List.filter_sublist.map _)
    have hkey : ∀ r : Reservation, RowStore.key DB (Row.reservation (f r)) = Key.reservation r.id := fun r =>
      congrArg Key.reservation (hf r)
    simpa [List.map_map, Function.comp_def, hkey] using hn.map (f := Key.reservation) fun _ _ => Key.reservation.inj
  · simp only [List.map_map, List.mem_map, List.mem_filter, Function.comp_apply] at hrow
    obtain ⟨r, ⟨hr, hp⟩, rfl⟩ := hrow
    rw [look_eq, key_eq, DB.look_reservation _ hr (hf r)]
    exact h r hp

theorem writes_insertOperation {o : DB → OperationRow} (h : ∀ d, G none (.operation (o d))) :
    (insertOperation o).Writes G := by
  refine writes_execute fun d rows hr => ?_
  split_ifs at hr with hn
  obtain rfl := Except.ok.inj hr
  simp only [Bool.or_eq_true, not_or, Option.not_isSome_iff_eq_none] at hn
  exact ⟨by simpa [DB.look, Row.key, hn.1] using h d, trivial⟩

theorem writes_provisionIntent {p : Policy} {requestId : String} {revision : ℤ} {u : Uuids}
    (ho : ∀ d, G none (.operation (intentOperation p requestId revision u d)))
    (hh : ∀ d, G none (.host (intentHost p u d))) (hr : G none (.reservation (intentReservation p requestId u))) :
    (provisionIntent p requestId revision u).Writes G := by
  refine (writes_insertOperation ho).bind fun _ => (writes_execute fun d rows h => ?_).bind fun _ =>
    writes_execute fun d rows h => ?_
  · split_ifs at h with hn
    obtain rfl := Except.ok.inj h
    have hnone : d.hosts.find (u 0) = none := by simpa using hn
    exact ⟨by simpa [DB.look, Row.key, intentHost, hnone] using hh d, trivial⟩
  · split_ifs at h with hn
    obtain rfl := Except.ok.inj h
    simp only [Bool.or_eq_true, not_or, Option.not_isSome_iff_eq_none] at hn
    exact ⟨by simpa [DB.look, Row.key, intentReservation, hn.1] using hr, trivial⟩

theorem writes_provisionIntents {p : Policy} {requestId : String} {revision : ℤ} {u : Uuids}
    (ho : ∀ u d, G none (.operation (intentOperation p requestId revision u d)))
    (hh : ∀ u d, G none (.host (intentHost p u d))) (hr : ∀ u, G none (.reservation (intentReservation p requestId u)))
    (n : ℕ) : (provisionIntents p requestId revision u n).Writes G := by
  induction n with
  | zero => trivial
  | succ n ih => exact ih.bind fun _ => writes_provisionIntent (ho _) (hh _) (hr _)

theorem writes_cancelIntents (ho : ∀ o n, G (some (.operation o)) (.operation (o.cancelled n)))
    (hh : ∀ h n, G (some (.host h)) (.host (h.terminated n)))
    (hr : ∀ r, G (some (.reservation r)) (.reservation { r with state := .released })) (l : List OperationRow) :
    (cancelIntents l).Writes G := by
  induction l with
  | nil => trivial
  | cons o l ih =>
    refine Writes.bind ?_ fun _ => ih
    refine (writes_update fun d => follow_map fun a ha => ?_).bind fun _ =>
      (writes_update fun d => follow_map fun a ha => ?_).bind fun _ => (writes_update fun d => ?_).bind fun _ => trivial
    · rw [DB.look_operation (a.cancelled d.clock) ha rfl]
      exact ho a d.clock
    · rw [DB.look_host (a.terminated d.clock) ha rfl]
      exact hh a d.clock
    · exact follow_reservations (fun _ => rfl) fun r _ => hr r

theorem selectMarkable_nodup (d : DB) (g : String) (n : ℕ) : ((selectMarkable d g n).map Host.id).Nodup := by
  have hsort : (((d.hosts.rows.filter (markable d g)).insertionSort newestHostFirst).map Host.id).Perm
      ((d.hosts.rows.filter (markable d g)).map Host.id) := (List.perm_insertionSort _ _).map _
  have hfilter : ((d.hosts.rows.filter (markable d g)).map Host.id).Nodup :=
    d.hosts.nodup.sublist (List.filter_sublist.map _)
  exact (hsort.nodup_iff.mpr hfilter).sublist ((List.take_sublist _ _).map _)

theorem writes_markExcess (hm : ∀ h, G (some (.host h)) (.host h.marked)) (g : String) (n : ℕ) :
    (markExcess g n).Writes G := by
  refine (writes_update fun d => follow_of_nodup ?_ fun row hrow => ?_).bind fun _ => trivial
  · simpa [List.map_map, Function.comp_def, Row.key, Host.marked] using
      (selectMarkable_nodup d g n).map (f := Key.host) fun _ _ => Key.host.inj
  · simp only [List.map_map, List.mem_map, Function.comp_apply] at hrow
    obtain ⟨h, hh, rfl⟩ := hrow
    rw [look_eq, key_eq, DB.look_host h.marked (Table.find_mem (mem_selectMarkable hh).1) rfl]
    exact hm h

theorem writes_cancelPending (ho : ∀ o n, G (some (.operation o)) (.operation (o.cancelled n)))
    (hh : ∀ h n, G (some (.host h)) (.host (h.terminated n))) (hm : ∀ h, G (some (.host h)) (.host h.marked))
    (hr : ∀ r, G (some (.reservation r)) (.reservation { r with state := .released })) (g : String) (n : ℕ) :
    (cancelPending g n).Writes G :=
  (writes_selectForUpdate _ _).bind fun l => (writes_cancelIntents ho hh hr l).bind fun _ =>
    Writes.when (writes_markExcess hm _ _)

/-- the version an UPDATE of the target stores -/
theorem NodeGroup.setTarget_ok {g g' : NodeGroup} {target revision : ℤ} (h : g.setTarget target revision = .ok g') :
    g'.id = g.id ∧ g'.fixed = g.fixed ∧ g'.target = (target, revision) := by
  unfold NodeGroup.setTarget at h
  split_ifs at h
  obtain rfl := Except.ok.inj h
  exact ⟨rfl, rfl, rfl⟩

theorem writes_updateTarget {i : String}
    (h : ∀ g g' : NodeGroup, g'.id = i → g'.fixed = g.fixed → G (some (.nodeGroup g)) (.nodeGroup g'))
    (t : NodeGroup → ℤ) (revision : ℤ) : (updateTarget i t revision).Writes G := by
  refine writes_execute fun d rows hr => ?_
  split at hr
  · obtain rfl := Except.ok.inj hr
    trivial
  · rename_i g hg
    cases hs : g.setTarget (t g) revision with
    | error e => simp [hs, Bind.bind, Except.bind] at hr
    | ok g' =>
      simp only [hs, Bind.bind, Except.bind, Except.ok.injEq] at hr
      subst hr
      have hok := NodeGroup.setTarget_ok hs
      refine ⟨?_, trivial⟩
      rw [look_eq, key_eq, DB.look_nodeGroup _ hg hok.1]
      exact h g g' (hok.1.trans (Table.key_of_find hg)) hok.2.1

theorem writes_loadPolicy (id : String) : (loadPolicy id).Writes G :=
  (writes_selectForUpdate _ _).bind fun _ => writes_orFail _ _

theorem writes_loadPolicy_bind {id : String} {f : Policy → StoreTx α} (hf : ∀ p, p.group.id = id → (f p).Writes G) :
    ((loadPolicy id).bind f).Writes G := by
  intro d
  refine ⟨trivial, ?_⟩
  show (Tx.bind (orFail (policyOf d id) .noRows) f).Writes G
  cases hp : policyOf d id with
  | none => trivial
  | some p => exact hf p (policyOf_spec hp).id

theorem writes_insertRemoval {r : Removal} (h : G none (.removal r)) : (insertRemoval r).Writes G := by
  refine writes_execute fun d rows hr => ?_
  split_ifs at hr with hn
  obtain rfl := Except.ok.inj hr
  simp only [Bool.or_eq_true, not_or, Option.not_isSome_iff_eq_none] at hn
  exact ⟨by simpa [DB.look, Row.key, hn.1] using h, trivial⟩

theorem writes_insertRemovals {g : NodeGroup} {req : NodeRemovalRequest} {revision : ℤ} {deadline : ℕ}
    (ho : ∀ k u d, G none (.operation (removalOperation g k revision (.removal req) u d)))
    (hr : ∀ r, G none (.removal r)) (l : List (RemovalNode × String)) (u : Uuids) :
    (insertRemovals g req revision deadline u l).Writes G := by
  induction l generalizing u with
  | nil => trivial
  | cons x l ih =>
    exact (writes_insertOperation fun _ => ho _ _ _).bind fun _ => (writes_insertRemoval (hr _)).bind fun _ => ih _

theorem writes_checkNodes (g : String) (l : List RemovalNode) : (checkNodes g l).Writes G := by
  induction l with
  | nil => trivial
  | cons n l ih =>
    refine Writes.bind ?_ fun _ => ih.bind fun _ => trivial
    exact (writes_selectForUpdate _ _).bind fun _ => (writes_orFail _ _).bind fun _ => (writes_require _ _).bind fun _ =>
      (writes_require _ _).bind fun _ => (writes_select _).bind fun _ => (writes_require _ _).bind fun _ => trivial

theorem writes_claim {z : String} {k : OperationKind} {o : String} {d : Duration} {a : Bool} {l : String → Bool}
    (h : ∀ (r : OperationRow) d' o', G (some (.operation r)) (.operation (r.claimed d' o' d))) :
    (claim z k o d a l).Writes G := by
  refine (writes_require _ _).bind fun _ => (writes_updateReturning fun d' r x hw => ?_).bind fun _ => writes_orFail _ _
  obtain ⟨row, hrow, ho⟩ := Option.map_eq_some_iff.mp hw
  obtain ⟨rfl, -⟩ := Prod.mk.inj ho
  rw [look_eq, key_eq, DB.look_operation (row.claimed d' o d) (claimCandidate_spec hrow).1 rfl]
  exact h row d' o

end

/-! ## Calls -/

section
variable {x : Externals} {c : Call}

theorem follows_operation {o o' : OperationRow} (hk : RowKind.operation ∈ c.writes) (hi : o'.intent = o.intent) :
    Follows x c (some (.operation o)) (.operation o') :=
  ⟨hk, .inr ⟨o, rfl, hi⟩⟩

theorem follows_host {h h' : Host} (hk : RowKind.host ∈ c.writes) (hf : h.Follows c h') :
    Follows x c (some (.host h)) (.host h') :=
  ⟨hk, .inr ⟨h, rfl, hf⟩⟩

/-- an UPDATE that leaves the references and the version alone and does not make the host READY -/
theorem Host.follows_of_state {h h' : Host} (hr : h'.refs = h.refs) (hd : h'.desiredStateVersion = h.desiredStateVersion)
    (hs : h'.state = h.state ∨ h'.state ≠ .ready) : h.Follows c h' :=
  ⟨hr, fun he => .inl (hs.elim (fun e => e ▸ he) fun hn => absurd he hn), fun _ => .inl hd⟩

theorem follows_reservation {r r' : Reservation} (hk : RowKind.reservation ∈ c.writes) (hf : r.Follows r') :
    Follows x c (some (.reservation r)) (.reservation r') :=
  ⟨hk, .inr ⟨r, rfl, hf⟩⟩

theorem follows_provisioning {b b' : ProvisioningState} (hk : RowKind.provisioning ∈ c.writes) (hf : b.Extends b') :
    Follows x c (some (.provisioning b)) (.provisioning b') :=
  ⟨hk, .inr ⟨b, rfl, hf⟩⟩

theorem follows_nodeGroup {g g' : NodeGroup} (hk : RowKind.nodeGroup ∈ c.writes) (hf : g'.fixed = g.fixed)
    (ht : c.group ≠ some g'.id → g'.target = g.target) : Follows x c (some (.nodeGroup g)) (.nodeGroup g') :=
  ⟨hk, ⟨g, rfl, hf, ht⟩⟩

/-- a fenced UPDATE of the operation row that keeps its intent -/
theorem writes_fenced_operation {op : Operation} {p : DB → OperationRow → Bool} {f : DB → OperationRow → OperationRow}
    (hk : RowKind.operation ∈ c.writes) (hid : ∀ d o, (f d o).id = o.id) (hf : ∀ d o, (f d o).intent = o.intent) :
    (fencedUpdate fun d => (heldRow d op (p d)).map fun o => .operation (f d o)).Writes (Follows x c) := by
  refine writes_updateOne_map fun d o ho => ?_
  rw [DB.look_operation (f d o) (heldRow_eq_some.mp ho).1 (hid d o)]
  exact follows_operation hk (hf d o)

/-- a fenced UPDATE of the host row -/
theorem writes_fenced_host {op : Operation} {s : HostState} {f : DB → Host → Host} (hk : RowKind.host ∈ c.writes)
    (hid : ∀ d h, (f d h).id = h.id) (hf : ∀ (d : DB) (h : Host), h.state = s → h.Follows c (f d h)) :
    (fencedUpdate fun d => (heldHost d op s).map fun h => .host (f d h)).Writes (Follows x c) := by
  refine writes_updateOne_map fun d h hh => ?_
  obtain ⟨-, -, -, -, -, -, hfind, hs⟩ := heldHost_eq_some.mp hh
  rw [DB.look_host (f d h) hfind (hid d h)]
  exact follows_host hk (hf d h hs)

end

theorem writes_setTarget (x : Externals) (req : CapacityRequest) (u : Uuids) :
    (setTarget req u).Writes (Follows x (.setTarget req u)) := by
  refine (writes_require _ _).bind fun _ => writes_loadPolicy_bind fun p hp => (writes_require _ _).bind fun _ =>
    (writes_select _).bind fun prev => ?_
  cases prev with
  | some row => exact (writes_require _ _).bind fun _ => trivial
  | none =>
    refine (writes_require _ _).bind fun _ => (writes_require _ _).bind fun _ => (writes_require _ _).bind fun _ =>
      (writes_require _ _).bind fun _ => (writes_selectForUpdate _ _).bind fun _ => (writes_orFail _ _).bind fun _ =>
      (Writes.when ?_).bind fun _ => (Writes.when ?_).bind fun _ => (writes_execute fun d rows hr => ?_).bind fun _ =>
      (writes_updateTarget (fun g g' hi hg => ?_) _ _).bind fun _ => Writes.bind ?_ fun _ =>
      (Writes.when ?_).bind fun _ => trivial
    · exact (writes_require _ _).bind fun _ => (writes_select _).bind fun _ => writes_require _ _
    · exact (writes_select _).bind fun _ => writes_require _ _
    · split_ifs at hr with hn
      obtain rfl := Except.ok.inj hr
      simp only [Bool.or_eq_true, not_or, Option.not_isSome_iff_eq_none] at hn
      exact ⟨⟨by simp [Call.writes, Row.kind], by simp [DB.look, Row.key, hn.1], rfl, rfl⟩, trivial⟩
    · exact follows_nodeGroup (by simp [Call.writes]) hg (by simp [Call.group, hi])
    · exact writes_provisionIntents (fun _ _ => ⟨by simp [Call.writes, Row.kind], .inl ⟨rfl, rfl, rfl, rfl⟩⟩)
        (fun _ _ => ⟨by simp [Call.writes, Row.kind], .inl ⟨rfl, rfl⟩⟩)
        (fun _ => ⟨by simp [Call.writes, Row.kind], .inl ⟨rfl, rfl, rfl⟩⟩) _
    · exact writes_cancelPending (fun _ _ => follows_operation (by simp [Call.writes]) rfl)
        (fun h _ => follows_host (by simp [Call.writes]) (Host.follows_of_state rfl rfl (.inr (by simp [Host.terminated]))))
        (fun h => follows_host (by simp [Call.writes]) (Host.follows_of_state rfl rfl (.inl rfl)))
        (fun r => follows_reservation (by simp [Call.writes]) ⟨rfl, .inl rfl⟩) _ _

theorem writes_createAutoscalerRemovals (x : Externals) (c : String) (req : NodeRemovalRequest) (u : Uuids) (t : ℕ) :
    (createAutoscalerRemovals c req u t).Writes (Follows x (.createAutoscalerRemovals c req u t)) := by
  refine (writes_require _ _).bind fun _ => writes_loadPolicy_bind fun p hp => (writes_require _ _).bind fun _ =>
    (writes_select _).bind fun prev => ?_
  cases prev with
  | some row => exact writes_require _ _
  | none =>
    refine (writes_require _ _).bind fun _ => (writes_require _ _).bind fun _ => (writes_checkNodes _ _).bind fun _ =>
      (writes_updateTarget (fun g g' hi hg => ?_) _ _).bind fun _ =>
      writes_insertRemovals (fun k v d => ?_) (fun r => ?_) _ _
    · exact follows_nodeGroup (by simp [Call.writes]) hg (by simp [Call.group, hi])
    · exact ⟨by simp [Call.writes, Row.kind], .inl ⟨rfl, rfl, congrArg some hp, rfl⟩⟩
    · exact ⟨by simp [Call.writes, Row.kind], rfl⟩

theorem writes_createRemoval (x : Externals) (c : String) (e : ℤ) (r : NodeRemovalOperation) (u : Uuids) :
    (createRemoval c e r u).Writes (Follows x (.createRemoval c e r u)) := by
  refine (writes_require _ _).bind fun _ => (writes_require _ _).bind fun _ => writes_loadPolicy_bind fun p hp =>
    (writes_require _ _).bind fun _ => (writes_require _ _).bind fun _ => (writes_selectForUpdate _ _).bind fun _ =>
    (writes_orFail _ _).bind fun _ => (writes_require _ _).bind fun _ => (Writes.when ?_).bind fun _ =>
    (writes_insertOperation fun _ => ?_).bind fun _ => (writes_insertRemoval ?_).bind fun _ => trivial
  · refine (writes_require _ _).bind fun _ => writes_updateTarget (fun g g' hi hg => ?_) _ _
    exact follows_nodeGroup (by simp [Call.writes]) hg (by simp [Call.group, hi, hp])
  · exact ⟨by simp [Call.writes, Row.kind], .inl ⟨rfl, rfl, rfl⟩⟩
  · exact ⟨by simp [Call.writes, Row.kind], rfl⟩

theorem writes_updateNodeGroupScheduling (x : Externals) (id e r : String) (t : SchedulingTemplate) (l : Json) :
    (updateNodeGroupScheduling x id e r t l).Writes (Follows x (.updateNodeGroupScheduling id e r t l)) := by
  refine (writes_require _ _).bind fun _ => (writes_selectForUpdate _ _).bind fun _ => (writes_orFail _ _).bind fun _ =>
    (writes_require _ _).bind fun _ => (writes_require _ _).bind fun _ => ?_
  split_ifs
  · exact writes_require _ _
  · refine (writes_require _ _).bind fun _ => (writes_update fun d => follow_map fun g hg => ?_).bind fun _ => trivial
    rw [DB.look_nodeGroup { g with templateRevision := r, scheduling := t, launchParameters := l } hg rfl]
    exact follows_nodeGroup (by simp [Call.writes]) rfl fun _ => rfl

theorem writes_topologyUpdate (x : Externals) (t : TopologyUpdate) :
    (topologyUpdate t).Writes (Follows x (.topology t)) := by
  refine (writes_update fun d => ?_).bind fun _ => trivial
  cases t with
  | zone i e l =>
    refine follow_map fun z hz => ?_
    rw [DB.look_zone { z with enabled := e, lifecycle := l } hz rfl]
    exact ⟨by simp [Call.writes, Row.kind], ⟨z, rfl, rfl⟩⟩
  | cluster i e h l =>
    refine follow_map fun k hk => ?_
    rw [DB.look_cluster { k with apiServerEndpoint := e, caCertHash := h, lifecycle := l } hk rfl]
    exact ⟨by simp [Call.writes, Row.kind], ⟨k, rfl⟩⟩
  | nodeGroup i l =>
    refine follow_map fun g hg => ?_
    rw [DB.look_nodeGroup { g with lifecycle := l } hg rfl]
    exact follows_nodeGroup (by simp [Call.writes]) rfl fun _ => rfl
  | nodePool i e =>
    refine follow_map fun p hp => ?_
    rw [DB.look_nodePool { p with enabled := e } hp rfl]
    exact ⟨by simp [Call.writes, Row.kind], ⟨p, rfl, rfl⟩⟩
  | zoneDominator r => exact ⟨⟨by simp [Call.writes, Row.kind], trivial⟩, trivial⟩

theorem writes_recordLaunchWithAddress (x : Externals) (op : Operation) (p : String) (a : AddressText) (n : String) :
    (recordLaunchWithAddress op p a n).Writes (Follows x (.recordLaunchWithAddress op p a n)) := by
  refine (writes_require _ _).bind fun _ => Writes.bind ?_ fun _ => (writes_require _ _).bind fun _ =>
    (writes_updateOne_map fun d h hh => ?_).bind fun _ => (writes_update fun d => ?_).bind fun _ => trivial
  · exact writes_fenced_operation (by simp [Call.writes]) (fun _ _ => rfl) fun _ _ => rfl
  · simp only [launchedHost, Option.bind_eq_bind, Option.bind_eq_some_iff] at hh
    obtain ⟨k, hk, z, -, hl⟩ := hh
    have hspec := Host.launchedAs_spec hl
    have hstate : h.state = k.state ∨ h.state ≠ .ready := by
      rw [hspec.state]
      split_ifs
      · exact .inr (by simp)
      · exact .inl rfl
    rw [DB.look_host h hk hspec.id]
    exact follows_host (by simp [Call.writes]) (Host.follows_of_state hspec.refs hspec.desired hstate)
  · refine follow_reservations (fun _ => rfl) fun r hr => follows_reservation (by simp [Call.writes]) ⟨rfl, .inr ⟨rfl, ?_⟩⟩
    simp only [Bool.and_eq_true, decide_eq_true_eq] at hr
    exact hr.2

theorem ProvisioningState.Extends.refl (b : ProvisioningState) : b.Extends b := ⟨rfl, fun _ => id, id⟩

theorem writes_bindProvisionNode (x : Externals) (op : Operation) (n : NodeBinding) :
    (bindProvisionNode x.workerNodeName op n).Writes (Follows x (.bindProvisionNode op n)) := by
  unfold bindProvisionNode require
  split_ifs with hn
  · refine writes_execute fun d rows hr => ?_
    split at hr
    · simp at hr
    · simp at hr
    · rename_i b hb
      obtain rfl := Except.ok.inj hr
      obtain ⟨o, -, -, -, hbh, -, hbn, hold⟩ := bindRow_spec hb
      refine ⟨⟨by simp [Call.writes, Row.kind], ?_⟩, trivial⟩
      rcases hold with hold | ⟨hold, -⟩
      · rw [look_eq, key_eq, DB.look_provisioning b hold rfl]
        exact .inr ⟨b, rfl, .refl b⟩
      · refine .inl ⟨by simp [DB.look, Row.key, hbh, hold], ?_⟩
        rw [hbn, hn.1, hbh]
  · trivial

theorem writes_pinProvisionExpectedState (x : Externals) (op : Operation) (e : ExpectedHostState) :
    (pinProvisionExpectedState op e).Writes (Follows x (.pinProvisionExpectedState op e)) := by
  refine (writes_require _ _).bind fun _ => (writes_selectForUpdate _ _).bind fun _ => (writes_orFail _ _).bind fun _ =>
    (writes_updateReturning fun d r a hw => ?_).bind fun _ => (writes_orFail _ _).bind fun pinned =>
    (writes_require _ _).bind fun _ => (writes_update fun d => follow_map fun h hh => ?_).bind fun _ => trivial
  · obtain ⟨b, hb, he⟩ := Option.map_eq_some_iff.mp hw
    obtain ⟨rfl, -⟩ := Prod.mk.inj he
    rw [look_eq, key_eq, DB.look_provisioning { b with expectedState := some (b.expectedState.getD e) }
      (Option.filter_eq_some_iff.mp hb).1 rfl]
    refine follows_provisioning (by simp [Call.writes]) ⟨rfl, fun e' he' => ?_, id⟩
    simp [he']
  · rw [DB.look_host { h with desiredStateVersion := pinned.version } hh rfl]
    exact follows_host (by simp [Call.writes]) ⟨rfl, .inl, fun _ => .inr rfl⟩

theorem writes_prepareProvisionRelease (x : Externals) (op : Operation) (v : String) :
    (prepareProvisionRelease op v).Writes (Follows x (.prepareProvisionRelease op v)) := by
  refine writes_updateOne_map fun d b hb => ?_
  obtain ⟨o, k, -, -, -, -, -, hf, -⟩ := prepareRow_spec hb
  rw [DB.look_provisioning { b with releaseStarted := true } hf rfl]
  exact follows_provisioning (by simp [Call.writes]) ⟨rfl, fun _ => id, fun _ => rfl⟩

theorem writes_finalizeProvision (x : Externals) (op : Operation) (v : String) :
    (finalizeProvision op v).Writes (Follows x (.finalizeProvision op v)) := by
  refine (writes_selectForUpdate _ _).bind fun _ => (writes_orFail _ _).bind fun _ => (writes_external _).bind fun _ =>
    (writes_require _ _).bind fun _ => (writes_updateOne_map fun d h hh => ?_).bind fun _ =>
    writes_updateOne_map fun d o ho => ?_
  · obtain ⟨-, -, -, -, hf, -⟩ := finalHost_spec hh
    rw [DB.look_host { h with state := .ready, observedStateVersion := h.desiredStateVersion, updatedAt := d.clock } hf
      rfl]
    exact follows_host (by simp [Call.writes]) ⟨rfl, fun _ => .inr rfl, fun _ => .inl rfl⟩
  · rw [DB.look_operation { o with state := .succeeded, lease := none, updatedAt := d.clock }
      (Option.filter_eq_some_iff.mp ho).1 rfl]
    exact follows_operation (by simp [Call.writes]) rfl

theorem writes_completeProvision (x : Externals) (op : Operation) :
    (completeProvision op).Writes (Follows x (.completeProvision op)) := by
  refine writes_updateOne_map fun d o ho => ?_
  have hf := (launchingRow_eq_some.mp (Option.filter_eq_some_iff.mp ho).1).1
  rw [DB.look_operation { o with state := .succeeded, lease := none, updatedAt := d.clock } hf rfl]
  exact follows_operation (by simp [Call.writes]) rfl

/-- **A call writes only the tables listed for it, and only versions that may follow what they replace.** -/
theorem code_writes (x : Externals) (c : Call) : (code x c).Writes (Follows x c) := by
  cases c with
  | setTarget req u => exact (writes_setTarget x req u).bind fun _ => trivial
  | createAutoscalerRemovals c req u t => exact (writes_createAutoscalerRemovals x c req u t).bind fun _ => trivial
  | createRemoval c e r u => exact (writes_createRemoval x c e r u).bind fun _ => trivial
  | updateNodeGroupScheduling id e r t l => exact (writes_updateNodeGroupScheduling x id e r t l).bind fun _ => trivial
  | updateClusterZone m =>
    refine ((writes_require _ _).bind fun _ => (writes_update fun d => follow_map fun k hk => ?_).bind fun _ =>
      writes_require _ _).bind fun _ => trivial
    rw [DB.look_clusterZone { k with lifecycle := m.lifecycle, access := m.access } hk rfl]
    exact ⟨by simp [Call.writes, Row.kind], ⟨k, rfl⟩⟩
  | topology t => exact (writes_topologyUpdate x t).bind fun _ => trivial
  | claimBootstrap z k o d l =>
    refine ((writes_require _ _).bind fun _ => writes_claim fun r d' o' => ?_).bind fun _ => trivial
    exact follows_operation (by simp [Call.writes]) rfl
  | claimDominator z k o d l =>
    refine ((writes_require _ _).bind fun _ => writes_claim fun r d' o' => ?_).bind fun _ => trivial
    exact follows_operation (by simp [Call.writes]) rfl
  | renew op d =>
    refine ((writes_require _ _).bind fun _ => ?_).bind fun _ => trivial
    exact writes_fenced_operation (by simp [Call.writes]) (fun _ _ => rfl) fun _ _ => rfl
  | beginLaunch op =>
    refine Writes.bind ?_ fun _ => trivial
    exact writes_fenced_operation (by simp [Call.writes]) (fun _ _ => rfl) fun _ _ => rfl
  | recordLaunchWithAddress op p a n => exact (writes_recordLaunchWithAddress x op p a n).bind fun _ => trivial
  | setProvisionDesiredVersion op v =>
    refine ((writes_require _ _).bind fun _ => ?_).bind fun _ => trivial
    refine writes_fenced_host (by simp [Call.writes]) (fun _ _ => rfl) fun d h hs => ⟨rfl, .inl, fun hr => ?_⟩
    simp [hs] at hr
  | setProvisionState op e n =>
    refine Writes.bind ?_ fun _ => trivial
    unfold setProvisionState require
    split_ifs with hn
    · refine writes_fenced_host (by simp [Call.writes]) (fun _ _ => rfl) fun d h hs => ?_
      have hne : n ≠ .ready := by
        rintro rfl
        cases e <;> simp [HostState.handoff] at hn
      exact Host.follows_of_state rfl rfl (.inr hne)
    · trivial
  | bindProvisionNode op n => exact (writes_bindProvisionNode x op n).bind fun _ => trivial
  | pinProvisionExpectedState op e => exact (writes_pinProvisionExpectedState x op e).bind fun _ => trivial
  | prepareProvisionRelease op v => exact (writes_prepareProvisionRelease x op v).bind fun _ => trivial
  | finalizeProvision op v => exact (writes_finalizeProvision x op v).bind fun _ => trivial
  | completeProvision op => exact (writes_completeProvision x op).bind fun _ => trivial
  | recordProvisionFailure op c =>
    refine ((writes_require _ _).bind fun _ => ?_).bind fun _ => trivial
    exact writes_fenced_operation (by simp [Call.writes]) (fun _ _ => rfl) fun _ _ => rfl
  | releaseProvisionLease op =>
    refine Writes.bind ?_ fun _ => trivial
    exact writes_fenced_operation (by simp [Call.writes]) (fun _ _ => rfl) fun _ _ => rfl

/-- what storing rows of the tables a call writes keeps, the call keeps -/
theorem code_keeps {x : Externals} {ans : Operation → Bool} {c : Call} {d : DB} {y : Reply × DB} {I : DB → Prop}
    (h : (code x c).run ans d = .ok y) (hput : ∀ r d, r.kind ∈ c.writes → I d → I (d.put r)) (hd : I d) : I y.2 :=
  (code_writes x c).run_keeps (fun r d hr hd => hput r d hr.kind hd) h hd

end Crane.Capacity
