/-
The files of the host agent: how `savedState` and `clusterJoinState` are written as JSON (`state.go`, `pkg/api`) and what
`NewServer` makes of them.

The request bodies of a run are JSON documents, decoded as the handlers do. Every state that a handler writes is a
normalized, checked request with the digest of its own encoding (`Storable`), and every contract is a checked one with its
fingerprint (`JoinStorable`). Decoding what was encoded gives it back, field by field. All maps and slices of these
records have the option omitempty and are only read and iterated, so a nil one is an empty one.
-/
import Crane.Lib.Codec
import Crane.Subd.Server

namespace Crane.Subd

open Codec Sequences

/-! ## Encodings -/

section Encodings
variable (strict : Bool)

def packageChange : Codec HostPackageChange := record strict [
  field "name" HostPackageChange.name (fun v p => { p with name := v }) text,
  field "action" HostPackageChange.action (fun v p => { p with action := v }) text]

def kubernetesSecret : Codec SecretSpec := record strict [
  field "namespace" SecretSpec.namespaceName (fun v s => { s with namespaceName := v }) text,
  field "name" SecretSpec.name (fun v s => { s with name := v }) text,
  omitempty "type" SecretSpec.type (fun v s => { s with type := v }) text (· = ""),
  omitempty "data" SecretSpec.data (fun v s => { s with data := v }) (mapping none bytes) List.isEmpty,
  omitempty "stringData" SecretSpec.stringData (fun v s => { s with stringData := v }) (mapping "" text) List.isEmpty,
  omitempty "rollout_deployment" SecretSpec.rolloutDeployment (fun v s => { s with rolloutDeployment := v }) text (· = "")]

def expectedHostState : Codec HostStateUpdate := record strict [
  field "revision" HostStateUpdate.revision (fun v u => { u with revision := v }) uint64,
  omitempty "image_id" HostStateUpdate.imageId (fun v u => { u with imageId := v }) text (· = ""),
  omitempty "track" HostStateUpdate.track (fun v u => { u with track := v }) text (· = ""),
  omitempty "version" HostStateUpdate.version (fun v u => { u with version := v }) text (· = ""),
  omitempty "services" HostStateUpdate.services (fun v u => { u with services := v }) (mapping false flag) List.isEmpty,
  omitempty "packages" HostStateUpdate.packages (fun v u => { u with packages := v })
    (slice ⟨"", ""⟩ (packageChange strict)) List.isEmpty,
  omitempty "secret" HostStateUpdate.secret (fun v u => { u with secret := v })
    (pointer ⟨"", "", "", [], [], ""⟩ (kubernetesSecret strict)) Option.isNone]

def schedulingTaint : Codec SchedulingTaint := record strict [
  field "key" SchedulingTaint.key (fun v t => { t with key := v }) text,
  field "value" SchedulingTaint.value (fun v t => { t with value := v }) text,
  field "effect" SchedulingTaint.effect (fun v t => { t with effect := v }) text]

def schedulingTemplate : Codec SchedulingTemplate := record strict [
  field "instance_type" SchedulingTemplate.instanceType (fun v t => { t with instanceType := v }) text,
  field "architecture" SchedulingTemplate.architecture (fun v t => { t with architecture := v }) text,
  field "region" SchedulingTemplate.region (fun v t => { t with region := v }) text,
  field "zone" SchedulingTemplate.zone (fun v t => { t with zone := v }) text,
  omitempty "labels" SchedulingTemplate.labels (fun v t => { t with labels := v }) (mapping "" text) List.isEmpty,
  omitempty "taints" SchedulingTemplate.taints (fun v t => { t with taints := v })
    (slice ⟨"", "", ""⟩ (schedulingTaint strict)) List.isEmpty]

def workerRegistration : Codec WorkerRegistration := record strict [
  field "cluster_id" WorkerRegistration.clusterId (fun v r => { r with clusterId := v }) text,
  field "host_id" WorkerRegistration.hostId (fun v r => { r with hostId := v }) text,
  field "node_group_id" WorkerRegistration.nodeGroupId (fun v r => { r with nodeGroupId := v }) text,
  field "node_pool_id" WorkerRegistration.nodePoolId (fun v r => { r with nodePoolId := v }) text,
  field "template_revision" WorkerRegistration.templateRevision (fun v r => { r with templateRevision := v }) text,
  field "node_name" WorkerRegistration.nodeName (fun v r => { r with nodeName := v }) text,
  field "provider_id" WorkerRegistration.providerId (fun v r => { r with providerId := v }) text,
  field "scheduling" WorkerRegistration.scheduling (fun v r => { r with scheduling := v }) (schedulingTemplate strict)]

def clusterJoinRequest : Codec ClusterJoinRequest := record strict [
  field "registration" ClusterJoinRequest.registration (fun v r => { r with registration := v }) (workerRegistration strict),
  field "fence" ClusterJoinRequest.fence (fun v r => { r with fence := v }) int64,
  field "operation_id" ClusterJoinRequest.operationId (fun v r => { r with operationId := v }) text,
  field "api_server_endpoint" ClusterJoinRequest.apiServerEndpoint (fun v r => { r with apiServerEndpoint := v }) text,
  field "token" ClusterJoinRequest.token (fun v r => { r with token := v }) text,
  field "ca_cert_hash" ClusterJoinRequest.caCertHash (fun v r => { r with caCertHash := v }) text]

end Encodings

/-- api.KubernetesResult with its texts -/
structure ResultRecord where
  secret : String := ""
  rollout : String := ""
deriving DecidableEq, Repr

/-- savedState with its texts -/
structure SavedRecord where
  request : HostStateUpdate := { revision := 0 }
  digest : String := ""
  appliedRevision : ℕ := 0
  outcome : String := ""
  kubernetes : Option ResultRecord := none
deriving DecidableEq, Repr

/-- clusterJoinState with its texts -/
structure JoinRecord where
  operationId : String := ""
  endpoint : String := ""
  caCertHash : String := ""
  outcome : String := ""
  contractHash : String := ""
  registration : WorkerRegistration := ⟨"", "", "", "", "", "", "", {}⟩
  fence : ℤ := 0
deriving DecidableEq, Repr

def kubernetesResult : Codec ResultRecord := record false [
  field "secret" ResultRecord.secret (fun v r => { r with secret := v }) text,
  field "rollout" ResultRecord.rollout (fun v r => { r with rollout := v }) text]

def savedState : Codec SavedRecord := record false [
  field "request" SavedRecord.request (fun v s => { s with request := v }) (expectedHostState false),
  field "digest" SavedRecord.digest (fun v s => { s with digest := v }) text,
  field "applied_revision" SavedRecord.appliedRevision (fun v s => { s with appliedRevision := v }) uint64,
  field "outcome" SavedRecord.outcome (fun v s => { s with outcome := v }) text,
  omitempty "kubernetes" SavedRecord.kubernetes (fun v s => { s with kubernetes := v }) (pointer {} kubernetesResult)
    Option.isNone]

def clusterJoinState : Codec JoinRecord := record false [
  field "operation_id" JoinRecord.operationId (fun v j => { j with operationId := v }) text,
  field "api_server_endpoint" JoinRecord.endpoint (fun v j => { j with endpoint := v }) text,
  field "ca_cert_hash" JoinRecord.caCertHash (fun v j => { j with caCertHash := v }) text,
  field "outcome" JoinRecord.outcome (fun v j => { j with outcome := v }) text,
  field "contract_hash" JoinRecord.contractHash (fun v j => { j with contractHash := v }) text,
  field "registration" JoinRecord.registration (fun v j => { j with registration := v }) (workerRegistration false),
  field "fence" JoinRecord.fence (fun v j => { j with fence := v }) int64]

/-! ## Decoded requests -/

/-- a Secret whose maps are maps -/
structure SecretWf (s : SecretSpec) : Prop where
  data : Sorted s.data
  stringData : Sorted s.stringData

/-- a state that can be decoded -/
structure UpdateWf (u : HostStateUpdate) : Prop where
  revision : u.revision < 18446744073709551616
  services : Sorted u.services
  secret : ∀ s ∈ u.secret, SecretWf s

structure TemplateWf (t : SchedulingTemplate) : Prop where
  labels : Sorted t.labels

structure RegistrationWf (r : WorkerRegistration) : Prop where
  scheduling : TemplateWf r.scheduling

structure JoinWf (r : ClusterJoinRequest) : Prop where
  fence : r.fence < 9223372036854775808
  registration : RegistrationWf r.registration

section Decoding
variable {strict : Bool} {j : Json}

theorem kubernetesSecret_wf {old s : SecretSpec} (hold : SecretWf old)
    (h : (kubernetesSecret strict).into old j = some s) : SecretWf s := by
  refine record_keeps ?_ hold h
  simp only [List.forall_mem_cons, List.not_mem_nil, false_implies, implies_true, and_true]
  refine ⟨?_, ?_, ?_, ?_, ?_, ?_⟩
  · exact fun _ _ _ ha => field_keeps (fun _ _ _ h _ => ⟨h.data, h.stringData⟩) ha
  · exact fun _ _ _ ha => field_keeps (fun _ _ _ h _ => ⟨h.data, h.stringData⟩) ha
  · exact fun _ _ _ ha => omitempty_keeps (fun _ _ _ h _ => ⟨h.data, h.stringData⟩) ha
  · exact fun _ _ _ ha => omitempty_keeps (fun _ _ _ h hv => ⟨mapping_sorted h.data hv, h.stringData⟩) ha
  · exact fun _ _ _ ha => omitempty_keeps (fun _ _ _ h hv => ⟨h.data, mapping_sorted h.stringData hv⟩) ha
  · exact fun _ _ _ ha => omitempty_keeps (fun _ _ _ h _ => ⟨h.data, h.stringData⟩) ha

theorem expectedHostState_wf {old u : HostStateUpdate} (hold : UpdateWf old)
    (h : (expectedHostState strict).into old j = some u) : UpdateWf u := by
  refine record_keeps ?_ hold h
  simp only [List.forall_mem_cons, List.not_mem_nil, false_implies, implies_true, and_true]
  refine ⟨?_, ?_, ?_, ?_, ?_, ?_, ?_⟩
  · exact fun _ _ _ ha => field_keeps (fun _ _ _ h hv => ⟨uint64_lt hv h.revision, h.services, h.secret⟩) ha
  · exact fun _ _ _ ha => omitempty_keeps (fun _ _ _ h _ => ⟨h.revision, h.services, h.secret⟩) ha
  · exact fun _ _ _ ha => omitempty_keeps (fun _ _ _ h _ => ⟨h.revision, h.services, h.secret⟩) ha
  · exact fun _ _ _ ha => omitempty_keeps (fun _ _ _ h _ => ⟨h.revision, h.services, h.secret⟩) ha
  · exact fun _ _ _ ha =>
      omitempty_keeps (fun _ _ _ h hv => ⟨h.revision, mapping_sorted h.services hv, h.secret⟩) ha
  · exact fun _ _ _ ha => omitempty_keeps (fun _ _ _ h _ => ⟨h.revision, h.services, h.secret⟩) ha
  · exact fun _ _ _ ha => omitempty_keeps (fun _ _ _ h hv => ⟨h.revision, h.services,
      pointer_keeps ⟨.nil, .nil⟩ (fun _ _ _ => kubernetesSecret_wf) h.secret hv⟩) ha

theorem schedulingTemplate_wf {old t : SchedulingTemplate} (hold : TemplateWf old)
    (h : (schedulingTemplate strict).into old j = some t) : TemplateWf t := by
  refine record_keeps ?_ hold h
  simp only [List.forall_mem_cons, List.not_mem_nil, false_implies, implies_true, and_true]
  refine ⟨?_, ?_, ?_, ?_, ?_, ?_⟩
  · exact fun _ _ _ ha => field_keeps (fun _ _ _ h _ => ⟨h.labels⟩) ha
  · exact fun _ _ _ ha => field_keeps (fun _ _ _ h _ => ⟨h.labels⟩) ha
  · exact fun _ _ _ ha => field_keeps (fun _ _ _ h _ => ⟨h.labels⟩) ha
  · exact fun _ _ _ ha => field_keeps (fun _ _ _ h _ => ⟨h.labels⟩) ha
  · exact fun _ _ _ ha => omitempty_keeps (fun _ _ _ h hv => ⟨mapping_sorted h.labels hv⟩) ha
  · exact fun _ _ _ ha => omitempty_keeps (fun _ _ _ h _ => ⟨h.labels⟩) ha

theorem workerRegistration_wf {old r : WorkerRegistration} (hold : RegistrationWf old)
    (h : (workerRegistration strict).into old j = some r) : RegistrationWf r := by
  refine record_keeps ?_ hold h
  simp only [List.forall_mem_cons, List.not_mem_nil, false_implies, implies_true, and_true]
  refine ⟨?_, ?_, ?_, ?_, ?_, ?_, ?_, ?_⟩
  · exact fun _ _ _ ha => field_keeps (fun _ _ _ h _ => ⟨h.scheduling⟩) ha
  · exact fun _ _ _ ha => field_keeps (fun _ _ _ h _ => ⟨h.scheduling⟩) ha
  · exact fun _ _ _ ha => field_keeps (fun _ _ _ h _ => ⟨h.scheduling⟩) ha
  · exact fun _ _ _ ha => field_keeps (fun _ _ _ h _ => ⟨h.scheduling⟩) ha
  · exact fun _ _ _ ha => field_keeps (fun _ _ _ h _ => ⟨h.scheduling⟩) ha
  · exact fun _ _ _ ha => field_keeps (fun _ _ _ h _ => ⟨h.scheduling⟩) ha
  · exact fun _ _ _ ha => field_keeps (fun _ _ _ h _ => ⟨h.scheduling⟩) ha
  · exact fun _ _ _ ha => field_keeps (fun _ _ _ h hv => ⟨schedulingTemplate_wf h.scheduling hv⟩) ha

theorem clusterJoinRequest_wf {old r : ClusterJoinRequest} (hold : JoinWf old)
    (h : (clusterJoinRequest strict).into old j = some r) : JoinWf r := by
  refine record_keeps ?_ hold h
  simp only [List.forall_mem_cons, List.not_mem_nil, false_implies, implies_true, and_true]
  refine ⟨?_, ?_, ?_, ?_, ?_, ?_⟩
  · exact fun _ _ _ ha => field_keeps (fun _ _ _ h hv => ⟨h.fence, workerRegistration_wf h.registration hv⟩) ha
  · exact fun _ _ _ ha => field_keeps (fun _ _ _ h hv => ⟨int64_lt hv h.fence, h.registration⟩) ha
  · exact fun _ _ _ ha => field_keeps (fun _ _ _ h _ => ⟨h.fence, h.registration⟩) ha
  · exact fun _ _ _ ha => field_keeps (fun _ _ _ h _ => ⟨h.fence, h.registration⟩) ha
  · exact fun _ _ _ ha => field_keeps (fun _ _ _ h _ => ⟨h.fence, h.registration⟩) ha
  · exact fun _ _ _ ha => field_keeps (fun _ _ _ h _ => ⟨h.fence, h.registration⟩) ha

theorem zero_wf : UpdateWf { revision := 0 } := ⟨show 0 < _ by decide, List.Pairwise.nil, fun _ hs => by cases hs⟩

theorem zeroJoin_wf : JoinWf ⟨⟨"", "", "", "", "", "", "", {}⟩, 0, "", "", "", ""⟩ :=
  ⟨show (0 : ℤ) < _ by decide, ⟨⟨List.Pairwise.nil⟩⟩⟩

end Decoding

/-! ## Round trips -/

section RoundTrips
variable (strict : Bool)

theorem packageChange_returns (p : HostPackageChange) : (packageChange strict).Returns ⟨"", ""⟩ p :=
  record_returns (by decide) ⟨_, field_copies (text_returns _ _), _, field_copies (text_returns _ _), rfl⟩

theorem kubernetesSecret_returns {s : SecretSpec} (h : SecretWf s) :
    (kubernetesSecret strict).Returns ⟨"", "", "", [], [], ""⟩ s :=
  record_returns (by decide) ⟨_, field_copies (text_returns _ _), _, field_copies (text_returns _ _),
    _, omitempty_copies rfl of_decide_eq_true (text_returns _ _),
    _, omitempty_copies rfl List.isEmpty_iff.mp (mapping_returns h.data fun _ _ => bytes_returns _ _),
    _, omitempty_copies rfl List.isEmpty_iff.mp (mapping_returns h.stringData fun _ _ => text_returns _ _),
    _, omitempty_copies rfl of_decide_eq_true (text_returns _ _), rfl⟩

theorem expectedHostState_returns {u : HostStateUpdate} (h : UpdateWf u) :
    (expectedHostState strict).Returns { revision := 0 } u :=
  record_returns (by cases strict <;> decide) ⟨_, field_copies (uint64_returns _ h.revision),
    _, omitempty_copies rfl of_decide_eq_true (text_returns _ _),
    _, omitempty_copies rfl of_decide_eq_true (text_returns _ _),
    _, omitempty_copies rfl of_decide_eq_true (text_returns _ _),
    _, omitempty_copies rfl List.isEmpty_iff.mp (mapping_returns h.services fun _ _ => flag_returns _ _),
    _, omitempty_copies rfl List.isEmpty_iff.mp (slice_returns _ fun p _ => packageChange_returns strict p),
    _, omitempty_copies rfl Option.isNone_iff_eq_none.mp (pointer_returns fun s hs =>
      ⟨kubernetesSecret_returns strict (h.secret s hs), record_enc_ne_null⟩), rfl⟩

theorem schedulingTaint_returns (t : SchedulingTaint) : (schedulingTaint strict).Returns ⟨"", "", ""⟩ t :=
  record_returns (by decide) ⟨_, field_copies (text_returns _ _), _, field_copies (text_returns _ _),
    _, field_copies (text_returns _ _), rfl⟩

theorem schedulingTemplate_returns {t : SchedulingTemplate} (h : TemplateWf t) : (schedulingTemplate strict).Returns {} t :=
  record_returns (by cases strict <;> decide) ⟨_, field_copies (text_returns _ _), _, field_copies (text_returns _ _),
    _, field_copies (text_returns _ _), _, field_copies (text_returns _ _),
    _, omitempty_copies rfl List.isEmpty_iff.mp (mapping_returns h.labels fun _ _ => text_returns _ _),
    _, omitempty_copies rfl List.isEmpty_iff.mp (slice_returns _ fun t _ => schedulingTaint_returns strict t), rfl⟩

theorem workerRegistration_returns {r : WorkerRegistration} (h : RegistrationWf r) :
    (workerRegistration strict).Returns ⟨"", "", "", "", "", "", "", {}⟩ r :=
  record_returns (by cases strict <;> decide) ⟨_, field_copies (text_returns _ _), _, field_copies (text_returns _ _),
    _, field_copies (text_returns _ _), _, field_copies (text_returns _ _), _, field_copies (text_returns _ _),
    _, field_copies (text_returns _ _), _, field_copies (text_returns _ _),
    _, field_copies (schedulingTemplate_returns strict h.scheduling), rfl⟩

theorem kubernetesResult_returns (r : ResultRecord) : kubernetesResult.Returns {} r :=
  record_returns (by decide) ⟨_, field_copies (text_returns _ _), _, field_copies (text_returns _ _), rfl⟩

theorem savedState_returns {s : SavedRecord} (h : UpdateWf s.request) (ha : s.appliedRevision < 18446744073709551616) :
    savedState.Returns {} s :=
  record_returns (by decide) ⟨_, field_copies (expectedHostState_returns false h), _, field_copies (text_returns _ _),
    _, field_copies (uint64_returns _ ha), _, field_copies (text_returns _ _),
    _, omitempty_copies rfl Option.isNone_iff_eq_none.mp (pointer_returns fun r _ =>
      ⟨kubernetesResult_returns r, record_enc_ne_null⟩), rfl⟩

theorem clusterJoinState_returns {j : JoinRecord} (h : RegistrationWf j.registration) (hpos : 0 ≤ j.fence)
    (hf : j.fence < 9223372036854775808) : clusterJoinState.Returns {} j :=
  record_returns (by decide) ⟨_, field_copies (text_returns _ _), _, field_copies (text_returns _ _),
    _, field_copies (text_returns _ _), _, field_copies (text_returns _ _), _, field_copies (text_returns _ _),
    _, field_copies (workerRegistration_returns false h), _, field_copies (int64_returns _ hpos hf), rfl⟩

end RoundTrips

/-! ## Normalized requests -/

/-- one map of data and stringData is a map -/
theorem merged_sorted {s : SecretSpec} (h : SecretWf s)
    (hdisj : s.stringData.all (fun m => s.data.all fun n => n.1 ≠ m.1) = true) : Sorted s.merged := by
  have hkeys : ((s.data ++ s.stringData.map textBytes).map Prod.fst).Nodup := by
    rw [List.map_append, List.map_map, List.nodup_append]
    refine ⟨List.pairwise_map.mpr (h.data.imp fun hlt => hlt.ne),
      List.pairwise_map.mpr (h.stringData.imp fun hlt => hlt.ne), fun a ha b hb => ?_⟩
    obtain ⟨n, hn, rfl⟩ := List.mem_map.mp ha
    obtain ⟨m, hm, rfl⟩ := List.mem_map.mp hb
    exact of_decide_eq_true (List.all_eq_true.mp (List.all_eq_true.mp hdisj m hm) n hn)
  have hnodup : (s.merged.map Prod.fst).Nodup := ((List.mergeSort_perm _ _).map Prod.fst).nodup_iff.mpr hkeys
  have hle : s.merged.Pairwise fun a b => byKey a b = true := by
    refine List.pairwise_mergeSort (fun a b c hab hbc => ?_) (fun a b => ?_) _
    · simp only [byKey, decide_eq_true_eq] at *
      exact String.le_trans hab hbc
    · simpa [byKey] using String.le_total a.1 b.1
  exact hle.imp₂ (fun a b hab hne => lt_of_le_of_ne (of_decide_eq_true hab) hne) (List.pairwise_map.mp hnodup)

theorem accepted_wf {u : HostStateUpdate} {e : ExpectedHostState} (hu : UpdateWf u) (h : u.accepted = some e) :
    UpdateWf (update e) := by
  unfold HostStateUpdate.accepted at h
  split_ifs at h with hv
  obtain rfl := Option.some.inj h
  refine ⟨hu.revision, hu.services, fun spec hspec => ?_⟩
  obtain ⟨n, hn, rfl⟩ := Option.map_eq_some_iff.mp hspec
  obtain ⟨s, hs, hnorm⟩ := Option.bind_eq_some_iff.mp hn
  unfold SecretSpec.normalize at hnorm
  split_ifs at hnorm with hacc
  obtain rfl := Option.some.inj hnorm
  simp only [SecretSpec.accepted, Bool.and_eq_true] at hacc
  exact ⟨merged_sorted (hu.secret s hs) hacc.1.1.2, .nil⟩

/-! ## Files -/

def Outcome.text : Outcome → String
  | .unconfigured => "unconfigured"
  | .applying => "applying"
  | .applied => "applied"
  | .failed => "failed"
  | .interrupted => "interrupted"

def SecretState.text : SecretState → String
  | .pending => "pending"
  | .verified => "verified"
  | .failed => "failed"

def RolloutState.text : RolloutState → String
  | .notRequested => "not_requested"
  | .pending => "pending"
  | .ready => "ready"
  | .failed => "failed"

/-- SHA-256 in hexadecimal digits: the digests of the surroundings are those of the encoded documents -/
structure Hashing {H : Type} (x : Env H) where
  hash : Json → String
  hash_size : ∀ j, (hash j).utf8ByteSize = 64
  text : H → String
  digest : ∀ e, text (x.digest e) = hash ((expectedHostState false).enc (update e))
  contract : ∀ endpoint ca registration, text (x.contract endpoint ca registration) =
    hash (.obj [("Endpoint", .str endpoint), ("CA", .str ca), ("Registration", (workerRegistration false).enc registration)])
  endpoint : x.validEndpoint "" = false

section Files
variable {H : Type} {x : Env H} (m : Hashing x)

def Hashing.digestOf (u : HostStateUpdate) : String := m.hash ((expectedHostState false).enc u)

/-- JoinFingerprint of the contract in a join file -/
def Hashing.fingerprintOf (j : JoinRecord) : String :=
  m.hash (.obj [("Endpoint", .str j.endpoint), ("CA", .str j.caCertHash),
    ("Registration", (workerRegistration false).enc j.registration)])

def SavedState.record (s : SavedState H) : SavedRecord where
  request := update s.request
  digest := (s.digest.map m.text).getD ""
  appliedRevision := s.appliedRevision
  outcome := s.outcome.text
  kubernetes := s.kubernetes.map fun k => ⟨k.secret.text, k.rollout.text⟩

def ClusterJoinState.record (j : ClusterJoinState H) : JoinRecord where
  operationId := j.operationId
  endpoint := j.endpoint
  caCertHash := j.caCertHash
  outcome := j.outcome.text
  contractHash := m.text j.contractHash
  registration := j.registration
  fence := j.fence

/-- the switch of NewServer over the stored outcome -/
def resumed : String → Option String
  | "applying" => some "interrupted"
  | "applied" => some "applied"
  | "failed" => some "failed"
  | "interrupted" => some "interrupted"
  | _ => none

/-- the state file in NewServer -/
def loadStateFile (j : Json) : Option SavedRecord := do
  let s ← savedState.into {} j
  if validateExpected s.request ∧ m.digestOf s.request = s.digest ∧ s.appliedRevision ≤ s.request.revision then
    return { s with outcome := ← resumed s.outcome }
  else none

/-- validateJoinState of what a file holds -/
def JoinRecord.validate (j : JoinRecord) : Bool :=
  j.registration.validate x.workerNodeName && j.contractHash.utf8ByteSize = 64 && 0 < j.fence &&
    joinOperation j.operationId && j.endpoint ≠ "" && joinCAHash j.caCertHash

/-- the join file in NewServer -/
def loadJoinFile (x : Env H) (j : Json) : Option JoinRecord := do
  let s ← clusterJoinState.into {} j
  if s.validate (x := x) then
    return { s with outcome := ← resumed s.outcome }
  else none

/-- NewServer with the files it finds -/
def newServerFiles (state join : Option Json) : Option (SavedRecord × Option JoinRecord) := do
  let saved ← match state with
    | none => some { outcome := "unconfigured" }
    | some j => loadStateFile m j
  let join ← match join with
    | none => some none
    | some j => (loadJoinFile x j).map some
  return (saved, join)

end Files

/-! ## What is stored -/

section Storable
variable {H : Type} (x : Env H)

structure Storable (s : SavedState H) : Prop where
  wf : UpdateWf (update s.request)
  valid : (update s.request).accepted = some s.request
  digest : s.digest = some (x.digest s.request)
  applied : s.appliedRevision ≤ s.request.revision
  outcome : s.outcome ≠ .unconfigured

structure JoinStorable (j : ClusterJoinState H) : Prop where
  wf : RegistrationWf j.registration
  valid : validateJoinState x j = true
  fence : j.fence < 9223372036854775808
  contract : j.contractHash = x.contract j.endpoint j.caCertHash j.registration

variable {x}

theorem resumed_text {o : Outcome} (h : o ≠ .unconfigured) : resumed o.text = some o.resumed.text := by
  cases o <;> first | exact absurd rfl h | rfl

theorem accepted_valid {u : HostStateUpdate} {e : ExpectedHostState} (h : u.accepted = some e) :
    validateExpected u = true := by
  unfold HostStateUpdate.accepted at h
  split_ifs at h with hv
  exact hv

section Loads
variable {m : Hashing x} {s : SavedState H} {j : ClusterJoinState H}

theorem Storable.decodes (h : Storable x s) : savedState.Returns {} (s.record m) :=
  savedState_returns h.wf (lt_of_le_of_lt h.applied h.wf.revision)

theorem Storable.rehash (h : Storable x s) : m.digestOf (s.record m).request = (s.record m).digest := by
  simp [SavedState.record, h.digest, Hashing.digestOf, m.digest]

/-- a stored state is loaded as it was written, but for what was in progress -/
theorem Storable.loads (h : Storable x s) :
    loadStateFile m (savedState.enc (s.record m)) = some ({ s with outcome := s.outcome.resumed }.record m) := by
  unfold loadStateFile
  rw [show savedState.into {} (savedState.enc (s.record m)) = _ from h.decodes]
  simp only [Option.bind_eq_bind, Option.bind_some]
  rw [if_pos ⟨accepted_valid h.valid, h.rehash, h.applied⟩, show (s.record m).outcome = s.outcome.text from rfl,
    resumed_text h.outcome]
  rfl

theorem JoinStorable.positive (h : JoinStorable x j) : 0 < j.fence := by
  have hv := h.valid
  simp only [validateJoinState, Bool.and_eq_true, decide_eq_true_eq] at hv
  exact hv.1.1.1.1.2

theorem JoinStorable.decodes (h : JoinStorable x j) : clusterJoinState.Returns {} (j.record m) :=
  clusterJoinState_returns h.wf h.positive.le h.fence

theorem JoinStorable.rehash (h : JoinStorable x j) : m.fingerprintOf (j.record m) = (j.record m).contractHash := by
  simp [ClusterJoinState.record, h.contract, Hashing.fingerprintOf, m.contract]

theorem JoinStorable.loads (h : JoinStorable x j) :
    loadJoinFile x (clusterJoinState.enc (j.record m)) = some ({ j with outcome := j.outcome.resumed }.record m) := by
  have hv := h.valid
  simp only [validateJoinState, Bool.and_eq_true, decide_eq_true_eq] at hv
  obtain ⟨⟨⟨⟨⟨hreg, hfence⟩, hop⟩, hend⟩, hca⟩, hout⟩ := hv
  have hsize : (j.record m).contractHash.utf8ByteSize = 64 := by
    rw [← h.rehash]
    exact m.hash_size _
  have hvalid : (j.record m).validate (x := x) = true := by
    simp only [JoinRecord.validate, Bool.and_eq_true, decide_eq_true_eq]
    exact ⟨⟨⟨⟨⟨hreg, hsize⟩, hfence⟩, hop⟩, hend⟩, hca⟩
  unfold loadJoinFile
  rw [show clusterJoinState.into {} (clusterJoinState.enc (j.record m)) = _ from h.decodes]
  simp only [Option.bind_eq_bind, Option.bind_some]
  rw [if_pos hvalid, show (j.record m).outcome = j.outcome.text from rfl, resumed_text (by simpa using hout)]
  rfl

end Loads

end Storable

/-! ## Handlers -/

section Handlers
variable {H : Type} [DecidableEq H] (x : Env H)

/-- what a handler may write -/
def Effect.Stores : Effect H → Prop
  | .persist s => Storable x s
  | .persistJoin j => JoinStorable x j
  | _ => True

/-- a program that writes only such files and ends in `post` -/
def Stores {α : Type} (post : α → Prop) (p : Handler H α) : Prop :=
  p.Along (fun q (_ : Unit) => q.Stores x) (fun _ _ => True) (fun _ _ _ => ()) (fun a _ => post a) ()

/-- nothing was accepted yet, or what was accepted can be stored -/
def Known (s : SavedState H) : Prop := s = {} ∨ Storable x s

variable {x} {s : SavedState H} {e : ExpectedHostState}

omit [DecidableEq H] in
/-- another state of the same request -/
theorem Storable.relabel (h : Storable x s) {t : SavedState H} (hreq : t.request = s.request) (hdig : t.digest = s.digest)
    (ha : t.appliedRevision ≤ s.request.revision) (ho : t.outcome ≠ .unconfigured) : Storable x t :=
  ⟨hreq ▸ h.wf, hreq ▸ h.valid, hdig ▸ hreq ▸ h.digest, hreq ▸ ha, ho⟩

omit [DecidableEq H] in
theorem Storable.concluded (h : Storable x s) (result : Option KubernetesResult × Bool) :
    Storable x (s.concluded result) := by
  obtain ⟨k, ok⟩ := result
  cases ok with
  | true => exact h.relabel rfl rfl le_rfl nofun
  | false => exact h.relabel rfl rfl h.applied nofun

omit [DecidableEq H] in
theorem enforce_stores (e : ExpectedHostState) : Stores x (fun _ => True) (enforce x e) := by
  refine ⟨trivial, fun ok _ => ?_⟩
  cases ok with
  | false => trivial
  | true =>
    cases e.secret with
    | none => trivial
    | some secret =>
      show Stores x _ (if x.secrets then _ else _)
      split_ifs
      · refine ⟨trivial, fun r _ => ?_⟩
        cases r <;> trivial
      · trivial

omit [DecidableEq H] in
theorem conclude_stores (h : Storable x s) (result : Option KubernetesResult × Bool) :
    Stores x (Storable x) (conclude s result) := by
  have hfinal := h.concluded result
  have hinterrupted : Storable x { s.concluded result with outcome := .interrupted, appliedRevision := s.appliedRevision } :=
    h.relabel rfl rfl h.applied nofun
  refine ⟨hfinal, fun a _ => ?_⟩
  cases a with
  | synced =>
    refine ⟨trivial, fun published _ => ?_⟩
    cases published with
    | false => exact ⟨trivial, fun _ _ => hfinal⟩
    | true =>
      show Stores x _ (if result.2 then _ else _)
      split_ifs <;> exact ⟨trivial, fun _ _ => hfinal⟩
  | failed => exact ⟨trivial, fun _ _ => ⟨trivial, fun _ _ => hinterrupted⟩⟩
  | renamed => exact ⟨trivial, fun _ _ => ⟨trivial, fun _ _ => hinterrupted⟩⟩

omit [DecidableEq H] in
theorem carryOut_stores (h : Known x s) (hi : Storable x (s.intent x e)) :
    Stores x (Known x) (carryOut x s e) := by
  refine ⟨hi, fun a _ => ?_⟩
  cases a with
  | synced =>
    refine ⟨trivial, fun published _ => ?_⟩
    cases published with
    | false => exact ⟨trivial, fun _ _ => .inr hi⟩
    | true =>
      show Stores x _ ((enforce x e).bind (conclude (s.intent x e)))
      refine Prog.along_bind (Prog.along_mono (fun result _ _ => ?_) (enforce_stores e))
      exact Prog.along_mono (fun _ _ hs => .inr hs) (conclude_stores hi result)
  | failed => exact ⟨trivial, fun _ _ => h⟩
  | renamed => exact ⟨trivial, fun _ _ => h⟩

omit [DecidableEq H] in
/-- the intent of an accepted update -/
theorem intent_storable (h : Known x s) {u : HostStateUpdate} (hu : UpdateWf u) (he : u.accepted = some e)
    (hc : ¬Conflicts x s e) : Storable x (s.intent x e) where
  wf := accepted_wf hu he
  valid := accepted_update he
  digest := rfl
  applied := by
    have hrev : s.request.revision ≤ e.revision := not_lt.mp fun hlt => hc (.inl hlt)
    rcases h with rfl | h
    · exact Nat.zero_le _
    · exact h.applied.trans hrev
  outcome := nofun

theorem updateState_stores (h : Known x s) {u : Option HostStateUpdate} (hu : ∀ u' ∈ u, UpdateWf u') :
    Stores x (Known x) (updateState x s u) := by
  unfold updateState
  split
  · exact ⟨trivial, fun _ _ => h⟩
  next e he =>
    obtain ⟨u', hu', he⟩ := Option.bind_eq_some_iff.mp he
    refine ⟨trivial, fun cancelled _ => ?_⟩
    cases cancelled with
    | true => exact ⟨trivial, fun _ _ => h⟩
    | false =>
      show Stores x _ (if _ then _ else if _ then _ else _)
      split_ifs with hc
      · exact ⟨trivial, fun _ _ => h⟩
      · exact ⟨trivial, fun _ _ => h⟩
      · exact carryOut_stores h (intent_storable h (hu u' hu') he hc)

section Joins
variable {join : Option (ClusterJoinState H)} {j : ClusterJoinState H} {r : ClusterJoinRequest}

omit [DecidableEq H] in
theorem JoinStorable.relabel (h : JoinStorable x j) {f : ℤ} (hpos : 0 < f) (hf : f < 9223372036854775808) {o : Outcome}
    (ho : o ≠ .unconfigured) : JoinStorable x { j with fence := f, outcome := o } where
  wf := h.wf
  valid := by
    have hv := h.valid
    simp only [validateJoinState, Bool.and_eq_true, decide_eq_true_eq] at hv ⊢
    exact ⟨⟨⟨⟨⟨hv.1.1.1.1.1, hpos⟩, hv.1.1.1.2⟩, hv.1.1.2⟩, hv.1.2⟩, ho⟩
  fence := hf
  contract := h.contract

omit [DecidableEq H] in
theorem joinContract_stores (h : JoinStorable x j) (hpos : 0 < r.fence) (hf : r.fence < 9223372036854775808) :
    Stores x (fun join => ∀ j ∈ join, JoinStorable x j) (joinContract x j r) := by
  have hnext : ∀ {o : Outcome}, o ≠ .unconfigured → JoinStorable x { j with fence := r.fence, outcome := o } :=
    fun ho => h.relabel hpos hf ho
  have hsome : ∀ {o : Outcome}, o ≠ .unconfigured →
      ∀ j' ∈ some { j with fence := r.fence, outcome := o }, JoinStorable x j' := fun ho j' hj' =>
    Option.some.inj hj' ▸ hnext ho
  unfold joinContract
  split_ifs
  · refine ⟨hnext nofun, fun a _ => ?_⟩
    cases a with
    | synced =>
      refine ⟨trivial, fun ok _ => ?_⟩
      cases ok with
      | true =>
        refine ⟨hnext nofun, fun a _ => ?_⟩
        cases a with
        | synced => exact ⟨trivial, fun _ _ => hsome nofun⟩
        | failed => exact ⟨trivial, fun _ _ => hsome nofun⟩
        | renamed => exact ⟨trivial, fun _ _ => hsome nofun⟩
      | false => exact ⟨hnext nofun, fun _ _ => ⟨trivial, fun _ _ => hsome nofun⟩⟩
    | failed => exact ⟨trivial, fun _ _ => hsome nofun⟩
    | renamed => exact ⟨trivial, fun _ _ => hsome nofun⟩
  · exact ⟨trivial, fun _ _ j' hj' => Option.some.inj hj' ▸ h⟩

omit [DecidableEq H] in
/-- an accepted request binds the host to a checked contract -/
theorem bound_storable (m : Hashing x) (hr : JoinWf r) (hv : validateClusterJoin x r = true) : JoinStorable x (bound x r) := by
  simp only [validateClusterJoin, Bool.and_eq_true, decide_eq_true_eq] at hv
  obtain ⟨⟨⟨⟨⟨hreg, hfence⟩, hop⟩, -⟩, hca⟩, hend⟩ := hv
  refine ⟨hr.registration, ?_, hr.fence, rfl⟩
  simp only [validateJoinState, Bool.and_eq_true, decide_eq_true_eq]
  refine ⟨⟨⟨⟨⟨hreg, hfence⟩, hop⟩, fun hempty => ?_⟩, hca⟩, nofun⟩
  rw [show r.apiServerEndpoint = "" from hempty, m.endpoint] at hend
  exact absurd hend (by decide)

theorem clusterJoin_stores (m : Hashing x) (h : ∀ j ∈ join, JoinStorable x j) {r : Option ClusterJoinRequest}
    (hr : ∀ r' ∈ r, JoinWf r') : Stores x (fun join => ∀ j ∈ join, JoinStorable x j) (clusterJoin x join r) := by
  unfold clusterJoin
  split
  · exact ⟨trivial, fun _ _ => h⟩
  next r' hr' =>
    obtain ⟨rfl, hv⟩ := Option.filter_eq_some_iff.mp hr'
    have hwf := hr r' rfl
    have hpos : 0 < r'.fence := by
      have hv' := hv
      simp only [validateClusterJoin, Bool.and_eq_true, decide_eq_true_eq] at hv'
      exact hv'.1.1.1.1.2
    split
    · exact joinContract_stores (bound_storable m hwf hv) hpos hwf.fence
    · split_ifs
      · exact ⟨trivial, fun _ _ => h⟩
      · exact joinContract_stores (h _ rfl) hpos hwf.fence

omit [DecidableEq H] in
theorem clusterMembership_stores (join : Option (ClusterJoinState H)) (challenge : Option String) :
    Stores x (fun _ => True) (clusterMembership x join challenge) := by
  unfold clusterMembership
  split
  · exact ⟨trivial, fun _ _ => trivial⟩
  · split
    · exact ⟨trivial, fun _ _ => trivial⟩
    · refine ⟨trivial, fun ok _ => ?_⟩
      cases ok <;> exact ⟨trivial, fun _ _ => trivial⟩

end Joins

end Handlers

/-! ## Runs -/

/-- a request with its body; `none` is a bad deadline, or a body that is not one JSON document -/
inductive Body where
  | update (body : Option Json)
  | clusterJoin (body : Option Json)
  | clusterMembership (challenge : Option String)

/-- the handlers disallow unknown members -/
def Body.call : Body → Call
  | .update body => .update (body.bind ((expectedHostState true).into { revision := 0 }))
  | .clusterJoin body => .clusterJoin (body.bind ((clusterJoinRequest true).into
      ⟨⟨"", "", "", "", "", "", "", {}⟩, 0, "", "", "", ""⟩))
  | .clusterMembership challenge => .clusterMembership challenge

section Runs
variable {H : Type} [DecidableEq H] (x : Env H)

def bodyService : Service (Effect H) Effect.Answer (World H) (Memory H) Body Crash where
  boot := boot x
  handle m b := handle x m b.call
  perform := perform
  crash := crash

abbrev BodyAct (H : Type) := Service.Act (Effect H) Effect.Answer Body Crash

def BodyAct.decoded : BodyAct H → Act H
  | .start => .start
  | .call b => .call b.call
  | .answer q r => .answer q r
  | .crash k => .crash k

/-- a run whose requests are documents -/
def runBodies (acts : List (BodyAct H)) : Service.State (Effect H) Effect.Answer (World H) (Memory H) :=
  (bodyService x).run {} acts

/-- it is a run of the agent with the decoded requests -/
theorem runBodies_eq (acts : List (BodyAct H)) : runBodies x acts = run x (acts.map BodyAct.decoded) := by
  have hstep : ∀ s (a : BodyAct H), (bodyService x).step s a = (service x).step s a.decoded := fun s a => by
    cases a <;> rfl
  unfold runBodies run Service.run
  rw [List.foldl_map]
  exact congrArg (fun f => List.foldl f _ acts) (funext fun s => funext (hstep s))

/-- every version of the files can be stored -/
structure FilesInv (w : World H) : Prop where
  state : ∀ v ∈ w.state.versions, ∀ s ∈ v, Storable x s
  join : ∀ v ∈ w.join.versions, ∀ j ∈ v, JoinStorable x j

structure FilesMem (m : Memory H) (w : World H) : Prop extends FilesInv x w where
  saved : Known x m.saved
  contract : ∀ j ∈ m.join, JoinStorable x j

variable {x} {w : World H}

omit [DecidableEq H] in
theorem FilesInv.of_files (h : FilesInv x w) {w' : World H} (hs : w'.state = w.state) (hj : w'.join = w.join) :
    FilesInv x w' := ⟨hs ▸ h.state, hj ▸ h.join⟩

omit [DecidableEq H] in
theorem FilesInv.perform (h : FilesInv x w) {q : Effect H} (hq : q.Stores x) (r : q.Answer) :
    FilesInv x (perform q r w) := by
  cases q with
  | persist s => exact ⟨File.forall_write (P := fun v => ∀ s ∈ v, Storable x s)
      (fun t ht => Option.some.inj ht ▸ hq) h.state r, h.join⟩
  | persistJoin j => exact ⟨h.state, File.forall_write (P := fun v => ∀ j ∈ v, JoinStorable x j)
      (fun t ht => Option.some.inj ht ▸ hq) h.join r⟩
  | context | publish | apply | ensureSecret | joinCluster | clusterMembership | respond => exact h.of_files rfl rfl

omit [DecidableEq H] in
theorem FilesInv.recover (h : FilesInv x w) (a b : ℕ) :
    FilesInv x { w with state := w.state.recover a, join := w.join.recover b } :=
  ⟨fun v hv => h.state v (File.mem_versions_recover hv), fun v hv => h.join v (File.mem_versions_recover hv)⟩

omit [DecidableEq H] in
theorem FilesInv.begin (h : FilesInv x w) {q : Effect H} (hq : q.Stores x) : FilesInv x (begin q w) := by
  cases q with
  | persist s => exact h.perform (q := .persist s) hq .renamed |>.of_files rfl rfl
  | persistJoin j => exact h.perform (q := .persistJoin j) hq .renamed
  | context | publish | apply | ensureSecret | joinCluster | clusterMembership | respond => exact h.of_files rfl rfl

omit [DecidableEq H] in
theorem FilesInv.crash (h : FilesInv x w) (k : Crash) {q : Effect H} (hq : q.Stores x) : FilesInv x (crash k (some q) w) := by
  refine FilesInv.recover (w := if k.begun then Crane.Subd.begin q w else w) ?_ _ _
  split_ifs
  · exact h.begin hq
  · exact h

/-- a program that writes only what can be stored -/
theorem Stores.maintains {α : Type} {post : α → Prop} {p : Handler H α} (hp : Stores x post p) (h : FilesInv x w) :
    (bodyService x).Maintains (FilesInv x) (FilesInv x) (fun a w => post a ∧ FilesInv x w) p w := by
  induction p generalizing w with
  | ret a => exact ⟨hp, h⟩
  | stop => exact h
  | ask q k ih =>
    refine ⟨⟨h, fun c => h.crash c hp.1⟩, fun r => ih r (hp.2 r trivial) (h.perform hp.1 r)⟩

omit [DecidableEq H] in
theorem JoinStorable.resumed {j j' : ClusterJoinState H} (h : JoinStorable x j) (hl : j.load x = some j') :
    JoinStorable x j' := by
  unfold ClusterJoinState.load at hl
  split_ifs at hl with hv
  obtain rfl := Option.some.inj hl
  refine h.relabel h.positive h.fence ?_
  simp only [validateJoinState, Bool.and_eq_true, decide_eq_true_eq] at hv
  cases ho : j.outcome <;> simp_all [Outcome.resumed]

theorem Storable.resumed {s s' : SavedState H} (h : Storable x s) (hl : s.load x = some s') : Storable x s' := by
  unfold SavedState.load at hl
  split_ifs at hl with hv
  obtain rfl := Option.some.inj hl
  refine h.relabel rfl rfl h.applied ?_
  cases ho : s.outcome <;> simp_all [Outcome.resumed]

theorem FilesInv.newServer (h : FilesInv x w) {m : Memory H} (hm : newServer x w = some m) : FilesMem x m w := by
  unfold Crane.Subd.newServer at hm
  obtain ⟨saved, hsaved, hm⟩ := Option.bind_eq_some_iff.mp hm
  obtain ⟨join, hjoin, hm⟩ := Option.bind_eq_some_iff.mp hm
  obtain rfl : (⟨saved, join⟩ : Memory H) = m := Option.some.inj hm
  refine ⟨h, ?_, ?_⟩
  · cases hs : w.state.current with
    | none =>
      rw [hs] at hsaved
      exact .inl (Option.some.inj hsaved).symm
    | some s =>
      rw [hs] at hsaved
      exact .inr ((h.state _ List.mem_cons_self s hs).resumed hsaved)
  · cases hj : w.join.current with
    | none =>
      rw [hj] at hjoin
      exact Option.some.inj hjoin ▸ nofun
    | some j =>
      rw [hj] at hjoin
      obtain ⟨j', hl, rfl⟩ := Option.map_eq_some_iff.mp hjoin
      exact fun k hk => Option.some.inj hk ▸ (h.join _ List.mem_cons_self j hj).resumed hl

theorem files_keeps (m : Hashing x) : (bodyService x).Keeps (FilesInv x) (FilesInv x) (FilesMem x) where
  down h := ⟨h, fun k => h.recover k.state k.join⟩
  ready h := ⟨h.toFilesInv, fun k => h.toFilesInv.recover k.state k.join⟩
  boot {w} h := by
    show (bodyService x).Maintains _ _ _ (boot x w) w
    unfold boot
    cases hm : newServer x w with
    | none => exact h
    | some mem =>
      have hmem := h.newServer hm
      have hpublished : FilesMem x mem (perform (.publish mem.saved) true w) := ⟨h.of_files rfl rfl, hmem.2, hmem.3⟩
      refine ⟨⟨h, fun k => h.crash (q := .publish mem.saved) k trivial⟩, fun published => ?_⟩
      cases published with
      | true => exact hpublished
      | false => exact hpublished.toFilesInv
  handle {mem w} b h := by
    cases b with
    | update body =>
      have hu : ∀ u ∈ body.bind ((expectedHostState true).into { revision := 0 }), UpdateWf u := fun u hu => by
        obtain ⟨j, -, hj⟩ := Option.bind_eq_some_iff.mp hu
        exact expectedHostState_wf zero_wf hj
      refine Service.Maintains.bind (Service.Maintains.mono ?_ ((updateState_stores h.saved hu).maintains h.toFilesInv))
      exact fun s w hs => ⟨hs.2, hs.1, h.contract⟩
    | clusterJoin body =>
      have hr : ∀ r ∈ body.bind ((clusterJoinRequest true).into ⟨⟨"", "", "", "", "", "", "", {}⟩, 0, "", "", "", ""⟩),
          JoinWf r := fun r hr => by
        obtain ⟨j, -, hj⟩ := Option.bind_eq_some_iff.mp hr
        exact clusterJoinRequest_wf zeroJoin_wf hj
      refine Service.Maintains.bind (Service.Maintains.mono ?_ ((clusterJoin_stores m h.contract hr).maintains h.toFilesInv))
      exact fun join w hj => ⟨hj.2, h.saved, hj.1⟩
    | clusterMembership c =>
      refine Service.Maintains.bind (Service.Maintains.mono ?_
        ((clusterMembership_stores mem.join c).maintains h.toFilesInv))
      exact fun _ w hw => ⟨hw.2, h.saved, h.contract⟩

end Runs

/-! ## Restart -/

/-- what was in progress is interrupted -/
def SavedState.resumed {H : Type} (s : SavedState H) : SavedState H := { s with outcome := s.outcome.resumed }

def ClusterJoinState.resumed {H : Type} (j : ClusterJoinState H) : ClusterJoinState H :=
  { j with outcome := j.outcome.resumed }

section Restart
variable {H : Type} [DecidableEq H] {x : Env H} (m : Hashing x)

/-- what NewServer makes of the files in place -/
structure Reloads (w : World H) : Prop where
  server : newServerFiles m (w.state.current.map fun s => savedState.enc (s.record m))
      (w.join.current.map fun j => clusterJoinState.enc (j.record m)) =
    some (((w.state.current.map SavedState.resumed).getD {}).record m,
      (w.join.current.map ClusterJoinState.resumed).map fun j => j.record m)
  normalized : ∀ s ∈ w.state.current, validateExpected (update s.request) = true ∧
    ∀ secret ∈ s.request.secret, secret.spec.normalize = some secret
  digest : ∀ s ∈ w.state.current, ∃ r, savedState.into {} (savedState.enc (s.record m)) = some r ∧
    m.digestOf r.request = (s.record m).digest
  contract : ∀ j ∈ w.join.current, ∃ r, clusterJoinState.into {} (clusterJoinState.enc (j.record m)) = some r ∧
    m.fingerprintOf r = (j.record m).contractHash

theorem accepted_normalized {e : ExpectedHostState} (h : (update e).accepted = some e) :
    ∀ secret ∈ e.secret, secret.spec.normalize = some secret := by
  intro secret hs
  unfold HostStateUpdate.accepted at h
  split_ifs at h
  have hsecret : (e.secret.map KubernetesSecret.spec).bind SecretSpec.normalize = e.secret :=
    congrArg ExpectedHostState.secret (Option.some.inj h)
  rw [show e.secret = some secret from hs] at hsecret
  simpa using hsecret

omit [DecidableEq H] in
theorem FilesInv.reloads {w : World H} (h : FilesInv x w) : Reloads m w where
  server := by
    have hstate : ∀ s ∈ w.state.current, Storable x s := h.state _ List.mem_cons_self
    have hjoin : ∀ j ∈ w.join.current, JoinStorable x j := h.join _ List.mem_cons_self
    unfold newServerFiles
    cases hs : w.state.current with
    | none =>
      cases hj : w.join.current with
      | none => rfl
      | some j => simp [(hjoin j hj).loads, ClusterJoinState.resumed]; rfl
    | some s =>
      cases hj : w.join.current with
      | none => simp [(hstate s hs).loads, SavedState.resumed]
      | some j => simp [(hstate s hs).loads, (hjoin j hj).loads, SavedState.resumed, ClusterJoinState.resumed]
  normalized s hs := by
    have hstore := h.state _ List.mem_cons_self s hs
    exact ⟨accepted_valid hstore.valid, accepted_normalized hstore.valid⟩
  digest s hs := by
    have hstore := h.state _ List.mem_cons_self s hs
    exact ⟨_, hstore.decodes, hstore.rehash⟩
  contract j hj := by
    have hstore := h.join _ List.mem_cons_self j hj
    exact ⟨_, hstore.decodes, hstore.rehash⟩

/-- **Whatever the agent persists it can load again.** In every run, with any request bodies, failed and partial writes and
crashes: NewServer accepts the files in place and loads what was written, with `applying` as `interrupted`. -/
theorem persisted_reloads (x : Env H) (m : Hashing x) (acts : List (BodyAct H)) : Reloads m (runBodies x acts).world := by
  have hinit : FilesInv x ({} : World H) := by
    refine ⟨fun v hv => ?_, fun v hv => ?_⟩ <;> obtain rfl : v = none := by simpa [File.versions] using hv
    · simp
    · simp
  exact ((files_keeps m).world ((files_keeps m).run hinit acts)).reloads m

end Restart

namespace Sample

def stored : Env Digest := { env with validEndpoint := (· ≠ "") }

/-- one digest for all documents -/
def hashing : Hashing stored where
  hash _ := String.ofList (List.replicate 64 '0')
  hash_size _ := by decide
  text _ := String.ofList (List.replicate 64 '0')
  digest _ := rfl
  contract _ _ _ := rfl
  endpoint := rfl

def servicesBody : Json :=
  .obj [("revision", .num 7), ("services", .obj [("b.service", .bool true), ("a.service", .bool false)])]

def services : ExpectedHostState := { revision := 7, services := [("a.service", false), ("b.service", true)] }

/-- the update is accepted, and stored in progress -/
def storing : List (BodyAct Digest) :=
  [.start, .answer (.publish {}) true, .call (.update (some servicesBody)), .answer .context false,
    .answer (.persist ⟨services, some (.inl services), 0, .applying, none⟩) .synced]

example : (newServerFiles hashing ((runBodies stored storing).world.state.current.map fun s =>
    savedState.enc (s.record hashing)) none).map (fun s => (s.1.request.revision, s.1.outcome)) =
      some (7, "interrupted") := by
  decide +kernel

end Sample

end Crane.Subd
