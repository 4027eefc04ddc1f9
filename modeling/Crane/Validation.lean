/-
The input checks shared by the Crane API, Dominator and the host agent: Kubernetes names (`k8s.io/apimachinery`, as far as
they are used), `KubernetesSecret.Normalize` (`pkg/api/kubernetes.go`), scheduling metadata (`pkg/api/scheduling.go`) and
worker registrations (`pkg/api/worker.go`).

A decoded object is a list of members in the order of their names. Lengths are those of the UTF-8 text, as in Go.
-/
import Crane.Api
import Mathlib.Algebra.GroupWithZero.Nat
import Mathlib.Data.List.Sort
import Mathlib.Data.List.Dedup

namespace Crane

/-! ## Names -/

/-- `outer(inner*outer)?` -/
def fenced (inner outer : Char → Bool) (cs : List Char) : Bool :=
  cs.all inner && cs.head?.any outer && cs.getLast?.any outer

def lowerAlnum (c : Char) : Bool := c.isLower || c.isDigit

/-- one DNS label, whatever its length -/
def dnsLabel (cs : List Char) : Bool := fenced (fun c => lowerAlnum c || c = '-') lowerAlnum cs

def isDNS1123Label (s : String) : Bool := s.utf8ByteSize ≤ 63 && dnsLabel s.toList

def isDNS1123Subdomain (s : String) : Bool := s.utf8ByteSize ≤ 253 && (s.toList.splitOn '.').all dnsLabel

/-- `([A-Za-z0-9][-A-Za-z0-9_.]*)?[A-Za-z0-9]` -/
def qualifiedPart (cs : List Char) : Bool :=
  fenced (fun c => c.isAlphanum || c = '-' || c = '_' || c = '.') Char.isAlphanum cs

def isQualifiedName (s : String) : Bool :=
  match s.toList.splitOn '/' with
  | [name] => name.length ≤ 63 && qualifiedPart name
  | [domain, name] => isDNS1123Subdomain (String.ofList domain) && name.length ≤ 63 && qualifiedPart name
  | _ => false

def isValidLabelValue (s : String) : Bool := s.utf8ByteSize ≤ 63 && (s = "" || qualifiedPart s.toList)

def isConfigMapKey (s : String) : Bool :=
  0 < s.utf8ByteSize && s.utf8ByteSize ≤ 253 && s.toList.all (fun c => c.isAlphanum || c = '-' || c = '_' || c = '.') &&
    s ≠ "." && !s.startsWith ".."

/-! ## Secrets -/

/-- a Secret as it is decoded, with its two maps of data -/
structure SecretSpec where
  namespaceName : String
  name : String
  type : String
  data : List (String × Bytes)
  stringData : List (String × String)
  rolloutDeployment : String
deriving DecidableEq, Repr, Inhabited

def byKey {α : Type} (a b : String × α) : Bool := a.1 ≤ b.1

/-- `[]byte(value)` -/
def textBytes (m : String × String) : String × Bytes := (m.1, some m.2.toUTF8.toList)

/-- one map of both, in the order of its keys -/
def SecretSpec.merged (s : SecretSpec) : List (String × Bytes) := (s.data ++ s.stringData.map textBytes).mergeSort byKey

def SecretSpec.typeName (s : SecretSpec) : String := if s.type = "" then "Opaque" else s.type

def SecretSpec.accepted (s : SecretSpec) : Bool :=
  isDNS1123Label s.namespaceName && isDNS1123Subdomain s.name &&
    (s.rolloutDeployment = "" || isDNS1123Subdomain s.rolloutDeployment) &&
    s.typeName.utf8ByteSize ≤ 253 && isQualifiedName s.typeName &&
    s.stringData.all (fun m => s.data.all fun n => n.1 ≠ m.1) && s.merged.all (fun m => isConfigMapKey m.1) &&
    (s.merged.map fun m => (m.2.getD []).length).sum ≤ 1048576

/-- validates and combines data and stringData; overlapping keys are rejected rather than silently replaced -/
def SecretSpec.normalize (s : SecretSpec) : Option KubernetesSecret :=
  if s.accepted then some ⟨s.namespaceName, s.name, s.typeName, s.merged, s.rolloutDeployment⟩ else none

/-- a normalized Secret as it is sent -/
def KubernetesSecret.spec (s : KubernetesSecret) : SecretSpec :=
  ⟨s.namespaceName, s.name, s.type, s.data, [], s.rolloutDeployment⟩

theorem mergeSort_byKey {α : Type} (l : List (String × α)) : (l.mergeSort byKey).mergeSort byKey = l.mergeSort byKey := by
  refine List.mergeSort_of_pairwise (List.pairwise_mergeSort ?_ ?_ l)
  · intro a b c hab hbc
    simp only [byKey, decide_eq_true_eq] at *
    exact String.le_trans hab hbc
  · intro a b
    simpa [byKey] using String.le_total a.1 b.1

/-- normalizing twice is normalizing once -/
theorem SecretSpec.normalize_spec {s : SecretSpec} {n : KubernetesSecret} (h : s.normalize = some n) :
    n.spec.normalize = some n := by
  unfold normalize at h
  split_ifs at h with hacc
  obtain rfl := Option.some.inj h
  have hmerged : SecretSpec.merged ⟨s.namespaceName, s.name, s.typeName, s.merged, [], s.rolloutDeployment⟩ = s.merged := by
    rw [merged, List.map_nil, List.append_nil]
    exact mergeSort_byKey _
  have htype : SecretSpec.typeName ⟨s.namespaceName, s.name, s.typeName, s.merged, [], s.rolloutDeployment⟩ = s.typeName := by
    unfold typeName
    split_ifs <;> simp_all
  simp only [accepted, Bool.and_eq_true] at hacc
  obtain ⟨⟨⟨⟨⟨⟨⟨hns, hname⟩, hroll⟩, hlen⟩, hqual⟩, -⟩, hkeys⟩, hsize⟩ := hacc
  simp only [normalize, KubernetesSecret.spec, accepted, hmerged, htype, hns, hname, hlen, hqual, hkeys, hsize,
    List.all_nil]
  rw [Bool.true_and, Bool.and_true, Bool.and_true, Bool.and_true, Bool.and_true, Bool.and_true]
  exact if_pos hroll

/-! ## Worker registrations -/

def provisioningTaint : String := "platform.crane.io/provisioning"

def canonicalLabels (t : SchedulingTemplate) (pool : String) : List (String × String) :=
  [("kubernetes.io/os", "linux"), ("kubernetes.io/arch", t.architecture), ("topology.kubernetes.io/region", t.region),
    ("topology.kubernetes.io/zone", t.zone), ("node.kubernetes.io/instance-type", t.instanceType),
    ("platform.crane.io/node-pool", pool)]

/-- the canonical labels, overridden by the template's own -/
def schedulingLabels (t : SchedulingTemplate) (pool : String) : List (String × String) :=
  (canonicalLabels t pool).filter (fun c => t.labels.all fun l => l.1 ≠ c.1) ++ t.labels

/-- the keys of a map -/
def labelKeys (m : List (String × String)) : List String := (m.map Prod.fst).dedup

/-- `m[key]` -/
def labelOf (m : List (String × String)) (key : String) : String := (m.lookup key).getD ""

/-- a label key that only Kubernetes or Crane may set -/
def reservedKey (k : String) : Bool :=
  let domain := String.ofList (k.toList.takeWhile (· ≠ '/'))
  (k.toList.contains '/' && (domain = "kubernetes.io" || domain.endsWith ".kubernetes.io" || domain = "k8s.io" ||
    domain.endsWith ".k8s.io")) || k.startsWith "platform.crane.io/"

def validateLabel (canonical : List (String × String)) (l : String × String) : Bool :=
  isQualifiedName l.1 && isValidLabelValue l.2 && l.2 ≠ "" &&
    match canonical.lookup l.1 with
    | some expected => l.2 = expected
    | none => !reservedKey l.1

def validateTaint (t : SchedulingTaint) : Bool :=
  t.key ≠ provisioningTaint && isQualifiedName t.key && isValidLabelValue t.value &&
    (t.effect = "NoSchedule" || t.effect = "NoExecute" || t.effect = "PreferNoSchedule")

def validateScheduling (t : SchedulingTemplate) (pool : String) : Bool :=
  t.instanceType ≠ "" && t.region ≠ "" && t.zone ≠ "" && pool ≠ "" &&
    (t.architecture = "amd64" || t.architecture = "arm64") &&
    (schedulingLabels t pool).all (validateLabel (canonicalLabels t pool)) && t.taints.all validateTaint &&
    decide (t.taints.map fun x => x.key ++ "/" ++ x.effect).Nodup

structure WorkerRegistration where
  clusterId : String
  hostId : String
  nodeGroupId : String
  nodePoolId : String
  templateRevision : String
  nodeName : String
  providerId : String
  scheduling : SchedulingTemplate
deriving DecidableEq, Repr, Inhabited

/-- `workerNodeName` is api.WorkerNodeName -/
def WorkerRegistration.validate (workerNodeName : String → String) (r : WorkerRegistration) : Bool :=
  r.clusterId ≠ "" && r.hostId ≠ "" && r.nodeGroupId ≠ "" && r.nodePoolId ≠ "" && r.templateRevision ≠ "" &&
    r.providerId ≠ "" && r.nodeName = workerNodeName r.hostId && validateScheduling r.scheduling r.nodePoolId

end Crane
