/-
The shared vocabulary (`pkg/api`): enumerations, requests, results and the records handed from the capacity store to
controllers. Timestamps are microseconds of the database clock, durations are nanoseconds, 64-bit integers are `ℤ` with
their range stated where a column or a computation depends on it. JSON objects keep their members in one canonical order,
so equality of documents is `jsonb` equality.
-/
import Crane.Lib.Json

namespace Crane

namespace Json

/-- `doc->>'name'` for a string member, '' when there is none -/
def text (name : String) : Json → String
  | obj l => match l.lookup name with
    | some (str s) => s
    | _ => ""
  | _ => ""

end Json

/-- math.MaxInt64 -/
def maxInt64 : ℤ := 9223372036854775807

/-- the value a Go int64 computation leaves -/
def wrap64 (x : ℤ) : ℤ := (x + 9223372036854775808) % 18446744073709551616 - 9223372036854775808

/-- a computation that stays in range is exact -/
theorem wrap64_eq {x : ℤ} (h₀ : -maxInt64 ≤ x) (h₁ : x ≤ maxInt64) : wrap64 x = x := by
  unfold wrap64 maxInt64 at *
  omega

/-- an int64 result that did not overflow -/
def in64 (x : ℤ) : Option ℤ := if -maxInt64 - 1 ≤ x ∧ x ≤ maxInt64 then some x else none

/-- `a / b`, if it neither divides by zero nor overflows -/
def quo64 (a b : ℤ) : Option ℤ := if b = 0 then none else in64 (a.tdiv b)

/-- a result without overflow is what the computation leaves -/
theorem in64_some {x y : ℤ} : in64 x = some y ↔ -maxInt64 - 1 ≤ x ∧ x ≤ maxInt64 ∧ y = x := by
  by_cases h : -maxInt64 - 1 ≤ x ∧ x ≤ maxInt64
  · simp [in64, h, eq_comm]
  · simp only [in64, h, if_false, reduceCtorEq, false_iff]
    exact fun h' => h ⟨h'.1, h'.2.1⟩

theorem wrap64_in64 {x y : ℤ} (h : in64 x = some y) : wrap64 x = y := by
  obtain ⟨h₀, h₁, rfl⟩ := in64_some.mp h
  unfold wrap64 maxInt64 at *
  omega

/-- a counter whose successor passes a CHECK (>= 0) did not wrap around -/
theorem wrap64_succ {n : ℤ} (h₀ : 0 ≤ n) (h₁ : n ≤ maxInt64) (h : 0 ≤ wrap64 (n + 1)) : wrap64 (n + 1) = n + 1 := by
  unfold wrap64 maxInt64 at *
  omega

/-- time.Duration, in nanoseconds -/
abbrev Duration := ℤ

/-- duration.Milliseconds() as an interval of the database clock -/
def Duration.micros (d : Duration) : ℕ := (d / 1000000).toNat * 1000

def millisecond : Duration := 1000000

def oneDay : Duration := 24 * 3600 * 1000000000

inductive HostState where
  | requested | provisioning | booting | registering | converging | ready
  | draining | terminating | terminated | failed | unhealthy
deriving DecidableEq, Repr, Inhabited

inductive OperationKind where
  | provision | createCluster | attachZone | removeNode
deriving DecidableEq, Repr, Inhabited

inductive OperationState where
  | pending | leased | launching | succeeded | cancelled | failed | blocked
deriving DecidableEq, Repr, Inhabited

inductive ReservationState where
  | reserved | committed | released
deriving DecidableEq, Repr, Inhabited

inductive RemovalReason where
  | autoscalerDelete | repair | maintenance
deriving DecidableEq, Repr, Inhabited

/-- lifecycle of zones, clusters and memberships -/
inductive Lifecycle where
  | requested | initializing | ready | failed
deriving DecidableEq, Repr, Inhabited

inductive AccessState where
  | pending | approved | revoked
deriving DecidableEq, Repr, Inhabited

inductive GroupLifecycle where
  | active | inactive
deriving DecidableEq, Repr, Inhabited

/-- a textual address together with what net.ParseIP(text).IsPrivate() says of it -/
structure AddressText where
  text : String
  isPrivate : Bool
deriving DecidableEq, Repr

structure Resources where
  vcpu : ℤ
  memoryMib : ℤ
  nodes : ℤ
deriving DecidableEq, Repr, Inhabited

/-- the fields of `Resources` -/
inductive Resource where
  | vcpu | memoryMib | nodes
deriving DecidableEq, Repr

def Resources.get (a : Resources) : Resource → ℤ
  | .vcpu => a.vcpu
  | .memoryMib => a.memoryMib
  | .nodes => a.nodes

structure SchedulingTaint where
  key : String
  value : String
  effect : String
deriving DecidableEq, Repr, Inhabited

structure SchedulingTemplate where
  instanceType : String := ""
  architecture : String := ""
  region : String := ""
  zone : String := ""
  labels : List (String × String) := []
  taints : List SchedulingTaint := []
deriving DecidableEq, Repr, Inhabited

/-- what a provision operation stores about the template it was admitted under -/
structure ProvisioningTemplate where
  launchParameters : Json
  scheduling : SchedulingTemplate
  templateRevision : String
  capacityClass : String
deriving DecidableEq, Repr, Inhabited

structure CapacityRequest where
  nodeGroupId : String
  requestId : String
  clusterId : String
  expectedTargetRevision : ℤ
  desiredTarget : ℤ
  templateRevision : String
deriving DecidableEq, Repr, Inhabited

structure CapacityResult where
  requestId : String
  nodeGroupId : String
  targetNodes : ℤ
  targetRevision : ℤ
deriving DecidableEq, Repr, Inhabited

structure RemovalNode where
  hostId : String
  nodeName : String
  providerId : String
deriving DecidableEq, Repr, Inhabited

structure NodeRemovalRequest where
  nodeGroupId : String
  requestId : String
  expectedTargetRevision : ℤ
  nodes : List RemovalNode
deriving DecidableEq, Repr, Inhabited

/-- the fields of a named removal that `CreateRemoval` reads; a zero deadline is `none` -/
structure NodeRemovalOperation where
  nodeGroupId : String
  hostId : String
  nodeName : String
  providerId : String
  reason : RemovalReason
  preserveDesiredCapacity : Bool
  drainDeadline : Option ℕ
deriving DecidableEq, Repr, Inhabited

/-- the JSON document in `operations.parameters` -/
inductive Parameters where
  | template (t : ProvisioningTemplate)
  | removal (request : NodeRemovalRequest)
  | document (j : Json)
deriving DecidableEq, Repr

structure HostPackageChange where
  name : String
  action : String
deriving DecidableEq, Repr, Inhabited

/-- a []byte: a nil one is written as null, an empty one as "" -/
abbrev Bytes := Option (List UInt8)

/-- a Secret after `Normalize`: all data in one map -/
structure KubernetesSecret where
  namespaceName : String
  name : String
  type : String
  data : List (String × Bytes)
  rolloutDeployment : String
deriving DecidableEq, Repr, Inhabited

structure ExpectedHostState where
  revision : ℕ
  imageId : String := ""
  track : String := ""
  version : String := ""
  services : List (String × Bool) := []
  packages : List HostPackageChange := []
  secret : Option KubernetesSecret := none
deriving DecidableEq, Repr, Inhabited

/-- api.Operation: the copy of an operation that a controller works with -/
structure Operation where
  id : String := ""
  kind : OperationKind := .provision
  zoneId : String := ""
  nodeGroupId : String := ""
  nodePoolId : String := ""
  hostId : String := ""
  capacityRequestId : String := ""
  clusterId : String := ""
  apiServerEndpoint : String := ""
  caCertHash : String := ""
  provider : String := ""
  accountId : String := ""
  region : String := ""
  providerZoneId : String := ""
  kubernetesRegion : String := ""
  kubernetesZone : String := ""
  capacityClass : String := ""
  templateRevision : String := ""
  launchParameters : Json := .null
  scheduling : SchedulingTemplate := {}
  spireInstanceId : String := ""
  targetRevision : ℤ := 0
  state : OperationState := .pending
  providerToken : String := ""
  parameters : Parameters := .document (.obj [])
  leaseOwner : String := ""
  leaseUntil : ℕ := 0
  fence : ℕ := 0
  lastError : String := ""
  createdAt : ℕ := 0
  updatedAt : ℕ := 0
deriving DecidableEq, Repr

end Crane
