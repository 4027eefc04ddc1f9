/-
The provider launch (`internal/provider/awscompute/runtime.go`, `LaunchWorker`) and the provider itself.

`runInstancesInput` is the request that `LaunchWorker` builds once all its checks pass. The provider is a state machine
over client tokens: the first request with a token creates an instance, the identical request returns it again, and a
different request with the token is refused.
-/
import Crane.Api
import Mathlib

namespace Crane.Provider

/-! ## LaunchWorker -/

structure LaunchParameters where
  imageId : String := ""
  instanceType : String := ""
  subnetId : String := ""
  securityGroupIds : List String := []
  instanceProfile : String := ""
  associatePublicIp : Option Bool := none
deriving DecidableEq, Repr

def stringOf : Json → Option String
  | .str s => some s
  | .null => some ""
  | _ => none

/-- one member of the decoded object; null leaves the field alone and unknown members are an error -/
def LaunchParameters.set (p : LaunchParameters) : String × Json → Option LaunchParameters
  | ("image_id", .str s) => some { p with imageId := s }
  | ("instance_type", .str s) => some { p with instanceType := s }
  | ("subnet_id", .str s) => some { p with subnetId := s }
  | ("security_group_ids", .arr l) => (l.mapM stringOf).map fun l => { p with securityGroupIds := l }
  | ("iam_instance_profile", .str s) => some { p with instanceProfile := s }
  | ("associate_public_ip_address", .bool b) => some { p with associatePublicIp := some b }
  | (k, .null) => if k ∈ ["image_id", "instance_type", "subnet_id", "security_group_ids", "iam_instance_profile",
      "associate_public_ip_address"] then some p else none
  | _ => none

/-- json decoding with DisallowUnknownFields -/
def LaunchParameters.decode : Json → Option LaunchParameters
  | .obj l => l.foldlM LaunchParameters.set {}
  | .null => some {}
  | _ => none

def LaunchParameters.complete (p : LaunchParameters) : Bool :=
  p.imageId ≠ "" && p.instanceType ≠ "" && p.subnetId ≠ "" && p.securityGroupIds ≠ [] && p.instanceProfile ≠ ""

/-- strings.Trim(s, "/") -/
def trimSlash (l : List Char) : List Char := ((l.dropWhile (· = '/')).reverse.dropWhile (· = '/')).reverse

def isNameChar (c : Char) : Bool := ('a' ≤ c && c ≤ 'z') || ('0' ≤ c && c ≤ '9')

/-- ^[a-z0-9][a-z0-9-]{0,62}$ -/
def deploymentName : List Char → Bool
  | [] => false
  | c :: l => isNameChar c && l.length ≤ 62 && l.all fun c => isNameChar c || c = '-'

def deploymentNameFromBundleParameter (parameter : String) : Option String :=
  match (trimSlash parameter.toList).splitOn '/' with
  | [a, b, c] =>
    if a = "crane".toList ∧ c = "spire-bundle".toList ∧ deploymentName b = true then some (String.ofList b) else none
  | _ => none

structure Runtime where
  region : String
  trustDomain : String
deriving DecidableEq, Repr

/-- what the provider's Describe calls answered; `none` is an error or an unavailable image -/
structure LaunchFacts where
  imageTags : Option (List (String × String))
  subnets : Option (List (String × String)) -- availability zone and VPC of each
  groups : Option (List String) -- VPC of each
deriving DecidableEq, Repr

/-- the RunInstances request; counts, metadata options and the device index are constants -/
structure RunInstancesInput where
  imageId : String
  instanceType : String
  clientToken : String
  instanceProfile : String
  subnetId : String
  groups : List String
  publicIp : Bool
  tags : List (String × String)
deriving DecidableEq, Repr

def launchTags (op : Operation) (deployment : String) : List (String × String) :=
  [("CraneBootstrap", deployment), ("BootstrapRole", "worker"), ("CraneHostID", op.hostId), ("CraneOperationID", op.id),
    ("CraneNodeGroupID", op.nodeGroupId), ("CraneZoneID", op.zoneId), ("CraneClusterID", op.clusterId),
    ("CraneNodePoolID", op.nodePoolId), ("CraneTemplateRevision", op.templateRevision),
    ("Name", "crane-" ++ op.capacityClass ++ "-" ++ op.hostId)]

/-- the checks of `LaunchWorker` in order, and the request it sends when all pass -/
def runInstancesInput (r : Runtime) (op : Operation) (facts : LaunchFacts) : Option RunInstancesInput := do
  let p ← (LaunchParameters.decode op.launchParameters).filter LaunchParameters.complete
  guard (op.provider = "aws" ∧ op.region = r.region ∧ op.providerZoneId ≠ "" ∧ op.providerToken ≠ "" ∧ op.hostId ≠ "")
  let tags ← facts.imageTags
  let metadata := fun name => (tags.lookup name).getD ""
  guard (metadata "CraneImage" = "v2" ∧ metadata "SpireServerAddress" ≠ "" ∧ metadata "SpireTrustDomain" = r.trustDomain ∧
    metadata "SpireBundleParameter" ≠ "" ∧ metadata "AWSRegion" = r.region)
  let deployment ← deploymentNameFromBundleParameter (metadata "SpireBundleParameter")
  guard (p.instanceProfile = deployment ++ "-worker" ∧ op.scheduling.instanceType = p.instanceType ∧
    op.scheduling.region = r.region ∧ op.scheduling.zone = op.providerZoneId)
  let (az, vpc) ← facts.subnets.bind fun l => match l with | [s] => some s | _ => none
  guard (az = op.providerZoneId)
  let groups ← facts.groups
  guard (groups.length = p.securityGroupIds.length ∧ ∀ g ∈ groups, g = vpc)
  return { imageId := p.imageId, instanceType := p.instanceType, clientToken := op.providerToken,
           instanceProfile := p.instanceProfile, subnetId := p.subnetId, groups := p.securityGroupIds,
           publicIp := p.associatePublicIp.getD true, tags := launchTags op deployment }

/-- capacity.ProvisionResult -/
structure ProvisionResult where
  kubernetesProviderId : String
  providerId : String
  privateIp : AddressText
deriving DecidableEq, Repr

/-! ## The provider -/

structure Instance where
  id : String
  zone : String -- availability zone of its subnet
  privateIp : AddressText
  input : RunInstancesInput
deriving DecidableEq, Repr

/-- aws:///zone/id -/
def kubernetesProviderId (zone id : String) : String := "aws:///" ++ zone ++ "/" ++ id

/-- what `LaunchWorker` makes of the returned instance -/
def launchResult (op : Operation) (i : Instance) : Option ProvisionResult :=
  if i.id = "" ∨ i.privateIp.text = "" then none
  else some ⟨kubernetesProviderId op.providerZoneId i.id, i.id, i.privateIp⟩

/-- all instances ever created -/
abbrev Cloud := List Instance

/-- one request at the provider; `new` is the instance it creates for a new token, with an unused ID -/
def runInstances (c : Cloud) (new : Instance) : Option (Cloud × Instance) :=
  match c.find? fun i => i.input.clientToken = new.input.clientToken with
  | some i => if i.input = new.input then some (c, i) else none
  | none => if new.id ∈ c.map Instance.id then none else some (c ++ [new], new)

/-- what the outside contributes to one launch: the executor's cluster check, the Describe answers, whether the request
reaches the provider, the identity of a new instance, and whether the answer comes back -/
structure LaunchAnswer where
  cluster : Bool := true
  facts : LaunchFacts
  reaches : Bool := true
  id : String
  ip : AddressText
  lost : Bool := false
deriving DecidableEq, Repr

/-- `ProvisionExecutor.Launch`: the provider afterwards, the result or an error, and whether the provider was called -/
def launch (r : Runtime) (c : Cloud) (op : Operation) (a : LaunchAnswer) : Cloud × Option ProvisionResult × Bool :=
  if a.cluster = false then (c, none, false)
  else match runInstancesInput r op a.facts with
    | none => (c, none, false)
    | some input =>
      if a.reaches = false then (c, none, true)
      -- the checks compared the zone of the subnet with the operation's
      else match runInstances c ⟨a.id, op.providerZoneId, a.ip, input⟩ with
        | none => (c, none, true)
        | some (c', i) => (c', if a.lost then none else launchResult op i, true)

/-! ## What a launch can do -/

/-- the request carries the operation's token and tags -/
structure RunInstancesInput.IsFor (input : RunInstancesInput) (op : Operation) : Prop where
  token : input.clientToken = op.providerToken
  tags : ∃ deployment, input.tags = launchTags op deployment

theorem runInstancesInput_isFor {r : Runtime} {op : Operation} {facts : LaunchFacts} {input : RunInstancesInput}
    (h : runInstancesInput r op facts = some input) : input.IsFor op := by
  simp only [runInstancesInput, Option.bind_eq_bind, Option.bind_eq_some_iff, pure] at h
  obtain ⟨p, -, -, -, tags, -, -, -, deployment, -, -, -, ⟨az, vpc⟩, -, -, -, groups, -, -, -, h⟩ := h
  obtain rfl := Option.some.inj h
  exact ⟨rfl, deployment, rfl⟩

/-- the provider answered with the one instance of the token, an old one or a new one -/
theorem runInstances_spec {c c' : Cloud} {new i : Instance} (h : runInstances c new = some (c', i)) :
    i ∈ c' ∧ i.input = new.input ∧ (c' = c ∨ (c' = c ++ [new] ∧ new.id ∉ c.map Instance.id ∧
      ∀ j ∈ c, j.input.clientToken ≠ new.input.clientToken)) := by
  unfold runInstances at h
  split at h
  · rename_i j hj
    simp only [Option.ite_none_right_eq_some, Option.some.injEq, Prod.mk.injEq] at h
    obtain ⟨hin, rfl, rfl⟩ := h
    exact ⟨List.mem_of_find?_eq_some hj, hin, .inl rfl⟩
  · rename_i hnone
    simp only [Option.ite_none_left_eq_some, Option.some.injEq, Prod.mk.injEq] at h
    obtain ⟨hid, rfl, rfl⟩ := h
    exact ⟨by simp, rfl, .inr ⟨rfl, hid, fun j hj => by simpa using List.find?_eq_none.mp hnone j hj⟩⟩

/-- the instances after a launch: those before, and at most one new one, of a new token -/
structure Launched (c c' : Cloud) (op : Operation) : Prop where
  old : c ⊆ c'
  new : ∀ i ∈ c', i ∈ c ∨ (i.input.IsFor op ∧ i.zone = op.providerZoneId ∧ i.id ∉ c.map Instance.id ∧
    (∀ j ∈ c, j.input.clientToken ≠ i.input.clientToken) ∧ c' = c ++ [i])

theorem Launched.refl (c : Cloud) (op : Operation) : Launched c c op := ⟨List.Subset.refl _, fun _ h => .inl h⟩

theorem launch_spec (r : Runtime) (c : Cloud) (op : Operation) (a : LaunchAnswer) :
    Launched c (launch r c op a).1 op ∧ ∀ res, (launch r c op a).2.1 = some res →
      ∃ i ∈ (launch r c op a).1, i.input.clientToken = op.providerToken ∧ i.id ≠ "" ∧
        res = ⟨kubernetesProviderId op.providerZoneId i.id, i.id, i.privateIp⟩ := by
  unfold launch
  split
  · exact ⟨.refl c op, by simp⟩
  split
  · exact ⟨.refl c op, by simp⟩
  rename_i input hin
  have hfor := runInstancesInput_isFor hin
  split
  · exact ⟨.refl c op, by simp⟩
  split
  · exact ⟨.refl c op, by simp⟩
  rename_i c' i hrun
  obtain ⟨hmem, hinput, hcases⟩ := runInstances_spec hrun
  refine ⟨?_, fun res hres => ?_⟩
  · rcases hcases with rfl | ⟨rfl, hid, htok⟩
    · exact .refl c' op
    · refine ⟨List.subset_append_left _ _, fun j hj => ?_⟩
      rcases List.mem_append.mp hj with hj | hj
      · exact .inl hj
      · obtain rfl := List.mem_singleton.mp hj
        exact .inr ⟨hfor, rfl, hid, htok, rfl⟩
  · simp only [launchResult, Option.ite_none_left_eq_some, not_or, Option.some.injEq] at hres
    obtain ⟨-, ⟨hid, -⟩, rfl⟩ := hres
    exact ⟨i, hmem, by rw [hinput]; exact hfor.token, hid, rfl⟩

end Crane.Provider
