/-
The provider-independent configuration of a bootstrap (`internal/bootstrap/config.go`) and the first zone it describes
(`internal/bootstrap/artifacts.go`).

Regular expressions are predicates on the characters of a text. Go visits a map of values to check in any order; here it is
the order of the source, so that of several errors one is fixed. Texts of encoding/json's own errors are left out
(`jsonError` stands for all of them).
-/
import Crane.Lib.Checks
import Crane.Lib.Ipv4
import Crane.Lib.JsonValue
import Crane.Subd.Persistence
import Crane.Topology.Catalog

namespace Crane.Bootstrap

open Checks Capacity Crane.Topology

/-! ## Texts -/

/-- `^[a-z][a-z0-9-]{2,29}$` -/
def deploymentName (s : String) : Bool :=
  match s.toList with
  | c :: cs => c.isLower && 2 ≤ cs.length && cs.length ≤ 29 && cs.all fun c => lowerAlnum c || c = '-'
  | [] => false

/-- `^[a-z][a-z0-9-]*$` -/
def providerName (s : String) : Bool :=
  match s.toList with
  | c :: cs => c.isLower && cs.all fun c => lowerAlnum c || c = '-'
  | [] => false

/-- `[0-9]+` -/
def digits (cs : List Char) : Bool := cs ≠ [] && cs.all Char.isDigit

/-- `[0-9]+\.[0-9]+\.[0-9]+` -/
def releaseChars (cs : List Char) : Bool := (cs.splitOn '.').length = 3 && (cs.splitOn '.').all digits

/-- `^[0-9]+\.[0-9]+\.[0-9]+$` -/
def releaseVersion (s : String) : Bool := releaseChars s.toList

/-- `^v[0-9]+\.[0-9]+\.[0-9]+$` -/
def kubernetesVersion (s : String) : Bool :=
  match s.toList with
  | 'v' :: cs => releaseChars cs
  | _ => false

/-- `^[a-z0-9][a-z0-9.-]*[a-z0-9]$` -/
def trustDomain (s : String) : Bool :=
  2 ≤ s.toList.length && fenced (fun c => lowerAlnum c || c = '.' || c = '-') lowerAlnum s.toList

/-- `[a-f0-9]` -/
def hexDigit (c : Char) : Bool := c.isDigit || ('a' ≤ c && c ≤ 'f')

/-- `[a-z0-9][a-z0-9./:_-]*` -/
def imageName : List Char → Bool
  | c :: cs => lowerAlnum c && cs.all fun c => lowerAlnum c || c = '.' || c = '/' || c = ':' || c = '_' || c = '-'
  | [] => false

/-- `:v?[0-9]+\.[0-9]+\.[0-9]+|:[a-f0-9]{40}|@sha256:[a-f0-9]{64}` -/
def imagePin : List Char → Bool
  | ':' :: 'v' :: cs => releaseChars cs
  | ':' :: cs => releaseChars cs || (cs.length = 40 && cs.all hexDigit)
  | '@' :: cs => "sha256:".toList.isPrefixOf cs && (cs.drop 7).length = 64 && (cs.drop 7).all hexDigit
  | [] => false
  | _ :: _ => false

/-- an image reference that names a release or a digest -/
def pinnedImage (ref : String) : Bool :=
  (List.range (ref.toList.length + 1)).any fun k => imageName (ref.toList.take k) && imagePin (ref.toList.drop k)

/-- a canonical IPv4 CIDR; IPv6 is refused as a text that is none -/
def canonicalPrefix (s : String) : Option Ipv4.Prefix := (Ipv4.parsePrefix s).filter fun p => p = p.masked

/-! ## Configuration -/

/-- a json.RawMessage: nothing, a text that is not one JSON document, or a document -/
inductive RawMessage where
  | empty
  | malformed
  | doc (j : Json)
deriving DecidableEq, Repr, Inhabited

/-- its integers are at most 2^53 in magnitude -/
def RawMessage.exact : RawMessage → Bool
  | .doc j => j.exact
  | .empty => true
  | .malformed => true

structure SpireConfig where
  version : String := ""
  trustDomain : String := ""
  image : String := ""
deriving DecidableEq, Repr, Inhabited

structure PlatformConfig where
  craneApiImage : String := ""
  dominatorImage : String := ""
  kubernetesVersion : String := ""
  ciliumVersion : String := ""
  podCidr : String := ""
deriving DecidableEq, Repr, Inhabited

structure Config where
  developmentStage : String := ""
  groupSuffix : String := ""
  version : ℤ := 0
  name : String := ""
  provider : String := ""
  providerConfig : RawMessage := .empty
  spire : SpireConfig := {}
  platform : PlatformConfig := {}
  firstZone : RawMessage := .empty
deriving DecidableEq, Repr, Inhabited

/-- `if s == "" { s = d }` -/
def orDefault (s d : String) : String := if s = "" then d else s

/-- a first zone that is null is none -/
def RawMessage.nonNull : RawMessage → RawMessage
  | .doc .null => .empty
  | m => m

def Config.withDefaults (c : Config) : Config :=
  { c with
    name := orDefault c.name "crane-platform"
    spire := { c.spire with
      version := orDefault c.spire.version "1.9.3"
      trustDomain := orDefault c.spire.trustDomain "crane.internal" }
    platform := { c.platform with
      kubernetesVersion := orDefault c.platform.kubernetesVersion "v1.35.0"
      ciliumVersion := orDefault c.platform.ciliumVersion "1.19.0"
      podCidr := orDefault c.platform.podCidr "10.244.0.0/16" }
    firstZone := c.firstZone.nonNull }

/-! ## The first zone -/

def jsonError : String := "json"

section Codecs
open Codec

def zoneInput : Codec ZoneInput := record true [
  field "id" (·.id) (fun v z => { z with id := v }) text,
  field "provider" (·.provider) (fun v z => { z with provider := v }) text,
  field "account_id" (·.accountId) (fun v z => { z with accountId := v }) text,
  field "region" (·.region) (fun v z => { z with region := v }) text,
  field "provider_zone_id" (·.providerZoneId) (fun v z => { z with providerZoneId := v }) text,
  omitempty "kubernetes_region" (·.kubernetesRegion) (fun v z => { z with kubernetesRegion := v }) text (· = ""),
  omitempty "kubernetes_zone" (·.kubernetesZone) (fun v z => { z with kubernetesZone := v }) text (· = "")]

def clusterInput : Codec ClusterInput := record true [
  field "id" (·.id) (fun v c => { c with id := v }) text,
  field "api_server_endpoint" (·.apiServerEndpoint) (fun v c => { c with apiServerEndpoint := v }) text,
  field "ca_cert_hash" (·.caCertHash) (fun v c => { c with caCertHash := v }) text,
  field "kubeadm_version" (·.kubeadmVersion) (fun v c => { c with kubeadmVersion := v }) text,
  field "kubelet_version" (·.kubeletVersion) (fun v c => { c with kubeletVersion := v }) text,
  field "container_runtime" (·.containerRuntime) (fun v c => { c with containerRuntime := v }) text,
  field "cni" (·.cni) (fun v c => { c with cni := v }) text]

def membershipInput : Codec ClusterZoneInput := record true [
  field "cluster_id" (·.clusterId) (fun v m => { m with clusterId := v }) text,
  field "zone_id" (·.zoneId) (fun v m => { m with zoneId := v }) text,
  field "lifecycle_state" (·.lifecycleState) (fun v m => { m with lifecycleState := v }) text,
  field "access_state" (·.accessState) (fun v m => { m with accessState := v }) text]

def resources : Codec Resources := record true [
  field "vcpu" (·.vcpu) (fun v r => { r with vcpu := v }) int64,
  field "memory_mib" (·.memoryMib) (fun v r => { r with memoryMib := v }) int64,
  field "nodes" (·.nodes) (fun v r => { r with nodes := v }) int64]

def poolInput : Codec NodePoolInput := record true [
  field "id" (·.id) (fun v p => { p with id := v }) text,
  field "limits" (·.limits) (fun v p => { p with limits := v }) resources]

def groupNaming : Codec NodeGroupNaming := record true [
  field "provider" (·.provider) (fun v n => { n with provider := v }) text,
  field "development_stage" (·.developmentStage) (fun v n => { n with developmentStage := v }) text,
  field "region" (·.region) (fun v n => { n with region := v }) text,
  field "az" (·.az) (fun v n => { n with az := v }) text,
  field "group" (·.group) (fun v n => { n with group := v }) text]

/-- launch parameters are kept as they are, null included -/
def launchParameters : Codec (Option Json) where
  enc := (·.getD .null)
  into _ j := some (some j)

/-- the resources of a node; a group does not use their number of nodes -/
def NodeGroupInput.perNode (g : NodeGroupInput) : Resources := ⟨g.vcpu, g.memoryMib, 0⟩

def groupInput : Codec NodeGroupInput := record true [
  field "naming" (·.naming) (fun v g => { g with naming := v }) groupNaming,
  field "id" (·.id) (fun v g => { g with id := v }) text,
  field "cluster_id" (·.clusterId) (fun v g => { g with clusterId := v }) text,
  field "node_pool_id" (·.nodePoolId) (fun v g => { g with nodePoolId := v }) text,
  field "zone_id" (·.zoneId) (fun v g => { g with zoneId := v }) text,
  field "capacity_class" (·.capacityClass) (fun v g => { g with capacityClass := v }) text,
  field "provider_zone_id" (·.providerZoneId) (fun v g => { g with providerZoneId := v }) text,
  field "min_nodes" (·.minNodes) (fun v g => { g with minNodes := v }) int64,
  field "max_nodes" (·.maxNodes) (fun v g => { g with maxNodes := v }) int64,
  field "template_revision" (·.templateRevision) (fun v g => { g with templateRevision := v }) text,
  field "per_node" NodeGroupInput.perNode (fun v g => { g with vcpu := v.vcpu, memoryMib := v.memoryMib }) resources,
  field "launch_parameters" (·.launchParameters) (fun v g => { g with launchParameters := v }) launchParameters,
  field "scheduling" (·.scheduling) (fun v g => { g with scheduling := v }) (Subd.schedulingTemplate true)]

def firstZoneInput : Codec FirstZoneInput := record true [
  field "zone" (·.zone) (fun v i => { i with zone := v }) zoneInput,
  field "cluster" (·.cluster) (fun v i => { i with cluster := v }) clusterInput,
  field "membership" (·.membership) (fun v i => { i with membership := v }) membershipInput,
  field "pool" (·.pool) (fun v i => { i with pool := v }) poolInput,
  field "group" (·.group) (fun v i => { i with group := v }) groupInput]

end Codecs

/-- the zero value -/
def noFirstZone : FirstZoneInput where
  zone := ⟨"", "", "", "", "", "", ""⟩
  cluster := ⟨"", "", "", "", "", "", ""⟩
  membership := ⟨"", "", "", ""⟩
  pool := ⟨"", ⟨0, 0, 0⟩⟩
  group := {
    naming := ⟨"", "", "", "", ""⟩, clusterId := "", nodePoolId := "", zoneId := "", capacityClass := ""
    providerZoneId := "", minNodes := 0, maxNodes := 0, templateRevision := "", vcpu := 0, memoryMib := 0
    launchParameters := none }

/-- the zone of a configuration that describes none -/
def defaultFirstZone (cfg : Config) : FirstZoneInput :=
  { noFirstZone with
    zone := { noFirstZone.zone with id := cfg.name ++ "-zone" }
    cluster := { noFirstZone.cluster with id := cfg.name ++ "-cluster" }
    pool := ⟨cfg.name ++ "-pool", ⟨32, 65536, 8⟩⟩
    group := { noFirstZone.group with
      naming := ⟨cfg.provider, cfg.developmentStage, "", "", cfg.groupSuffix⟩
      maxNodes := 8, capacityClass := "on-demand", templateRevision := "bootstrap-v3", vcpu := 2, memoryMib := 4096 } }

def decodeFirstZone (cfg : Config) : Except String FirstZoneInput :=
  match cfg.firstZone with
  | .empty => .ok (defaultFirstZone cfg)
  | .malformed => .error jsonError
  | .doc j => match firstZoneInput.into noFirstZone j with
    | some i => .ok i
    | none => .error jsonError

/-- a reference that is left out, or names its owner -/
def refersTo (ref id : String) : Prop := ref = "" ∨ ref = id

instance (ref id : String) : Decidable (refersTo ref id) := inferInstanceAs (Decidable (_ ∨ _))

/-- the parts get the identities and versions of the deployment -/
def ownedBy (cfg : Config) (i : FirstZoneInput) : FirstZoneInput :=
  { i with
    membership := { i.membership with clusterId := i.cluster.id, zoneId := i.zone.id }
    cluster := ⟨i.cluster.id, "", "", cfg.platform.kubernetesVersion, cfg.platform.kubernetesVersion, "containerd", "cilium"⟩
    group := { i.group with zoneId := i.zone.id, clusterId := i.cluster.id, nodePoolId := i.pool.id } }

def namingError : String :=
  "node-group naming requires provider, development_stage, region, az and group using lowercase alphanumeric components " ++
    "with internal hyphens"

/-- `NormalizeID`, with its errors -/
def normalizeId (g : NodeGroupInput) : Except String NodeGroupInput := do
  let _ ← orError (formatNodeGroupId g.naming) namingError
  orError g.normalizeId "node-group ID does not match naming inputs"

def firstZone (cfg : Config) : Except String FirstZoneInput := do
  let i ← decodeFirstZone cfg
  ensure ((formatNodeGroupId ⟨cfg.provider, cfg.developmentStage, "placement", "placement", cfg.groupSuffix⟩).isSome = true)
    namingError
  ensure (i.group.naming.developmentStage = cfg.developmentStage ∧ i.group.naming.group = cfg.groupSuffix ∧
      i.group.naming.provider = cfg.provider)
    "first-zone naming conflicts with deployment configuration"
  ensure (i.zone.id ≠ "" ∧ i.cluster.id ≠ "" ∧ i.pool.id ≠ "" ∧ i.group.minNodes = 0 ∧ 0 ≤ i.group.maxNodes ∧
      0 < i.group.vcpu ∧ 0 < i.group.memoryMib)
    "first_zone requires IDs, positive per_node resources and min_nodes=0 for the initial zero target"
  ensure (0 ≤ i.pool.limits.vcpu ∧ 0 ≤ i.pool.limits.memoryMib ∧ 0 ≤ i.pool.limits.nodes)
    "first_zone pool limits must be nonnegative"
  ensure (refersTo i.membership.clusterId i.cluster.id ∧ refersTo i.membership.zoneId i.zone.id ∧
      refersTo i.group.zoneId i.zone.id ∧ refersTo i.group.clusterId i.cluster.id ∧ refersTo i.group.nodePoolId i.pool.id)
    "first-zone input has inconsistent ownership"
  return ownedBy cfg i

/-- checks provider-supplied identity and placement -/
def validateTopology (i : FirstZoneInput) : Except String Unit := do
  ensure (i.zone.provider ≠ "" ∧ i.zone.accountId ≠ "" ∧ i.zone.region ≠ "" ∧ i.zone.providerZoneId ≠ "")
    "provider must supply zone identity and placement"
  ensure (i.membership.clusterId = i.cluster.id ∧ i.membership.zoneId = i.zone.id ∧ i.group.zoneId = i.zone.id ∧
      i.group.clusterId = i.cluster.id ∧ i.group.nodePoolId = i.pool.id ∧ i.group.providerZoneId = i.zone.providerZoneId)
    "first-zone topology has inconsistent ownership or placement"
  ensure (i.group.normalizeId.isSome = true ∧ i.group.naming.provider = i.zone.provider ∧
      i.group.naming.region = i.zone.region)
    "invalid first-zone group naming or placement"
  ensure (i.group.launchParameters.isSome = true) "provider must supply valid launch parameters"

theorem normalizeId_ok {g g' : NodeGroupInput} : normalizeId g = .ok g' ↔ g.normalizeId = some g' := by
  simp only [normalizeId, bind_ok, orError_ok]
  constructor
  · rintro ⟨_, -, h⟩
    exact h
  · intro h
    obtain ⟨id, hid, -⟩ := Option.bind_eq_some_iff.mp h
    exact ⟨id, hid, h⟩

/-- an ID is normalized whatever the launch parameters are -/
theorem normalizeId_launch (g : NodeGroupInput) (l : Option Json) :
    NodeGroupInput.normalizeId { g with launchParameters := l } =
      g.normalizeId.map fun g => { g with launchParameters := l } := by
  unfold NodeGroupInput.normalizeId
  cases formatNodeGroupId g.naming with
  | none => rfl
  | some id =>
    simp only [Option.bind_some]
    split_ifs <;> rfl

/-- a topology only asks whether there are launch parameters -/
theorem validateTopology_launch (i : FirstZoneInput) (j j' : Json) :
    validateTopology { i with group := { i.group with launchParameters := some j } } =
      validateTopology { i with group := { i.group with launchParameters := some j' } } := by
  simp only [validateTopology, normalizeId_launch, Option.isSome_map, Option.isSome_some]

/-! ## Validation -/

/-- a JSON object -/
def RawMessage.isObject : RawMessage → Bool
  | .doc (.obj _) => true
  | _ => false

def checkVersion (f : String × String) : Except String Unit :=
  ensure (releaseVersion f.2 = true) (f.1 ++ " must be an exact release version")

def checkImage (f : String × String) : Except String Unit :=
  ensure (f.2 = "" ∨ pinnedImage f.2 = true) (f.1 ++ " must be a pinned image reference")

/-- the checks of `Validate`, on a configuration with its defaults -/
def Config.check (c : Config) : Except String Unit := do
  ensure (c.version = 3) ("unsupported bootstrap config version " ++ toString c.version ++ "; use version 3")
  ensure (deploymentName c.name = true)
    "name must be 3-30 lowercase letters, digits or hyphens, starting with a letter"
  ensure (providerName c.provider = true) "provider is required and must be a lowercase identifier"
  ensure (c.providerConfig.isObject = true) "provider_config must be a JSON object"
  forEach checkVersion [("spire.version", c.spire.version), ("platform.cilium_version", c.platform.ciliumVersion)]
  ensure (Bootstrap.kubernetesVersion c.platform.kubernetesVersion = true)
    "platform.kubernetes_version must be an exact v-prefixed version"
  ensure (Bootstrap.trustDomain c.spire.trustDomain = true) "invalid spire.trust_domain"
  checkImage ("spire.image", c.spire.image)
  forEach checkImage [("platform.crane_api_image", c.platform.craneApiImage),
    ("platform.dominator_image", c.platform.dominatorImage)]
  ensure ((canonicalPrefix c.platform.podCidr).isSome = true) "platform.pod_cidr must be a canonical IPv4 CIDR"
  let _ ← Bootstrap.firstZone c
  return ()

def Config.validate (c : Config) : Except String Unit := c.withDefaults.check

/-! ## Defaults -/

theorem orDefault_ne_empty {s d : String} (h : d ≠ "") : orDefault s d ≠ "" := by
  unfold orDefault
  split_ifs with hs
  · exact h
  · exact hs

@[simp] theorem orDefault_orDefault (s d : String) : orDefault (orDefault s d) d = orDefault s d := by
  unfold orDefault
  split_ifs <;> simp_all

@[simp] theorem RawMessage.nonNull_nonNull (m : RawMessage) : m.nonNull.nonNull = m.nonNull := by
  cases m with
  | empty => rfl
  | malformed => rfl
  | doc j => cases j <;> rfl

/-- defaults are filled once -/
@[simp] theorem Config.withDefaults_withDefaults (c : Config) : c.withDefaults.withDefaults = c.withDefaults := by
  simp [Config.withDefaults]

theorem Config.validate_withDefaults (c : Config) : c.withDefaults.validate = c.validate := by
  simp [Config.validate]

/-! ## Filling what is empty -/

/-- a choice that is empty may be filled, and any other stays -/
def FilledImage (old new : String) : Prop := old = "" ∨ new = old

theorem FilledImage.trans {a b c : String} (h : FilledImage a b) (h' : FilledImage b c) : FilledImage a c := by
  rcases h with h | rfl
  · exact .inl h
  · exact h'

theorem orDefault_eq_iff {a b : String} : orDefault a b = b ↔ a = "" ∨ a = b := by
  unfold orDefault
  split_ifs with h <;> simp [h]

/-- filling in both directions makes two IDs equal iff one is empty or they are equal already -/
theorem orDefault_both_iff {a b : String} : orDefault a b = orDefault b (orDefault a b) ↔ a = "" ∨ FilledImage b a := by
  unfold orDefault FilledImage
  split_ifs <;> simp_all

theorem filledImage_orDefault (a b : String) : FilledImage a (orDefault a b) := by
  unfold FilledImage orDefault
  split_ifs with h
  · exact .inl h
  · exact .inr rfl

/-- a choice that was left empty, or is the same, comes from the other side -/
theorem orDefault_filled {a b : String} (h : FilledImage a b) : orDefault a b = b := orDefault_eq_iff.mpr (h.imp_right Eq.symm)

end Crane.Bootstrap
