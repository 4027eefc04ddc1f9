/-
The AWS configuration of a bootstrap (`internal/provider/awscompute/bootstrap_config.go`), its split into shared
configuration and AWS settings (`bootstrap_session.go`), and the first zone on AWS (`bootstrap_artifacts.go`).

`validate` only asks whether a subnet's first address lies in the VPC, and compares subnets by their leading bits. Because
every prefix is canonical and subnets are longer than the VPC, this decides the whole ranges: an accepted network plan has
four subnets properly inside the VPC, no address in two of them, and no address of the pods in the VPC.

Slices are optional lists, because a nil slice and an empty one differ once they are written as JSON. Quoting of a text in
an error (%q) adds the quotes only.
-/
import Crane.Bootstrap.Config

namespace Crane.Bootstrap.Aws

open Checks Capacity Crane.Topology Sequences

/-! ## Configuration -/

/-- a []string; `none` is nil -/
abbrev Slice := Option (List String)

def Slice.items (s : Slice) : List String := s.getD []

structure AwsConfig where
  region : String := ""
  accountId : String := ""
deriving DecidableEq, Repr, Inhabited

structure NetworkConfig where
  vpcCidr : String := ""
  publicSubnetCidrs : Slice := none
  privateSubnetCidrs : Slice := none
  availabilityZones : Slice := none
  vpcId : String := ""
  privateSubnetIds : Slice := none
  rdSecurityGroupId : String := ""
  rdSecurityGroupName : String := ""
  postgresIngressSecurityGroupId : String := ""
  dbSubnetGroupName : String := ""
  spireSecurityGroupId : String := ""
deriving DecidableEq, Repr, Inhabited

structure SpireConfig where
  version : String := ""
  amiId : String := ""
  instanceType : String := ""
  iamInstanceProfile : String := ""
  keyName : String := ""
  storageGib : Int32 := 0
  trustDomain : String := ""
  image : String := ""
deriving DecidableEq, Repr, Inhabited

/-- pins the initial platform cluster and its protected host -/
structure PlatformConfig where
  craneApiImage : String := ""
  dominatorImage : String := ""
  amiId : String := ""
  instanceType : String := ""
  storageGib : Int32 := 0
  kubernetesVersion : String := ""
  ciliumVersion : String := ""
  podCidr : String := ""
deriving DecidableEq, Repr, Inhabited

structure RdsConfig where
  identifier : String := ""
  engine : String := ""
  engineVersion : String := ""
  instanceClass : String := ""
  storageGib : Int32 := 0
  deletionProtection : Bool := false
  masterUsername : String := ""
  port : Int32 := 0
  multiAz : Bool := false
  storageType : String := ""
  manageMasterUserPassword : Bool := false
  databases : Slice := none
deriving DecidableEq, Repr, Inhabited

structure BootstrapConfig where
  developmentStage : String := ""
  groupSuffix : String := ""
  name : String := ""
  aws : AwsConfig := {}
  network : NetworkConfig := {}
  spire : SpireConfig := {}
  rds : RdsConfig := {}
  platform : PlatformConfig := {}
  firstZone : RawMessage := .empty
deriving DecidableEq, Repr, Inhabited

/-- `if n == 0 { n = d }` -/
def orNumber (n d : Int32) : Int32 := if n = 0 then d else n

/-- `if len(s) == 0 { s = d }` -/
def orItems (s : Slice) (d : List String) : Slice := if s.items = [] then some d else s

def NetworkConfig.withDefaults (n : NetworkConfig) : NetworkConfig :=
  { n with
    vpcCidr := orDefault n.vpcCidr "10.80.0.0/16"
    publicSubnetCidrs := orItems n.publicSubnetCidrs ["10.80.0.0/24", "10.80.1.0/24"]
    privateSubnetCidrs := orItems n.privateSubnetCidrs ["10.80.16.0/24", "10.80.17.0/24"]
    rdSecurityGroupName := orDefault n.rdSecurityGroupName "spire-rds-sg" }

def SpireConfig.withDefaults (s : SpireConfig) : SpireConfig :=
  { s with
    version := orDefault s.version "1.9.3"
    instanceType := orDefault s.instanceType "t3.small"
    storageGib := orNumber s.storageGib 20
    trustDomain := orDefault s.trustDomain "crane.internal" }

def PlatformConfig.withDefaults (p : PlatformConfig) : PlatformConfig :=
  { p with
    instanceType := orDefault p.instanceType "t3.medium"
    storageGib := orNumber p.storageGib 40
    kubernetesVersion := orDefault p.kubernetesVersion "v1.35.0"
    ciliumVersion := orDefault p.ciliumVersion "1.19.0"
    podCidr := orDefault p.podCidr "10.244.0.0/16" }

/-- `name` is the deployment's, with its default -/
def RdsConfig.withDefaults (r : RdsConfig) (name : String) : RdsConfig :=
  { r with
    identifier := orDefault r.identifier (name ++ "-db")
    engine := orDefault r.engine "postgres"
    instanceClass := orDefault r.instanceClass "db.t3.micro"
    storageGib := orNumber r.storageGib 20
    manageMasterUserPassword := true
    deletionProtection := true
    masterUsername := orDefault r.masterUsername "postgres"
    port := orNumber r.port 5432
    storageType := orDefault r.storageType "gp3"
    databases := orItems r.databases ["spire", "crane"] }

def BootstrapConfig.withDefaults (c : BootstrapConfig) : BootstrapConfig :=
  { c with
    firstZone := c.firstZone.nonNull
    name := orDefault c.name "crane-platform"
    network := c.network.withDefaults
    spire := c.spire.withDefaults
    platform := c.platform.withDefaults
    rds := c.rds.withDefaults (orDefault c.name "crane-platform") }

/-! ## The first zone on AWS -/

/-- what the discovery of a deployment's resources has found, as far as the first zone uses it -/
structure Infrastructure where
  availabilityZones : List String
  publicSubnetIds : List String
  workerProfile : String := ""
  platformSecurityGroupId : String := ""
deriving DecidableEq, Repr, Inhabited

def sharedConfig (cfg : BootstrapConfig) : Config where
  version := 3
  name := cfg.name
  developmentStage := cfg.developmentStage
  groupSuffix := cfg.groupSuffix
  provider := "aws"
  providerConfig := .doc (.obj [])
  firstZone := cfg.firstZone
  spire := ⟨cfg.spire.version, cfg.spire.trustDomain, cfg.spire.image⟩
  platform := ⟨cfg.platform.craneApiImage, cfg.platform.dominatorImage, cfg.platform.kubernetesVersion,
    cfg.platform.ciliumVersion, cfg.platform.podCidr⟩

/-- strings.TrimPrefix(zone, region), if it is one letter -/
def standardZone (region zone : String) : Option String :=
  let rest := if region.toList.isPrefixOf zone.toList then zone.toList.drop region.toList.length else zone.toList
  match rest with
  | [c] => if 'a' ≤ c ∧ c ≤ 'z' then some (String.ofList [c]) else none
  | _ => none

/-- identity and placement come from AWS -/
def placed (cfg : BootstrapConfig) (zone az : String) (i : FirstZoneInput) : FirstZoneInput :=
  { i with
    zone := { i.zone with
      provider := "aws", accountId := cfg.aws.accountId, region := cfg.aws.region, providerZoneId := zone }
    group := { i.group with
      providerZoneId := zone
      naming := { i.group.naming with region := cfg.aws.region, az := az }
      scheduling := if i.group.scheduling.instanceType = "" then
          { instanceType := cfg.platform.instanceType, architecture := "amd64", region := cfg.aws.region, zone := zone }
        else i.group.scheduling } }

/-- the launch parameters a first zone gives, by default those of the platform host -/
def launchDocument (cfg : BootstrapConfig) (i : FirstZoneInput) : Json :=
  i.group.launchParameters.getD
    (.obj [("image_id", .str cfg.platform.amiId), ("instance_type", .str cfg.platform.instanceType)])

def decodeLaunch (j : Json) : Except String (List (String × Json)) :=
  match j.decodeAny with
  | some (.obj m) => .ok m
  | _ => .error "first-zone launch parameters must be a JSON object"

/-- the deployment's own security group is one of the groups -/
def securityGroups (m : List (String × Json)) (own : String) : List Json :=
  let ids := match m.lookup "security_group_ids" with
    | some (.arr ids) => ids
    | _ => []
  if .str own ∈ ids then ids else ids ++ [.str own]

/-- the discovered resources go into the launch parameters -/
def completeLaunch (infra : Infrastructure) (subnet : String) (m : List (String × Json)) : Json :=
  let m := put "subnet_id" (.str subnet) m
  let m := put "iam_instance_profile" (.str infra.workerProfile) m
  let m := if (m.lookup "associate_public_ip_address").isSome then m else put "associate_public_ip_address" (.bool true) m
  .obj (put "security_group_ids" (.arr (securityGroups m infra.platformSecurityGroupId)) m)

/-- the subnet of the zone, at its index -/
def deploymentSubnet (infra : Infrastructure) (zone : String) : Option String :=
  (infra.availabilityZones.idxOf? zone).bind fun k => infra.publicSubnetIds[k]?

def topology (cfg : BootstrapConfig) (infra : Infrastructure) : Except String FirstZoneInput := do
  let i ← firstZone (sharedConfig cfg)
  ensure (infra.availabilityZones ≠ [] ∧ infra.publicSubnetIds ≠ [])
    "network discovery returned no platform availability zone/subnet"
  let zone := infra.availabilityZones.headD ""
  -- AWS standard AZ names map explicitly; generic bootstrap never splits IDs
  let az ← orError (standardZone cfg.aws.region zone)
    "AWS placement requires a standard availability zone naming mapping"
  ensure (refersTo i.group.naming.region cfg.aws.region ∧ refersTo i.group.naming.az az)
    "group naming conflicts with AWS placement"
  let g ← normalizeId (placed cfg zone az i).group
  let launch ← decodeLaunch (launchDocument cfg i)
  let subnet ← orError (deploymentSubnet infra zone) "zone has no deployment subnet"
  let i := { placed cfg zone az i with group := { g with launchParameters := some (completeLaunch infra subnet launch) } }
  -- during local configuration validation the account may be discovered later
  if cfg.aws.accountId ≠ "" then
    validateTopology i
    return i
  else return i

/-! ## Validation -/

/-- unicode.IsSpace -/
def isSpace (c : Char) : Bool :=
  c = ' ' || ('\t' ≤ c && c ≤ '\r') || c.toNat ∈ [0x85, 0xA0, 0x1680, 0x2028, 0x2029, 0x202F, 0x205F, 0x3000] ||
    (0x2000 ≤ c.toNat && c.toNat ≤ 0x200A)

/-- strings.TrimSpace leaves nothing -/
def blank (s : String) : Bool := s.toList.all isSpace

def checkRequired (f : String × String) : Except String Unit := ensure (blank f.2 = false) (f.1 ++ " is required")

/-- `^[a-z][a-z0-9_]{0,62}$` -/
def databaseName (s : String) : Bool :=
  match s.toList with
  | c :: cs => c.isLower && cs.length ≤ 62 && cs.all fun c => lowerAlnum c || c = '_'
  | [] => false

/-- `^[a-z]{2}(?:-[a-z]+)+-[0-9]+$` -/
def regionName (s : String) : Bool :=
  match s.toList.splitOn '-' with
  | first :: rest => first.length = 2 && first.all Char.isLower && 2 ≤ rest.length && rest.getLast?.any digits &&
      rest.dropLast.all fun part => part ≠ [] && part.all Char.isLower
  | [] => false

/-- `^[0-9]{12}$` -/
def accountNumber (s : String) : Bool := s.toList.length = 12 && s.toList.all Char.isDigit

/-- `^[A-Za-z0-9._-]+$` -/
def identifier (s : String) : Bool :=
  s ≠ "" && s.toList.all fun c => c.isAlphanum || c = '.' || c = '_' || c = '-'

/-- the same texts, joined after sorting -/
def sameStrings (a b : List String) : Bool :=
  "\x00".intercalate (a.insertionSort (· ≤ ·)) = "\x00".intercalate (b.insertionSort (· ≤ ·))

def checkDatabases (r : RdsConfig) : Except String Unit :=
  forEach (fun db => ensure (databaseName db = true) ("invalid database name \"" ++ db ++ "\"")) r.databases.items

/-- identity, database and the resources a bootstrap makes itself -/
def checkDeployment (c : BootstrapConfig) : Except String Unit := do
  forEach checkRequired [("aws.region", c.aws.region), ("rds.identifier", c.rds.identifier), ("rds.engine", c.rds.engine),
    ("rds.instance_class", c.rds.instanceClass), ("spire.instance_type", c.spire.instanceType)]
  ensure (20 ≤ c.rds.storageGib) "rds.storage_gib must be at least 20"
  ensure (8 ≤ c.spire.storageGib) "spire.storage_gib must be at least 8"
  ensure (c.spire.trustDomain ≠ "") "spire.trust_domain is required"
  ensure (c.rds.deletionProtection = true) "rds.deletion_protection must be enabled"
  ensure (1 ≤ c.rds.port ∧ c.rds.port ≤ 65535) "rds.port must be between 1 and 65535"
  ensure (blank c.rds.masterUsername = false) "rds.master_username is required"
  checkDatabases c.rds
  ensure (deploymentName c.name = true)
    "name must be 3-30 lowercase letters, digits or hyphens, starting with a letter"
  ensure (regionName c.aws.region = true) "invalid aws.region"
  ensure (c.aws.region.startsWith "cn-" = false ∧ c.aws.region.startsWith "us-gov-" = false ∧
      c.aws.region.startsWith "us-iso" = false)
    "bootstrap currently supports commercial AWS regions only"
  ensure (c.aws.accountId = "" ∨ accountNumber c.aws.accountId = true) "aws.account_id must contain 12 digits"
  ensure (c.network.vpcId = "" ∧ c.network.privateSubnetIds.items = [])
    "bootstrap creates its own network; omit existing network IDs"
  ensure (c.network.rdSecurityGroupId = "" ∧ c.network.spireSecurityGroupId = "" ∧
      c.network.postgresIngressSecurityGroupId = "" ∧ c.network.dbSubnetGroupName = "" ∧
      c.spire.iamInstanceProfile = "" ∧ c.spire.keyName = "")
    ("bootstrap provisions its own security groups, subnet group and instance profiles; omit existing IDs and " ++
      "SSH keys")
  ensure (c.spire.image = "" ∨ c.spire.image = "ghcr.io/spiffe/spire-server:" ++ c.spire.version)
    "spire.image must match the pinned public SPIRE server version, or be omitted"
  ensure (sameStrings c.rds.databases.items ["spire", "crane"] = true)
    "bootstrap requires exactly the spire and crane databases"

def checkVpc (raw : String) : Except String Ipv4.Prefix :=
  orError ((canonicalPrefix raw).filter fun p => 16 ≤ p.bits ∧ p.bits ≤ 28)
    "network.vpc_cidr must be a canonical IPv4 CIDR"

def checkSubnet (vpc : Ipv4.Prefix) (raw : String) : Except String Ipv4.Prefix :=
  orError ((canonicalPrefix raw).filter fun p => vpc.bits < p.bits ∧ p.bits ≤ 28 ∧ vpc.contains p.addr = true)
    ("subnet \"" ++ raw ++ "\" must be a canonical IPv4 CIDR within network.vpc_cidr")

/-- the loop over the subnets, with those it has passed -/
def checkSubnets (vpc : Ipv4.Prefix) : List String → List Ipv4.Prefix → Except String (List Ipv4.Prefix)
  | [], prefixes => .ok prefixes
  | raw :: rest, prefixes => do
    let p ← checkSubnet vpc raw
    ensure (prefixes.any (·.overlaps p) = false) "subnet CIDRs must not overlap"
    checkSubnets vpc rest (prefixes ++ [p])

def checkPods (vpc : Ipv4.Prefix) (raw : String) : Except String Ipv4.Prefix :=
  orError ((canonicalPrefix raw).filter fun p => p.overlaps vpc = false)
    "platform.pod_cidr must be a canonical IPv4 CIDR outside the VPC"

def twoDistinct : List String → Bool
  | [a, b] => a ≠ b
  | _ => false

def NetworkConfig.subnetCidrs (n : NetworkConfig) : List String := n.publicSubnetCidrs.items ++ n.privateSubnetCidrs.items

def checkNetwork (n : NetworkConfig) (podCidr : String) : Except String Unit := do
  let vpc ← checkVpc n.vpcCidr
  ensure (n.publicSubnetCidrs.items.length = 2 ∧ n.privateSubnetCidrs.items.length = 2)
    "provide two public and two private subnet CIDRs"
  ensure (n.availabilityZones.items = [] ∨ twoDistinct n.availabilityZones.items = true)
    "provide two distinct availability zones, or omit to discover them"
  let _ ← checkSubnets vpc n.subnetCidrs []
  let _ ← checkPods vpc podCidr
  return ()

def checkSoftware (c : BootstrapConfig) : Except String Unit := do
  ensure (c.rds.engine = "postgres") "rds.engine must be postgres"
  ensure (20 ≤ c.platform.storageGib) "platform.storage_gib must be at least 20"
  forEach checkVersion [("spire.version", c.spire.version), ("platform.cilium_version", c.platform.ciliumVersion)]
  ensure (kubernetesVersion c.platform.kubernetesVersion = true)
    "platform.kubernetes_version must be an exact v-prefixed version"
  ensure (trustDomain c.spire.trustDomain = true) "invalid spire.trust_domain"

def checkIdentifier (f : String × String) : Except String Unit :=
  ensure (f.2 = "" ∨ identifier f.2 = true) ("invalid " ++ f.1)

def checkIdentifiers (c : BootstrapConfig) : Except String Unit :=
  forEach checkIdentifier [("rds.identifier", c.rds.identifier), ("rds.master_username", c.rds.masterUsername),
    ("rds.instance_class", c.rds.instanceClass), ("rds.engine_version", c.rds.engineVersion),
    ("spire.instance_type", c.spire.instanceType), ("spire.ami_id", c.spire.amiId),
    ("platform.instance_type", c.platform.instanceType), ("platform.ami_id", c.platform.amiId)]

def checkReleaseImage (f : String × String) : Except String Unit :=
  ensure (f.2 = "" ∨ pinnedImage f.2 = true) (f.1 ++ " must be a versioned GHCR/ECR image or a digest reference")

def checkImages (p : PlatformConfig) : Except String Unit :=
  forEach checkReleaseImage [("platform.crane_api_image", p.craneApiImage), ("platform.dominator_image", p.dominatorImage)]

/-- an explicit first zone, placed as if the region's zone a had been discovered -/
def checkFirstZone (c : BootstrapConfig) : Except String Unit :=
  match c.firstZone with
  | .empty => .ok ()
  | .malformed => .error "first_zone must be valid JSON"
  | .doc _ => do
    let _ ← topology c ⟨[c.aws.region ++ "a"], ["validation-only"], "", ""⟩
    return ()

/-- the checks of `Validate`, on a configuration with its defaults -/
def BootstrapConfig.check (c : BootstrapConfig) : Except String Unit := do
  checkDeployment c
  checkNetwork c.network c.platform.podCidr
  checkSoftware c
  checkIdentifiers c
  checkImages c.platform
  checkFirstZone c

def BootstrapConfig.validate (c : BootstrapConfig) : Except String Unit := c.withDefaults.check

/-! ## The parts of a validation -/

/-- a configuration is accepted iff every part of it is -/
theorem BootstrapConfig.check_ok {c : BootstrapConfig} : c.check = .ok () ↔
    checkDeployment c = .ok () ∧ checkNetwork c.network c.platform.podCidr = .ok () ∧ checkSoftware c = .ok () ∧
      checkIdentifiers c = .ok () ∧ checkImages c.platform = .ok () ∧ checkFirstZone c = .ok () := by
  simp only [BootstrapConfig.check, seq_ok]

theorem checkFirstZone_ok {c : BootstrapConfig} : checkFirstZone c = .ok () ↔ c.firstZone = .empty ∨
    ∃ j i, c.firstZone = .doc j ∧ topology c ⟨[c.aws.region ++ "a"], ["validation-only"], "", ""⟩ = .ok i := by
  unfold checkFirstZone
  cases hf : c.firstZone with
  | empty => simp
  | malformed => simp
  | doc j =>
    simp only [bind_ok, reduceCtorEq, false_or, RawMessage.doc.injEq]
    constructor
    · rintro ⟨i, hi, -⟩
      exact ⟨j, i, rfl, hi⟩
    · rintro ⟨_, i, -, hi⟩
      exact ⟨i, hi, rfl⟩

/-- the first zone that a topology makes of the parts it has read -/
def assembled (cfg : BootstrapConfig) (infra : Infrastructure) (az : String) (i : FirstZoneInput) (g : NodeGroupInput)
    (launch : List (String × Json)) (subnet : String) : FirstZoneInput :=
  { placed cfg (infra.availabilityZones.headD "") az i with
    group := { g with launchParameters := some (completeLaunch infra subnet launch) } }

/-- the checks a topology has passed -/
structure Located (cfg : BootstrapConfig) (infra : Infrastructure) (az : String) (i : FirstZoneInput) (g : NodeGroupInput)
    (launch : List (String × Json)) (subnet : String) : Prop where
  read : firstZone (sharedConfig cfg) = .ok i
  discovered : infra.availabilityZones ≠ [] ∧ infra.publicSubnetIds ≠ []
  standard : standardZone cfg.aws.region (infra.availabilityZones.headD "") = some az
  naming : refersTo i.group.naming.region cfg.aws.region ∧ refersTo i.group.naming.az az
  normalized : (placed cfg (infra.availabilityZones.headD "") az i).group.normalizeId = some g
  launched : decodeLaunch (launchDocument cfg i) = .ok launch
  connected : deploymentSubnet infra (infra.availabilityZones.headD "") = some subnet
  valid : cfg.aws.accountId ≠ "" → validateTopology (assembled cfg infra az i g launch subnet) = .ok ()

theorem topology_ok {cfg : BootstrapConfig} {infra : Infrastructure} {j : FirstZoneInput} :
    topology cfg infra = .ok j ↔
      ∃ az i g launch subnet, Located cfg infra az i g launch subnet ∧ j = assembled cfg infra az i g launch subnet := by
  simp only [topology, bind_ok, ensure_ok, orError_ok, normalizeId_ok, exists_const]
  constructor
  · rintro ⟨i, hi, hd, az, haz, hn, g, hg, launch, hl, subnet, hs, h⟩
    split_ifs at h with ha
    · obtain ⟨hv, h⟩ := seq_ok.mp h
      exact ⟨az, i, g, launch, subnet, ⟨hi, hd, haz, hn, hg, hl, hs, fun _ => hv⟩, (Except.ok.inj h).symm⟩
    · exact ⟨az, i, g, launch, subnet, ⟨hi, hd, haz, hn, hg, hl, hs, fun h => absurd h ha⟩, (Except.ok.inj h).symm⟩
  · rintro ⟨az, i, g, launch, subnet, h, rfl⟩
    refine ⟨i, h.read, h.discovered, az, h.standard, h.naming, g, h.normalized, launch, h.launched, subnet, h.connected, ?_⟩
    split_ifs with ha
    · exact seq_ok.mpr ⟨h.valid ha, rfl⟩
    · rfl

/-! ## The network -/

section Network
variable {vpc : Ipv4.Prefix}

theorem checkSubnet_ok {raw : String} {p : Ipv4.Prefix} (h : checkSubnet vpc raw = .ok p) :
    Ipv4.parsePrefix raw = some p ∧ vpc.bits < p.bits ∧ vpc.contains p.addr = true := by
  simp only [checkSubnet, orError_ok, canonicalPrefix, Option.filter_eq_some_iff, decide_eq_true_eq] at h
  obtain ⟨⟨hparse, -⟩, hbits, -, hin⟩ := h
  exact ⟨hparse, hbits, hin⟩

/-- what the loop has passed is properly inside the VPC and apart -/
structure Planned (vpc : Ipv4.Prefix) (ps : List Ipv4.Prefix) : Prop where
  inside : ∀ p ∈ ps, p.addresses ⊂ vpc.addresses
  apart : ps.Pairwise fun p q => Disjoint p.addresses q.addresses

theorem Planned.snoc {ps : List Ipv4.Prefix} (h : Planned vpc ps) {p : Ipv4.Prefix} (hin : p.addresses ⊂ vpc.addresses)
    (hp : ∀ q ∈ ps, Disjoint q.addresses p.addresses) : Planned vpc (ps ++ [p]) := by
  constructor
  · intro q hq
    rcases List.mem_append.mp hq with hq | hq
    · exact h.inside q hq
    · rw [List.mem_singleton.mp hq]
      exact hin
  · rw [List.pairwise_append]
    refine ⟨h.apart, List.pairwise_singleton _ _, ?_⟩
    intro q hq r hr
    rw [List.mem_singleton.mp hr]
    exact hp q hq

/-- the loop keeps the plan, and reads every subnet -/
theorem checkSubnets_ok {raws : List String} {ps qs : List Ipv4.Prefix} (h : checkSubnets vpc raws ps = .ok qs)
    (hps : Planned vpc ps) : Planned vpc qs ∧ ∃ rest, qs = ps ++ rest ∧ raws.map Ipv4.parsePrefix = rest.map some := by
  induction raws generalizing ps with
  | nil =>
    obtain rfl := Except.ok.inj h
    exact ⟨hps, [], by simp, rfl⟩
  | cons raw raws ih =>
    rw [checkSubnets, bind_ok] at h
    obtain ⟨p, hp, h⟩ := h
    rw [seq_ok, ensure_ok] at h
    obtain ⟨hover, hrest⟩ := h
    obtain ⟨hparse, hbits, hin⟩ := checkSubnet_ok hp
    have hapart : ∀ q ∈ ps, Disjoint q.addresses p.addresses := by
      intro q hq
      apply Ipv4.Prefix.disjoint_of_not_overlaps
      simpa using List.any_eq_false.mp hover q hq
    obtain ⟨hqs, rest, rfl, hmap⟩ := ih hrest (hps.snoc (Ipv4.Prefix.addresses_ssubset hbits hin) hapart)
    exact ⟨hqs, p :: rest, by simp, by simp [hparse, hmap]⟩

end Network

/-- the prefixes of a network -/
structure Plan where
  vpc : Ipv4.Prefix
  publics : List Ipv4.Prefix
  privates : List Ipv4.Prefix
  pods : Ipv4.Prefix
deriving DecidableEq, Repr

def Plan.subnets (p : Plan) : List Ipv4.Prefix := p.publics ++ p.privates

/-- the texts of a configuration say `p`, with two subnets of either kind -/
structure Plan.Reads (p : Plan) (c : BootstrapConfig) : Prop where
  vpc : Ipv4.parsePrefix c.network.vpcCidr = some p.vpc
  publics : c.network.publicSubnetCidrs.items.map Ipv4.parsePrefix = p.publics.map some
  privates : c.network.privateSubnetCidrs.items.map Ipv4.parsePrefix = p.privates.map some
  pods : Ipv4.parsePrefix c.platform.podCidr = some p.pods
  two_publics : p.publics.length = 2
  two_privates : p.privates.length = 2

/-- as sets of addresses, the subnets are apart from each other and properly inside the VPC, and the pods are outside -/
structure Plan.NoConflict (p : Plan) : Prop where
  inside : ∀ s ∈ p.subnets, s.addresses ⊂ p.vpc.addresses
  apart : p.subnets.Pairwise fun s t => Disjoint s.addresses t.addresses
  pods_vpc : Disjoint p.pods.addresses p.vpc.addresses
  pods_subnets : ∀ s ∈ p.subnets, Disjoint p.pods.addresses s.addresses

/-- **An accepted network plan has no address conflict.** The VPC, the two public and two private subnets and the pod
range of an accepted configuration, with its defaults, are IPv4 prefixes. Every subnet is properly inside the VPC, no
address is in two subnets, and no address of the pods is in the VPC or in a subnet. -/
theorem accepted_network {c : BootstrapConfig} (h : c.validate = .ok ()) :
    ∃ p : Plan, p.Reads c.withDefaults ∧ p.NoConflict := by
  obtain ⟨-, hnet, -⟩ := BootstrapConfig.check_ok.mp h
  generalize c.withDefaults = d at hnet ⊢
  rw [checkNetwork, bind_ok] at hnet
  obtain ⟨vpc, hvpc, hnet⟩ := hnet
  rw [seq_ok, ensure_ok, seq_ok, bind_ok] at hnet
  obtain ⟨⟨hpub, hpriv⟩, -, subnets, hsubnets, hnet⟩ := hnet
  obtain ⟨pods, hpods, -⟩ := bind_ok.mp hnet
  obtain ⟨hplan, rest, hrest, hmap⟩ := checkSubnets_ok hsubnets ⟨by simp, List.Pairwise.nil⟩
  rw [List.nil_append] at hrest
  subst hrest
  -- the parsed subnets split where the public texts end
  rw [NetworkConfig.subnetCidrs, List.map_append] at hmap
  obtain ⟨publics, privates, rfl, hpublics, hprivates⟩ := List.map_eq_append_iff.mp hmap.symm
  simp only [checkVpc, checkPods, orError_ok, canonicalPrefix, Option.filter_eq_some_iff, decide_eq_true_eq] at hvpc hpods
  have hout : Disjoint pods.addresses vpc.addresses := Ipv4.Prefix.disjoint_of_not_overlaps hpods.2
  refine ⟨⟨vpc, publics, privates, pods⟩, ⟨hvpc.1.1, hpublics.symm, hprivates.symm, hpods.1.1, ?_, ?_⟩,
    ⟨hplan.inside, hplan.apart, hout, ?_⟩⟩
  · rw [← hpub]
    simpa using congrArg List.length hpublics
  · rw [← hpriv]
    simpa using congrArg List.length hprivates
  · intro p hp
    exact hout.mono_right (hplan.inside p hp).subset

namespace Sample

/-- all defaults, in one region -/
def minimal : BootstrapConfig where
  developmentStage := "dev"
  groupSuffix := "platform"
  aws := ⟨"us-east-1", ""⟩

theorem accepted_network_minimal :
    minimal.validate = .ok () ∧ ∃ p : Plan, p.Reads minimal.withDefaults ∧ p.NoConflict :=
  ⟨by decide +kernel, accepted_network (by decide +kernel)⟩

end Sample

end Crane.Bootstrap.Aws
