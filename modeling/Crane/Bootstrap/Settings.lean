/-
AWS placement across retries (`internal/provider/awscompute/bootstrap_state.go`, `Resolve` of `bootstrap_session.go`).

`resolve` gets the settings that the last successful call returned. Before any call to AWS it merges them with the
configuration at hand: an empty account, an empty list of zones and empty image IDs are filled from the settings, empty
image IDs of the settings from the configuration, and then both must be the same JSON. What AWS answers matters only for
what is still empty.

A sequence of calls keeps one invariant (`Pinned`): the settings name an account and two zones, so that from the first
success on there is nothing left that AWS could decide. Settings then only change where an image ID was empty (`Filled`).
-/
import Crane.Bootstrap.Aws
import Crane.Lib.Session

namespace Crane.Bootstrap.Aws

open Checks Codec Crane.Topology

/-! ## Settings -/

structure BootstrapHost where
  amiId : String := ""
  instanceType : String := ""
  storageGib : Int32 := 0
deriving DecidableEq, Repr, Inhabited

/-- AWS choices; software and topology use shared configuration -/
structure BootstrapSettings where
  region : String := ""
  accountId : String := ""
  network : NetworkConfig := {}
  rds : RdsConfig := {}
  spireHost : BootstrapHost := {}
  platformHost : BootstrapHost := {}
deriving DecidableEq, Repr, Inhabited

def composeBootstrapConfig (shared : Config) (settings : BootstrapSettings) : BootstrapConfig where
  name := shared.name
  developmentStage := shared.developmentStage
  groupSuffix := shared.groupSuffix
  aws := ⟨settings.region, settings.accountId⟩
  network := settings.network
  rds := settings.rds
  firstZone := shared.firstZone
  spire := {
    version := shared.spire.version, trustDomain := shared.spire.trustDomain, image := shared.spire.image
    amiId := settings.spireHost.amiId, instanceType := settings.spireHost.instanceType
    storageGib := settings.spireHost.storageGib }
  platform := {
    craneApiImage := shared.platform.craneApiImage, dominatorImage := shared.platform.dominatorImage
    kubernetesVersion := shared.platform.kubernetesVersion, ciliumVersion := shared.platform.ciliumVersion
    podCidr := shared.platform.podCidr, amiId := settings.platformHost.amiId
    instanceType := settings.platformHost.instanceType, storageGib := settings.platformHost.storageGib }

def settingsFor (cfg : BootstrapConfig) : BootstrapSettings where
  region := cfg.aws.region
  accountId := cfg.aws.accountId
  network := cfg.network
  rds := cfg.rds
  spireHost := ⟨cfg.spire.amiId, cfg.spire.instanceType, cfg.spire.storageGib⟩
  platformHost := ⟨cfg.platform.amiId, cfg.platform.instanceType, cfg.platform.storageGib⟩

section Codecs

def texts : Codec Slice := pointer [] (slice "" text)

def networkConfig : Codec NetworkConfig := record true [
  field "vpc_cidr" (·.vpcCidr) (fun v n => { n with vpcCidr := v }) text,
  field "public_subnet_cidrs" (·.publicSubnetCidrs) (fun v n => { n with publicSubnetCidrs := v }) texts,
  field "private_subnet_cidrs" (·.privateSubnetCidrs) (fun v n => { n with privateSubnetCidrs := v }) texts,
  field "availability_zones" (·.availabilityZones) (fun v n => { n with availabilityZones := v }) texts,
  field "vpc_id" (·.vpcId) (fun v n => { n with vpcId := v }) text,
  field "private_subnet_ids" (·.privateSubnetIds) (fun v n => { n with privateSubnetIds := v }) texts,
  field "rds_security_group_id" (·.rdSecurityGroupId) (fun v n => { n with rdSecurityGroupId := v }) text,
  field "rds_security_group_name" (·.rdSecurityGroupName) (fun v n => { n with rdSecurityGroupName := v }) text,
  field "postgres_ingress_security_group_id" (·.postgresIngressSecurityGroupId)
    (fun v n => { n with postgresIngressSecurityGroupId := v }) text,
  field "db_subnet_group_name" (·.dbSubnetGroupName) (fun v n => { n with dbSubnetGroupName := v }) text,
  field "spire_security_group_id" (·.spireSecurityGroupId) (fun v n => { n with spireSecurityGroupId := v }) text]

def rdsConfig : Codec RdsConfig := record true [
  field "identifier" (·.identifier) (fun v r => { r with identifier := v }) text,
  field "engine" (·.engine) (fun v r => { r with engine := v }) text,
  field "engine_version" (·.engineVersion) (fun v r => { r with engineVersion := v }) text,
  field "instance_class" (·.instanceClass) (fun v r => { r with instanceClass := v }) text,
  field "storage_gib" (·.storageGib) (fun v r => { r with storageGib := v }) int32,
  field "deletion_protection" (·.deletionProtection) (fun v r => { r with deletionProtection := v }) flag,
  field "master_username" (·.masterUsername) (fun v r => { r with masterUsername := v }) text,
  field "port" (·.port) (fun v r => { r with port := v }) int32,
  field "multi_az" (·.multiAz) (fun v r => { r with multiAz := v }) flag,
  field "storage_type" (·.storageType) (fun v r => { r with storageType := v }) text,
  field "manage_master_user_password" (·.manageMasterUserPassword)
    (fun v r => { r with manageMasterUserPassword := v }) flag,
  field "databases" (·.databases) (fun v r => { r with databases := v }) texts]

def bootstrapHost : Codec BootstrapHost := record true [
  omitempty "ami_id" (·.amiId) (fun v h => { h with amiId := v }) text (· = ""),
  field "instance_type" (·.instanceType) (fun v h => { h with instanceType := v }) text,
  field "storage_gib" (·.storageGib) (fun v h => { h with storageGib := v }) int32]

def settingsFields : List (Codec.Field BootstrapSettings) := [
  field "region" (·.region) (fun v s => { s with region := v }) text,
  omitempty "account_id" (·.accountId) (fun v s => { s with accountId := v }) text (· = ""),
  field "network" (·.network) (fun v s => { s with network := v }) networkConfig,
  field "rds" (·.rds) (fun v s => { s with rds := v }) rdsConfig,
  field "spire_host" (·.spireHost) (fun v s => { s with spireHost := v }) bootstrapHost,
  field "platform_host" (·.platformHost) (fun v s => { s with platformHost := v }) bootstrapHost]

def bootstrapSettings : Codec BootstrapSettings := record true settingsFields

end Codecs

/-- only pinned state may contain the retired backend-specific block -/
def decodePinnedBootstrapSettings : Json → Option BootstrapSettings
  | .null => some {}
  | .obj members =>
    bootstrapSettings.into {} (.obj ((Sequences.collect members).filter fun m => m.1 ≠ "observability"))
  | _ => none

/-! ## Resolving -/

def differentSettings : String :=
  "deployment already has different AWS configuration; use its original config or a new deployment name"

/-- `if len(s) == 0 { s = d }` -/
def orSlice (s d : Slice) : Slice := if s.items = [] then d else s

/-- the settings of a configuration, with what it leaves empty from the previous ones -/
def candidateSettings (own previous : BootstrapSettings) : BootstrapSettings :=
  { own with
    accountId := orDefault own.accountId previous.accountId
    network := { own.network with
      availabilityZones := orSlice own.network.availabilityZones previous.network.availabilityZones }
    spireHost := { own.spireHost with amiId := orDefault own.spireHost.amiId previous.spireHost.amiId }
    platformHost := { own.platformHost with amiId := orDefault own.platformHost.amiId previous.platformHost.amiId } }

/-- the other images of the settings -/
def BootstrapSettings.withImages (s : BootstrapSettings) (spire platform : String) : BootstrapSettings :=
  { s with
    spireHost := { s.spireHost with amiId := spire }
    platformHost := { s.platformHost with amiId := platform } }

/-- the configuration with the choices that are pinned -/
def BootstrapConfig.pinnedTo (cfg : BootstrapConfig) (account : String) (zones : Slice) (spire platform : String) :
    BootstrapConfig :=
  { cfg with
    aws := { cfg.aws with accountId := account }
    network := { cfg.network with availabilityZones := zones }
    spire := { cfg.spire with amiId := spire }
    platform := { cfg.platform with amiId := platform } }

/-- only image IDs may be filled after preparation; all other choices are pinned -/
def mergePinnedSettings (cfg : BootstrapConfig) (previous : BootstrapSettings) : Except String BootstrapConfig :=
  let candidate := candidateSettings (settingsFor cfg) previous
  let previous := previous.withImages (orDefault previous.spireHost.amiId candidate.spireHost.amiId)
    (orDefault previous.platformHost.amiId candidate.platformHost.amiId)
  if Json.sameJson (bootstrapSettings.enc candidate) (bootstrapSettings.enc previous) then
    .ok (cfg.pinnedTo candidate.accountId candidate.network.availabilityZones candidate.spireHost.amiId
      candidate.platformHost.amiId)
  else .error differentSettings

inductive AwsCall where
  | getCallerIdentity
  | describeAvailabilityZones
deriving DecidableEq, Repr

/-- `none` is a failed call; zones come with their state -/
def AwsCall.Answer : AwsCall → Type
  | .getCallerIdentity => Option String
  | .describeAvailabilityZones => Option (List (String × String))

abbrev Session := Prog AwsCall AwsCall.Answer (Except String Json)

def refused (e : String) : Session := .ret (.error e)

/-- stands for the error of a failed call -/
def callError : String := "aws"

def BootstrapConfig.withZones (cfg : BootstrapConfig) (zones : Slice) : BootstrapConfig :=
  { cfg with network := { cfg.network with availabilityZones := zones } }

def BootstrapConfig.withAccount (cfg : BootstrapConfig) (account : String) : BootstrapConfig :=
  { cfg with aws := { cfg.aws with accountId := account } }

def finish (cfg : BootstrapConfig) : Session :=
  match cfg.validate with
  | .error e => refused e
  | .ok () => .ret (.ok (bootstrapSettings.enc (settingsFor cfg)))

/-- the names of the available zones, in order -/
def availableZones (zones : List (String × String)) : List String :=
  ((zones.filter fun z => z.2 = "available").map Prod.fst).insertionSort (· ≤ ·)

def placeZones (cfg : BootstrapConfig) : Session :=
  if cfg.network.availabilityZones.items = [] then
    .ask .describeAvailabilityZones fun
      | none => refused callError
      | some zones =>
        if (availableZones zones).length < 2 then refused "bootstrap requires two available AWS availability zones"
        else finish (cfg.withZones (some ((availableZones zones).take 2)))
  else finish cfg

/-- from the merged configuration on -/
def place (cfg : BootstrapConfig) (prepare : Bool) : Session :=
  if prepare = false ∧ (cfg.spire.amiId = "" ∨ cfg.platform.amiId = "") then
    refused ("provide provider_config.spire_host.ami_id and platform_host.ami_id after preparing the endpoint and " ++
      "building golden AMIs")
  else
    .ask .getCallerIdentity fun
      | none => refused callError
      | some account =>
        if account = "" then refused "AWS identity returned no account"
        else if cfg.aws.accountId ≠ "" ∧ cfg.aws.accountId ≠ account then
          refused "configured AWS account does not match the credential identity"
        else placeZones (cfg.withAccount account)

def resolve (cfg : BootstrapConfig) (previous : RawMessage) (prepare : Bool) : Session :=
  match previous with
  | .empty => place cfg prepare
  | .malformed => refused jsonError
  | .doc j => match decodePinnedBootstrapSettings j with
    | none => refused jsonError
    | some prior => match mergePinnedSettings cfg prior with
      | .error e => refused e
      | .ok cfg => place cfg prepare

/-! ## Documents of settings -/

section Documents

theorem texts_faithful : texts.Faithful :=
  pointer_faithful (slice_faithful text_faithful) fun l => by simp [slice, Json.value]

theorem networkConfig_faithful : networkConfig.Faithful := by
  intro a b h
  obtain ⟨h₁, h₂, h₃, h₄, h₅, h₆, h₇, h₈, h₉, h₁₀, h₁₁, -⟩ := record_told (by decide) h
  cases a
  cases b
  rw [NetworkConfig.mk.injEq]
  exact ⟨field_same text_faithful h₁, field_same texts_faithful h₂, field_same texts_faithful h₃,
    field_same texts_faithful h₄, field_same text_faithful h₅, field_same texts_faithful h₆, field_same text_faithful h₇,
    field_same text_faithful h₈, field_same text_faithful h₉, field_same text_faithful h₁₀, field_same text_faithful h₁₁⟩

theorem rdsConfig_faithful : rdsConfig.Faithful := by
  intro a b h
  obtain ⟨h₁, h₂, h₃, h₄, h₅, h₆, h₇, h₈, h₉, h₁₀, h₁₁, h₁₂, -⟩ := record_told (by decide) h
  cases a
  cases b
  rw [RdsConfig.mk.injEq]
  exact ⟨field_same text_faithful h₁, field_same text_faithful h₂, field_same text_faithful h₃,
    field_same text_faithful h₄, field_same int32_faithful h₅, field_same flag_faithful h₆, field_same text_faithful h₇,
    field_same int32_faithful h₈, field_same flag_faithful h₉, field_same text_faithful h₁₀,
    field_same flag_faithful h₁₁, field_same texts_faithful h₁₂⟩

theorem bootstrapHost_faithful : bootstrapHost.Faithful := by
  intro a b h
  obtain ⟨h₁, h₂, h₃, -⟩ := record_told (by decide) h
  cases a
  cases b
  rw [BootstrapHost.mk.injEq]
  exact ⟨omitempty_same text_faithful (fun _ => of_decide_eq_true) h₁, field_same text_faithful h₂,
    field_same int32_faithful h₃⟩

theorem bootstrapSettings_faithful : bootstrapSettings.Faithful := by
  intro a b h
  obtain ⟨h₁, h₂, h₃, h₄, h₅, h₆, -⟩ := record_told (by decide) h
  cases a
  cases b
  rw [BootstrapSettings.mk.injEq]
  exact ⟨field_same text_faithful h₁, omitempty_same text_faithful (fun _ => of_decide_eq_true) h₂,
    field_same networkConfig_faithful h₃, field_same rdsConfig_faithful h₄, field_same bootstrapHost_faithful h₅,
    field_same bootstrapHost_faithful h₆⟩

theorem texts_exact : texts.Exact := pointer_exact (slice_exact text_exact)

theorem networkConfig_exact : networkConfig.Exact := by
  intro n
  apply record_exact
  simp [field, text_exact _, texts_exact _]

theorem rdsConfig_exact : rdsConfig.Exact := by
  intro r
  apply record_exact
  simp [field, text_exact _, texts_exact _, flag_exact _, int32_exact _]

theorem bootstrapHost_exact : bootstrapHost.Exact := by
  intro h
  apply record_exact
  simp [field, omitempty, text_exact _, int32_exact _]

theorem bootstrapSettings_exact : bootstrapSettings.Exact := by
  intro s
  apply record_exact
  simp [settingsFields, field, omitempty, text_exact _, networkConfig_exact _, rdsConfig_exact _, bootstrapHost_exact _]

/-- settings are the same JSON iff they are the same -/
theorem sameJson_settings {a b : BootstrapSettings} :
    Json.sameJson (bootstrapSettings.enc a) (bootstrapSettings.enc b) = true ↔ a = b := by
  rw [Json.sameJson_iff (bootstrapSettings_exact a) (bootstrapSettings_exact b)]
  constructor
  · exact bootstrapSettings_faithful a b
  · rintro rfl
    rfl

theorem texts_returns (s : Slice) : texts.Returns none s :=
  pointer_returns fun _ _ => ⟨slice_returns [] fun t _ => text_returns "" t, nofun⟩

theorem networkConfig_returns (n : NetworkConfig) : networkConfig.Returns {} n :=
  record_returns (by decide) ⟨_, field_copies (text_returns _ _), _, field_copies (texts_returns _),
    _, field_copies (texts_returns _), _, field_copies (texts_returns _), _, field_copies (text_returns _ _),
    _, field_copies (texts_returns _), _, field_copies (text_returns _ _), _, field_copies (text_returns _ _),
    _, field_copies (text_returns _ _), _, field_copies (text_returns _ _), _, field_copies (text_returns _ _), rfl⟩

theorem rdsConfig_returns (r : RdsConfig) : rdsConfig.Returns {} r :=
  record_returns (by decide) ⟨_, field_copies (text_returns _ _), _, field_copies (text_returns _ _),
    _, field_copies (text_returns _ _), _, field_copies (text_returns _ _), _, field_copies (int32_returns _ _),
    _, field_copies (flag_returns _ _), _, field_copies (text_returns _ _), _, field_copies (int32_returns _ _),
    _, field_copies (flag_returns _ _), _, field_copies (text_returns _ _), _, field_copies (flag_returns _ _),
    _, field_copies (texts_returns _), rfl⟩

theorem bootstrapHost_returns (h : BootstrapHost) : bootstrapHost.Returns {} h :=
  record_returns (by decide) ⟨_, omitempty_copies rfl of_decide_eq_true (text_returns _ _),
    _, field_copies (text_returns _ _), _, field_copies (int32_returns _ _), rfl⟩

/-- the fields can be read in the order of their names -/
theorem settingsFields_fill (s : BootstrapSettings) : Fills s (inOrder settingsFields) {} :=
  ⟨_, omitempty_copies rfl of_decide_eq_true (text_returns _ _), _, field_copies (networkConfig_returns _),
    _, field_copies (bootstrapHost_returns _), _, field_copies (rdsConfig_returns _),
    _, field_copies (text_returns _ _), _, field_copies (bootstrapHost_returns _), rfl⟩

theorem settingsFields_names : (settingsFields.map Codec.Field.name).Nodup := by decide

/-- no setting is called observability any more -/
theorem members_current (s : BootstrapSettings) :
    (Sequences.collect (members settingsFields s)).filter (fun m => m.1 ≠ "observability") =
      Sequences.collect (members settingsFields s) := by
  have hsub := members_keys settingsFields s
  rw [List.filter_eq_self]
  intro m hm
  have hmem : m ∈ members settingsFields s := (Sequences.mem_collect (hsub.nodup settingsFields_names)).mp hm
  have hname : m.1 ∈ settingsFields.map Codec.Field.name := hsub.subset (List.mem_map_of_mem hmem)
  have hnone : "observability" ∉ settingsFields.map Codec.Field.name := by decide
  exact decide_eq_true fun h => hnone (h ▸ hname)

/-- pinned settings are read back as they were written -/
theorem decodePinned_enc (s : BootstrapSettings) : decodePinnedBootstrapSettings (bootstrapSettings.enc s) = some s := by
  have hback := record_returns_collect true settingsFields_names s {} (settingsFields_fill s)
  have hread : decodePinnedBootstrapSettings (.obj (members settingsFields s)) = some s := by
    rw [decodePinnedBootstrapSettings, members_current]
    exact hback
  exact hread

end Documents

/-! ## What the merge accepts -/

/-- `s` is `p`, except that image IDs that were empty may have been filled -/
structure Filled (p s : BootstrapSettings) : Prop where
  same : s = p.withImages s.spireHost.amiId s.platformHost.amiId
  spire : FilledImage p.spireHost.amiId s.spireHost.amiId
  platform : FilledImage p.platformHost.amiId s.platformHost.amiId

theorem Filled.refl (s : BootstrapSettings) : Filled s s := ⟨rfl, .inr rfl, .inr rfl⟩

theorem Filled.trans {p q s : BootstrapSettings} (h : Filled p q) (h' : Filled q s) : Filled p s := by
  refine ⟨?_, h.spire.trans h'.spire, h.platform.trans h'.platform⟩
  have hs := h'.same
  rw [h.same] at hs
  exact hs

/-- a configuration that says nothing else than the settings; it may leave open what they have chosen, and either side may
leave an image open -/
structure Agrees (cfg : BootstrapConfig) (p : BootstrapSettings) : Prop where
  region : cfg.aws.region = p.region
  account : cfg.aws.accountId = "" ∨ cfg.aws.accountId = p.accountId
  network : { cfg.network with availabilityZones := p.network.availabilityZones } = p.network
  zones : cfg.network.availabilityZones.items = [] ∨ cfg.network.availabilityZones = p.network.availabilityZones
  rds : cfg.rds = p.rds
  spire : cfg.spire.instanceType = p.spireHost.instanceType ∧ cfg.spire.storageGib = p.spireHost.storageGib
  spireImage : cfg.spire.amiId = "" ∨ FilledImage p.spireHost.amiId cfg.spire.amiId
  platform : cfg.platform.instanceType = p.platformHost.instanceType ∧
    cfg.platform.storageGib = p.platformHost.storageGib
  platformImage : cfg.platform.amiId = "" ∨ FilledImage p.platformHost.amiId cfg.platform.amiId

theorem orSlice_eq_iff {s d : Slice} : orSlice s d = d ↔ s.items = [] ∨ s = d := by
  unfold orSlice
  split_ifs with h <;> simp [h]

theorem network_eq_iff {own previous : NetworkConfig} {zones : Slice} :
    { own with availabilityZones := zones } = previous ↔
      { own with availabilityZones := previous.availabilityZones } = previous ∧ zones = previous.availabilityZones := by
  constructor
  · rintro rfl
    exact ⟨rfl, rfl⟩
  · rintro ⟨h, rfl⟩
    exact h

theorem candidate_eq_iff {cfg : BootstrapConfig} {p : BootstrapSettings} :
    candidateSettings (settingsFor cfg) p = p.withImages
      (orDefault p.spireHost.amiId (candidateSettings (settingsFor cfg) p).spireHost.amiId)
      (orDefault p.platformHost.amiId (candidateSettings (settingsFor cfg) p).platformHost.amiId) ↔ Agrees cfg p := by
  simp only [candidateSettings, settingsFor, BootstrapSettings.withImages, BootstrapSettings.mk.injEq,
    BootstrapHost.mk.injEq, orDefault_eq_iff, orDefault_both_iff]
  rw [network_eq_iff, orSlice_eq_iff]
  constructor
  · rintro ⟨hregion, haccount, ⟨hnetwork, hzones⟩, hrds, ⟨hsi, hs⟩, ⟨hpi, hp⟩⟩
    exact ⟨hregion, haccount, hnetwork, hzones, hrds, hs, hsi, hp, hpi⟩
  · rintro ⟨hregion, haccount, hnetwork, hzones, hrds, hs, hsi, hp, hpi⟩
    exact ⟨hregion, haccount, ⟨hnetwork, hzones⟩, hrds, ⟨hsi, hs⟩, ⟨hpi, hp⟩⟩

/-- the configuration that goes on after the merge -/
def BootstrapConfig.merged (cfg : BootstrapConfig) (p : BootstrapSettings) : BootstrapConfig :=
  cfg.pinnedTo p.accountId p.network.availabilityZones (orDefault cfg.spire.amiId p.spireHost.amiId)
    (orDefault cfg.platform.amiId p.platformHost.amiId)

theorem mergePinnedSettings_agrees {cfg : BootstrapConfig} {p : BootstrapSettings} (h : Agrees cfg p) :
    mergePinnedSettings cfg p = .ok (cfg.merged p) := by
  have hsame := sameJson_settings.mpr (candidate_eq_iff.mpr h)
  have haccount : orDefault cfg.aws.accountId p.accountId = p.accountId := orDefault_eq_iff.mpr h.account
  have hzones := orSlice_eq_iff.mpr h.zones
  simp only [mergePinnedSettings, hsame, if_true]
  simp only [candidateSettings, settingsFor, haccount, hzones, BootstrapConfig.merged]

theorem mergePinnedSettings_differs {cfg : BootstrapConfig} {p : BootstrapSettings} (h : ¬Agrees cfg p) :
    mergePinnedSettings cfg p = .error differentSettings := by
  have hsame := mt sameJson_settings.mp (mt candidate_eq_iff.mp h)
  simp [mergePinnedSettings, hsame]

/-- the merged configuration has the previous settings, with images filled -/
theorem settingsFor_merged {cfg : BootstrapConfig} {p : BootstrapSettings} (h : Agrees cfg p) :
    Filled p (settingsFor (cfg.merged p)) := by
  refine ⟨?_, ?_, ?_⟩
  · simp only [settingsFor, BootstrapConfig.merged, BootstrapConfig.pinnedTo, BootstrapSettings.withImages, h.region,
      h.network, h.rds, h.spire, h.platform]
  · rcases h.spireImage with he | he | he
    · exact .inr (by simp [settingsFor, BootstrapConfig.merged, BootstrapConfig.pinnedTo, orDefault, he])
    · exact .inl he
    · exact .inr (by simp [settingsFor, BootstrapConfig.merged, BootstrapConfig.pinnedTo, orDefault, he])
  · rcases h.platformImage with he | he | he
    · exact .inr (by simp [settingsFor, BootstrapConfig.merged, BootstrapConfig.pinnedTo, orDefault, he])
    · exact .inl he
    · exact .inr (by simp [settingsFor, BootstrapConfig.merged, BootstrapConfig.pinnedTo, orDefault, he])

/-! ## Accepted calls -/

/-- an image ID the configuration may have -/
def ImageId (s : String) : Prop := s = "" ∨ identifier s = true

theorem checkIdentifiers_ok {c : BootstrapConfig} : checkIdentifiers c = .ok () ↔
    ImageId c.rds.identifier ∧ ImageId c.rds.masterUsername ∧ ImageId c.rds.instanceClass ∧
      ImageId c.rds.engineVersion ∧ ImageId c.spire.instanceType ∧ ImageId c.spire.amiId ∧
      ImageId c.platform.instanceType ∧ ImageId c.platform.amiId := by
  simp [checkIdentifiers, forEach_ok, checkIdentifier, ImageId]

theorem validated_images {c : BootstrapConfig} (h : c.validate = .ok ()) :
    ImageId c.spire.amiId ∧ ImageId c.platform.amiId := by
  obtain ⟨-, -, -, hids, -⟩ := BootstrapConfig.check_ok.mp h
  obtain ⟨-, -, -, -, -, hspire, -, hplatform⟩ := checkIdentifiers_ok.mp hids
  exact ⟨hspire, hplatform⟩

section Images
variable {c : BootstrapConfig} {account x y : String} {zones : Slice}

/-- whether a first zone can be placed does not depend on the images -/
theorem topology_images {infra : Infrastructure} {i : FirstZoneInput} (x' y' : String)
    (h : topology (c.pinnedTo account zones x y) infra = .ok i) :
    ∃ i', topology (c.pinnedTo account zones x' y') infra = .ok i' := by
  obtain ⟨az, i, g, launch, subnet, h, -⟩ := topology_ok.mp h
  obtain ⟨launch', hlaunch⟩ : ∃ launch', decodeLaunch (launchDocument (c.pinnedTo account zones x' y') i) = .ok launch' := by
    have hold := h.launched
    unfold launchDocument at hold ⊢
    cases hl : i.group.launchParameters with
    | some j =>
      rw [hl] at hold
      exact ⟨launch, hold⟩
    | none => exact ⟨_, rfl⟩
  refine ⟨_, topology_ok.mpr ⟨az, i, g, launch', subnet, ⟨h.read, h.discovered, h.standard, h.naming, h.normalized, hlaunch,
    h.connected, ?_⟩, rfl⟩⟩
  intro ha
  rw [← h.valid ha]
  exact validateTopology_launch { placed (c.pinnedTo account zones x y) (infra.availabilityZones.headD "") az i with group := g }
    _ _

/-- a configuration stays accepted with other images -/
theorem validate_images {x' y' : String} (hx : ImageId x') (hy : ImageId y')
    (h : (c.pinnedTo account zones x y).validate = .ok ()) : (c.pinnedTo account zones x' y').validate = .ok () := by
  -- defaults do not touch what is pinned
  have hcheck : (c.withDefaults.pinnedTo account zones x y).check = .ok () := h
  show (c.withDefaults.pinnedTo account zones x' y').check = .ok ()
  generalize c.withDefaults = d at hcheck ⊢
  rw [BootstrapConfig.check_ok] at hcheck ⊢
  obtain ⟨hdeployment, hnetwork, hsoftware, hids, himages, hzone⟩ := hcheck
  refine ⟨hdeployment, hnetwork, hsoftware, ?_, himages, ?_⟩
  · rw [checkIdentifiers_ok] at hids ⊢
    obtain ⟨h₁, h₂, h₃, h₄, h₅, -, h₇, -⟩ := hids
    exact ⟨h₁, h₂, h₃, h₄, h₅, hx, h₇, hy⟩
  · rw [checkFirstZone_ok] at hzone ⊢
    rcases hzone with he | ⟨j, i, hj, hi⟩
    · exact .inl he
    · obtain ⟨i', hi'⟩ := topology_images x' y' hi
      exact .inr ⟨j, i', hj, hi'⟩

end Images

/-! ## Calls in sequence -/

/-- one call of `Resolve` on a new session: its configuration, its mode and what AWS answers -/
structure Call where
  cfg : BootstrapConfig
  prepare : Bool
  answers : (q : AwsCall) → q.Answer

/-- the account of the credentials, if AWS tells it -/
def Call.identity (c : Call) : Option String := c.answers .getCallerIdentity

def Call.outcome (c : Call) (previous : RawMessage) : Option (Except String Json) :=
  (resolve c.cfg previous c.prepare).under c.answers

/-- the settings that the next call receives -/
def step (previous : RawMessage) (c : Call) : RawMessage :=
  match c.outcome previous with
  | some (.ok doc) => .doc doc
  | _ => previous

def run (calls : List Call) : RawMessage := calls.foldl step .empty

/-- settings that leave AWS nothing to choose -/
structure Settled (p : BootstrapSettings) : Prop where
  account : p.accountId ≠ ""
  zones : p.network.availabilityZones.items ≠ []
  spire : ImageId p.spireHost.amiId
  platform : ImageId p.platformHost.amiId

def Pinned (m : RawMessage) : Prop := m = .empty ∨ ∃ p, m = .doc (bootstrapSettings.enc p) ∧ Settled p

/-- the configuration, with the choices of the settings -/
def BootstrapConfig.at (cfg : BootstrapConfig) (s : BootstrapSettings) : BootstrapConfig :=
  cfg.pinnedTo s.accountId s.network.availabilityZones s.spireHost.amiId s.platformHost.amiId

/-- how settings that a call returned go with it -/
structure Accepts (c : Call) (s : BootstrapSettings) : Prop where
  identity : c.identity = some s.accountId
  valid : (c.cfg.at s).validate = .ok ()
  settings : settingsFor (c.cfg.at s) = s
  account : c.cfg.aws.accountId = "" ∨ c.cfg.aws.accountId = s.accountId
  zones : c.cfg.network.availabilityZones.items = [] ∨ c.cfg.network.availabilityZones = s.network.availabilityZones
  spireImage : FilledImage c.cfg.spire.amiId s.spireHost.amiId
  platformImage : FilledImage c.cfg.platform.amiId s.platformHost.amiId
  images : c.prepare = true ∨ (s.spireHost.amiId ≠ "" ∧ s.platformHost.amiId ≠ "")

theorem finish_ok {cfg : BootstrapConfig} {ans : (q : AwsCall) → q.Answer} {doc : Json}
    (h : (finish cfg).under ans = some (.ok doc)) :
    cfg.validate = .ok () ∧ doc = bootstrapSettings.enc (settingsFor cfg) := by
  unfold finish at h
  cases hv : cfg.validate with
  | error e => simp [hv, refused, Prog.under] at h
  | ok u =>
    simp only [hv, Prog.under, Option.some.injEq, Except.ok.injEq] at h
    exact ⟨rfl, h.symm⟩

theorem placeZones_ok {cfg : BootstrapConfig} {ans : (q : AwsCall) → q.Answer} {doc : Json}
    (h : (placeZones cfg).under ans = some (.ok doc)) :
    ∃ zones : Slice, zones.items ≠ [] ∧
      (cfg.network.availabilityZones.items = [] ∨ cfg.network.availabilityZones = zones) ∧
      (cfg.withZones zones).validate = .ok () ∧ doc = bootstrapSettings.enc (settingsFor (cfg.withZones zones)) := by
  unfold placeZones at h
  split_ifs at h with hz
  · rw [Prog.under] at h
    cases hans : ans .describeAvailabilityZones with
    | none => simp [hans, refused, Prog.under] at h
    | some zones =>
      simp only [hans] at h
      split_ifs at h with hlen
      · simp [refused, Prog.under] at h
      · refine ⟨some ((availableZones zones).take 2), ?_, .inl hz, finish_ok h⟩
        intro hnil
        have hlength := congrArg List.length hnil
        simp only [Slice.items, Option.getD_some, List.length_take, List.length_nil] at hlength
        omega
  · exact ⟨cfg.network.availabilityZones, hz, .inr rfl, finish_ok h⟩

theorem place_ok {cfg : BootstrapConfig} {prepare : Bool} {ans : (q : AwsCall) → q.Answer} {doc : Json}
    (h : (place cfg prepare).under ans = some (.ok doc)) :
    ∃ account, ∃ zones : Slice, ans .getCallerIdentity = some account ∧ account ≠ "" ∧ zones.items ≠ [] ∧
      (cfg.aws.accountId = "" ∨ cfg.aws.accountId = account) ∧
      (cfg.network.availabilityZones.items = [] ∨ cfg.network.availabilityZones = zones) ∧
      (prepare = true ∨ (cfg.spire.amiId ≠ "" ∧ cfg.platform.amiId ≠ "")) ∧
      (cfg.pinnedTo account zones cfg.spire.amiId cfg.platform.amiId).validate = .ok () ∧
      doc = bootstrapSettings.enc (settingsFor (cfg.pinnedTo account zones cfg.spire.amiId cfg.platform.amiId)) := by
  unfold place at h
  split_ifs at h with himages
  · simp [refused, Prog.under] at h
  · rw [Prog.under] at h
    cases hans : ans .getCallerIdentity with
    | none => simp [hans, refused, Prog.under] at h
    | some account =>
      simp only [hans] at h
      split_ifs at h with hempty hother
      · simp [refused, Prog.under] at h
      · simp [refused, Prog.under] at h
      · obtain ⟨zones, hne, hzones, hvalid, hdoc⟩ := placeZones_ok h
        refine ⟨account, zones, rfl, hempty, hne, ?_, hzones, ?_, hvalid, hdoc⟩
        · by_cases ha : cfg.aws.accountId = ""
          · exact .inl ha
          · exact .inr (by simpa [ha] using hother)
        · cases prepare with
          | true => exact .inl rfl
          | false => simpa [not_or] using himages

theorem resolve_agrees {cfg : BootstrapConfig} {p : BootstrapSettings} (h : Agrees cfg p) (prepare : Bool) :
    resolve cfg (.doc (bootstrapSettings.enc p)) prepare = place (cfg.merged p) prepare := by
  simp only [resolve, decodePinned_enc, mergePinnedSettings_agrees h]

/-- a differing configuration is refused before any call to AWS -/
theorem resolve_differs {cfg : BootstrapConfig} {p : BootstrapSettings} (h : ¬Agrees cfg p) (prepare : Bool) :
    resolve cfg (.doc (bootstrapSettings.enc p)) prepare = refused differentSettings := by
  simp only [resolve, decodePinned_enc, mergePinnedSettings_differs h]

theorem settled_at {cfg : BootstrapConfig} {account x y : String} {zones : Slice} (ha : account ≠ "")
    (hz : zones.items ≠ []) (h : (cfg.pinnedTo account zones x y).validate = .ok ()) :
    Settled (settingsFor (cfg.pinnedTo account zones x y)) := by
  obtain ⟨hspire, hplatform⟩ := validated_images h
  exact ⟨ha, hz, hspire, hplatform⟩

section Outcomes
variable {c : Call} {m : RawMessage} {p : BootstrapSettings} {doc : Json}

/-- the first settings -/
theorem outcome_first (h : c.outcome .empty = some (.ok doc)) :
    ∃ s, doc = bootstrapSettings.enc s ∧ Settled s ∧ Accepts c s := by
  obtain ⟨account, zones, hid, ha, hz, haccount, hzones, himages, hvalid, rfl⟩ := place_ok h
  exact ⟨_, rfl, settled_at ha hz hvalid, ⟨hid, hvalid, rfl, haccount, hzones, .inr rfl, .inr rfl, himages⟩⟩

/-- later settings -/
theorem outcome_next (hp : Settled p) (h : c.outcome (.doc (bootstrapSettings.enc p)) = some (.ok doc)) :
    ∃ s, doc = bootstrapSettings.enc s ∧ Settled s ∧ Accepts c s ∧ Filled p s ∧ Agrees c.cfg p := by
  by_cases hagrees : Agrees c.cfg p
  · unfold Call.outcome at h
    rw [resolve_agrees hagrees] at h
    obtain ⟨account, zones, hid, ha, hz, haccount, hzones, himages, hvalid, rfl⟩ := place_ok h
    -- account and zones are those of the settings, which are not empty
    obtain rfl : p.accountId = account := haccount.resolve_left hp.account
    obtain rfl : p.network.availabilityZones = zones := hzones.resolve_left hp.zones
    refine ⟨settingsFor (c.cfg.merged p), rfl, settled_at ha hz hvalid, ?_, settingsFor_merged hagrees, hagrees⟩
    exact ⟨hid, hvalid, rfl, hagrees.account, hagrees.zones, filledImage_orDefault _ _, filledImage_orDefault _ _, himages⟩
  · unfold Call.outcome at h
    rw [resolve_differs hagrees] at h
    simp [refused, Prog.under] at h

/-- a call refused or not, the next one receives settled settings -/
theorem step_pinned (hm : Pinned m) (c : Call) : Pinned (step m c) := by
  unfold step
  split
  next doc hdoc =>
    rcases hm with rfl | ⟨p, rfl, hp⟩
    · obtain ⟨s, rfl, hs, -⟩ := outcome_first hdoc
      exact .inr ⟨s, rfl, hs⟩
    · obtain ⟨s, rfl, hs, -⟩ := outcome_next hp hdoc
      exact .inr ⟨s, rfl, hs⟩
  next => exact hm

/-- one more call fills images of the settings, and changes nothing else -/
theorem step_filled (hp : Settled p) (c : Call) : ∃ s, step (.doc (bootstrapSettings.enc p)) c = .doc (bootstrapSettings.enc s) ∧
    Settled s ∧ Filled p s := by
  unfold step
  split
  next doc hdoc =>
    obtain ⟨s, rfl, hs, -, hfilled, -⟩ := outcome_next hp hdoc
    exact ⟨s, rfl, hs, hfilled⟩
  next => exact ⟨p, rfl, hp, Filled.refl p⟩

theorem run_pinned (calls : List Call) : Pinned (run calls) := by
  suffices hs : ∀ m, Pinned m → Pinned (calls.foldl step m) from hs .empty (.inl rfl)
  induction calls with
  | nil => exact fun m hm => hm
  | cons c calls ih => exact fun m hm => ih (step m c) (step_pinned hm c)

/-- so do all later calls together -/
theorem steps_filled (hp : Settled p) (calls : List Call) :
    ∃ s, calls.foldl step (.doc (bootstrapSettings.enc p)) = .doc (bootstrapSettings.enc s) ∧ Settled s ∧ Filled p s := by
  induction calls generalizing p with
  | nil => exact ⟨p, rfl, hp, Filled.refl p⟩
  | cons c calls ih =>
    obtain ⟨q, hq, hqs, hpq⟩ := step_filled hp c
    obtain ⟨s, hs, hss, hqs'⟩ := ih hqs
    exact ⟨s, by rw [List.foldl_cons, hq, hs], hss, hpq.trans hqs'⟩

/-- a configuration that was accepted agrees with all later settings -/
theorem Accepts.agrees {s : BootstrapSettings} (h : Accepts c s) (hf : Filled s p) : Agrees c.cfg p := by
  have hsame := hf.same
  rw [← h.settings] at hsame
  have hspire : FilledImage c.cfg.spire.amiId p.spireHost.amiId := h.spireImage.trans hf.spire
  have hplatform : FilledImage c.cfg.platform.amiId p.platformHost.amiId := h.platformImage.trans hf.platform
  have haccount : p.accountId = s.accountId := by rw [hf.same]; rfl
  have hzones : p.network.availabilityZones = s.network.availabilityZones := by rw [hf.same]; rfl
  constructor
  · rw [hsame]
    rfl
  · rw [haccount]
    exact h.account
  · rw [hsame]
    rfl
  · rw [hzones]
    exact h.zones
  · rw [hsame]
    rfl
  · rw [hsame]
    exact ⟨rfl, rfl⟩
  · exact hspire.imp_right fun he => .inr he.symm
  · rw [hsame]
    exact ⟨rfl, rfl⟩
  · exact hplatform.imp_right fun he => .inr he.symm

theorem Accepts.merged {s : BootstrapSettings} (h : Accepts c s) (hf : Filled s p) : c.cfg.merged p = c.cfg.at p := by
  unfold BootstrapConfig.merged BootstrapConfig.at
  rw [orDefault_filled (h.spireImage.trans hf.spire), orDefault_filled (h.platformImage.trans hf.platform)]

/-- with everything chosen, only the identity is asked for -/
theorem place_settled {cfg : BootstrapConfig} {prepare : Bool} {ans : (q : AwsCall) → q.Answer}
    (himages : prepare = true ∨ (cfg.spire.amiId ≠ "" ∧ cfg.platform.amiId ≠ ""))
    (hid : ans .getCallerIdentity = some cfg.aws.accountId) (ha : cfg.aws.accountId ≠ "")
    (hz : cfg.network.availabilityZones.items ≠ []) (hv : cfg.validate = .ok ()) :
    (place cfg prepare).under ans = some (.ok (bootstrapSettings.enc (settingsFor cfg))) := by
  have hopen : ¬(prepare = false ∧ (cfg.spire.amiId = "" ∨ cfg.platform.amiId = "")) := by
    rintro ⟨rfl, h | h⟩
    · exact (himages.resolve_left Bool.false_ne_true).1 h
    · exact (himages.resolve_left Bool.false_ne_true).2 h
  have hsame : cfg.withAccount cfg.aws.accountId = cfg := rfl
  have hfinish : (placeZones cfg).under ans = some (.ok (bootstrapSettings.enc (settingsFor cfg))) := by
    simp only [placeZones, if_neg hz, finish, hv, Prog.under]
  rw [place, if_neg hopen, Prog.under, hid]
  simp only [if_neg ha, ne_eq, not_true_eq_false, and_false, if_false, hsame, hfinish]

/-- the same configuration is accepted again, under the same account -/
theorem Accepts.again {s : BootstrapSettings} (h : Accepts c s) (hf : Filled s p) (hp : Settled p) {c' : Call}
    (hcfg : c'.cfg = c.cfg) (hid : c'.identity = c.identity) (hprepare : c.prepare = true → c'.prepare = true) :
    c'.outcome (.doc (bootstrapSettings.enc p)) = some (.ok (bootstrapSettings.enc (settingsFor (c.cfg.at p)))) := by
  have haccount : s.accountId = p.accountId := by rw [hf.same]; rfl
  have hzones : s.network.availabilityZones = p.network.availabilityZones := by rw [hf.same]; rfl
  have hvalid : (c.cfg.at p).validate = .ok () := by
    have hs := h.valid
    rw [BootstrapConfig.at, haccount, hzones] at hs
    exact validate_images hp.spire hp.platform hs
  have himages : c'.prepare = true ∨ (p.spireHost.amiId ≠ "" ∧ p.platformHost.amiId ≠ "") := by
    rcases h.images with hprep | ⟨hspire, hplatform⟩
    · exact .inl (hprepare hprep)
    · right
      rw [hf.spire.resolve_left hspire, hf.platform.resolve_left hplatform]
      exact ⟨hspire, hplatform⟩
  unfold Call.outcome
  rw [hcfg, resolve_agrees (h.agrees hf), h.merged hf]
  have hidentity : c'.identity = some p.accountId := by rw [hid, h.identity, haccount]
  exact place_settled himages hidentity hp.account hp.zones hvalid

end Outcomes

theorem finish_returns (cfg : BootstrapConfig) (ans : (q : AwsCall) → q.Answer) : ∃ r, (finish cfg).under ans = some r := by
  unfold finish
  split
  · exact ⟨_, rfl⟩
  · exact ⟨_, rfl⟩

theorem place_returns (cfg : BootstrapConfig) (prepare : Bool) (ans : (q : AwsCall) → q.Answer) :
    ∃ r, (place cfg prepare).under ans = some r := by
  unfold place
  split_ifs
  · exact ⟨_, rfl⟩
  rw [Prog.under]
  cases ans .getCallerIdentity with
  | none => exact ⟨_, rfl⟩
  | some account =>
    dsimp only
    split_ifs
    · exact ⟨_, rfl⟩
    · exact ⟨_, rfl⟩
    unfold placeZones
    split_ifs
    · rw [Prog.under]
      cases ans .describeAvailabilityZones with
      | none => exact ⟨_, rfl⟩
      | some zones =>
        dsimp only
        split_ifs
        · exact ⟨_, rfl⟩
        · exact finish_returns _ ans
    · exact finish_returns _ ans

/-- every call returns settings or an error -/
theorem outcome_returns (c : Call) (m : RawMessage) : ∃ r, c.outcome m = some r := by
  unfold Call.outcome resolve
  split
  · exact place_returns _ _ _
  · exact ⟨_, rfl⟩
  · split
    · exact ⟨_, rfl⟩
    · split
      · exact ⟨_, rfl⟩
      · exact place_returns _ _ _

theorem doc_enc_inj {p q : BootstrapSettings}
    (h : RawMessage.doc (bootstrapSettings.enc p) = .doc (bootstrapSettings.enc q)) : p = q :=
  bootstrapSettings_faithful p q (congrArg Json.value (RawMessage.doc.inj h))

theorem run_settled {calls : List Call} {p : BootstrapSettings} (h : run calls = .doc (bootstrapSettings.enc p)) :
    Settled p := by
  rcases run_pinned calls with he | ⟨q, hq, hs⟩
  · simp [he] at h
  · exact doc_enc_inj (h.symm.trans hq) ▸ hs

namespace Sample

/-- a call under one account that sees these zones -/
def preparing (zones : List String) : Call where
  cfg := minimal.withDefaults
  prepare := true
  answers
    | .getCallerIdentity => some "123456789012"
    | .describeAvailabilityZones => some (zones.map fun z => (z, "available"))

-- the zones of the first call stay
example : run [preparing ["us-east-1b", "us-east-1a"], preparing ["us-east-1c", "us-east-1d"]] =
    .doc (bootstrapSettings.enc (settingsFor (minimal.withDefaults.pinnedTo "123456789012"
      (some ["us-east-1a", "us-east-1b"]) "" ""))) := by decide +kernel

end Sample

end Crane.Bootstrap.Aws
