/-
The bootstrap runner and its state directory (`internal/bootstrap/runner.go`, `state.go`, `provider.go`).

`run` is one call of `Run`, a program of requests: to the provider, whose answers are arbitrary, and to the three files of
the state directory. A call can end at any request, because the context is done, because something failed, or in a crash.
A file is replaced as a whole, and one call runs at a time.

The shared part of a configuration is everything but its provider_config, with first_zone read as a JSON value: the order
of members does not matter, and of members with one name the last one counts. Once config.json exists, its shared part
stays as it is, except that an image that was empty may be filled (`Pinned`).
-/
import Crane.Bootstrap.Config
import Crane.Lib.Session

namespace Crane.Bootstrap

open Checks Codec

/-! ## State files -/

inductive StateFile where
  | config | endpoint | result
deriving DecidableEq, Repr

/-- `config.json`, `endpoint.json` and `result.json`, where they exist -/
structure StateDir where
  config : Option Json := none
  endpoint : Option Json := none
  result : Option Json := none
deriving DecidableEq, Repr

def StateDir.file (d : StateDir) : StateFile → Option Json
  | .config => d.config
  | .endpoint => d.endpoint
  | .result => d.result

/-- writes a new file and renames it -/
def StateDir.write (d : StateDir) (f : StateFile) (j : Json) : StateDir :=
  match f with
  | .config => { d with config := some j }
  | .endpoint => { d with endpoint := some j }
  | .result => { d with result := some j }

structure Result where
  name : String := ""
  provider : String := ""
  identityEndpoint : String := ""
  apiServerEndpoint : String := ""
  controlPlaneEndpoint : String := ""
  targetHostId : String := ""
  observabilityStatus : String := ""
  connectionInstructions : String := ""
  providerOutput : RawMessage := .empty
deriving DecidableEq, Repr, Inhabited

section Codecs

/-- a text that is no document is not written: see `Config.document` and `Result.document` -/
def rawMessage : Codec RawMessage where
  enc
    | .doc j => j
    | .empty => .null
    | .malformed => .null
  into _ j := some (.doc j)

def RawMessage.isEmpty (m : RawMessage) : Bool := m = .empty

def spireConfig : Codec SpireConfig := record false [
  field "version" (·.version) (fun v s => { s with version := v }) text,
  field "trust_domain" (·.trustDomain) (fun v s => { s with trustDomain := v }) text,
  omitempty "image" (·.image) (fun v s => { s with image := v }) text (· = "")]

def platformConfig : Codec PlatformConfig := record false [
  omitempty "crane_api_image" (·.craneApiImage) (fun v p => { p with craneApiImage := v }) text (· = ""),
  omitempty "dominator_image" (·.dominatorImage) (fun v p => { p with dominatorImage := v }) text (· = ""),
  field "kubernetes_version" (·.kubernetesVersion) (fun v p => { p with kubernetesVersion := v }) text,
  field "cilium_version" (·.ciliumVersion) (fun v p => { p with ciliumVersion := v }) text,
  field "pod_cidr" (·.podCidr) (fun v p => { p with podCidr := v }) text]

def config : Codec Config := record false [
  field "development_stage" (·.developmentStage) (fun v c => { c with developmentStage := v }) text,
  field "group_suffix" (·.groupSuffix) (fun v c => { c with groupSuffix := v }) text,
  field "version" (·.version) (fun v c => { c with version := v }) int64,
  field "name" (·.name) (fun v c => { c with name := v }) text,
  field "provider" (·.provider) (fun v c => { c with provider := v }) text,
  field "provider_config" (·.providerConfig) (fun v c => { c with providerConfig := v }) rawMessage,
  field "spire" (·.spire) (fun v c => { c with spire := v }) spireConfig,
  field "platform" (·.platform) (fun v c => { c with platform := v }) platformConfig,
  omitempty "first_zone" (·.firstZone) (fun v c => { c with firstZone := v }) rawMessage RawMessage.isEmpty]

def result : Codec Result := record false [
  field "name" (·.name) (fun v r => { r with name := v }) text,
  field "provider" (·.provider) (fun v r => { r with provider := v }) text,
  field "identity_endpoint" (·.identityEndpoint) (fun v r => { r with identityEndpoint := v }) text,
  omitempty "api_server_endpoint" (·.apiServerEndpoint) (fun v r => { r with apiServerEndpoint := v }) text (· = ""),
  omitempty "control_plane_endpoint" (·.controlPlaneEndpoint) (fun v r => { r with controlPlaneEndpoint := v }) text
    (· = ""),
  omitempty "target_host_id" (·.targetHostId) (fun v r => { r with targetHostId := v }) text (· = ""),
  omitempty "observability_status" (·.observabilityStatus) (fun v r => { r with observabilityStatus := v }) text (· = ""),
  omitempty "connection_instructions" (·.connectionInstructions) (fun v r => { r with connectionInstructions := v }) text
    (· = ""),
  omitempty "provider_output" (·.providerOutput) (fun v r => { r with providerOutput := v }) rawMessage RawMessage.isEmpty]

end Codecs

/-- json.Marshal, which fails on a raw message that is no document -/
def Config.document (c : Config) : Option Json :=
  if c.providerConfig = .malformed ∨ c.firstZone = .malformed then none else some (config.enc c)

def Result.document (r : Result) : Option Json :=
  if r.providerOutput = .malformed then none else some (result.enc r)

/-! ## The pin check -/

/-- `mergeImage` on both images, seen from one side -/
def Config.mergeImages (c other : Config) : Config :=
  { c with platform := { c.platform with
      craneApiImage := orDefault c.platform.craneApiImage other.platform.craneApiImage
      dominatorImage := orDefault c.platform.dominatorImage other.platform.dominatorImage } }

def Config.withoutProvider (c : Config) : Config := { c with providerConfig := .empty }

/-- compares a configuration with the stored one; the configuration that goes on has the stored images -/
def pin (cfg stored : Config) : Except String Config := do
  match stored.validate with
  | .error e => .error ("invalid pinned configuration: " ++ e)
  | .ok () =>
    let stored := stored.withDefaults
    ensure (stored.provider = cfg.provider ∧ stored.name = cfg.name)
      "local deployment belongs to another provider or deployment"
    let candidate := cfg.mergeImages stored
    let prior := stored.mergeImages candidate
    ensure (Json.sameJson (config.enc candidate.withoutProvider) (config.enc prior.withoutProvider) = true)
      "deployment already has different shared configuration"
    return candidate

/-! ## Run -/

inductive HostPhase where
  | installIdentity | registerWorkloads | installPlatform | validateHandoff
deriving DecidableEq, Repr

/-- requests that succeed or fail -/
inductive Op where
  | factory (cfg : Config)
  | prepareEndpoint
  | ensureCredentials
  | ensureInfrastructure
  | ensureHosts
  | runHostPhase (p : HostPhase)
  | mkdirAll
  | write (f : StateFile) (j : Json)
deriving DecidableEq, Repr

inductive Query where
  /-- whether the context is still alive -/
  | context
  | op (o : Op)
  | read (f : StateFile)
  | resolve (previous : RawMessage) (prepare : Bool)
  | result
deriving DecidableEq, Repr

def Query.Answer : Query → Type
  | .context => Bool
  | .op _ => Bool
  | .read _ => Option (Option Json)
  | .resolve _ _ => Option RawMessage
  | .result => Result

abbrev Call := Prog Query Query.Answer (Except String Result)

def fails (e : String) : Call := .ret (.error e)

structure RunOptions where
  stateDir : String
  prepareImages : Bool
deriving DecidableEq, Repr

/-- stands for the errors of the context, the provider and the file system -/
def externalError : String := "external"

/-- a phase starts only while the context is alive -/
def whileAlive (next : Call) : Call :=
  .ask .context fun (alive : Bool) => if alive then next else fails externalError

def attempt (o : Op) (next : Call) : Call :=
  .ask (.op o) fun (ok : Bool) => if ok then next else fails externalError

/-- `readState` -/
def readState {α : Type} (f : StateFile) (c : Codec α) (zero : α) (next : Option α → Call) : Call :=
  .ask (.read f) fun
    | none => fails externalError
    | some none => next none
    | some (some j) => match c.into zero j with
      | none => fails "invalid local deployment state"
      | some a => next (some a)

def resolveSettings (previous : RawMessage) (prepare : Bool) (next : RawMessage → Call) : Call :=
  .ask (.resolve previous prepare) fun
    | none => fails externalError
    | some settings => next settings

/-- `writeJSONAtomic` -/
def writeState (f : StateFile) (document : Option Json) (next : Call) : Call :=
  match document with
  | none => fails jsonError
  | some j => attempt (.write f j) next

/-- the result of the session, if it does not contradict the pinned endpoint -/
def checkEndpoint (cfg : Config) (endpoint : Option Result) (next : Result → Call) : Call :=
  .ask .result fun r =>
    if r.identityEndpoint = "" then fails "provider returned no identity endpoint"
    else if endpoint.any fun p => r.identityEndpoint ≠ p.identityEndpoint then
      fails "identity endpoint changed; use an explicit endpoint rollout"
    else next { r with name := cfg.name, provider := cfg.provider }

def runHostPhases (next : Call) : List HostPhase → Call
  | [] => next
  | p :: ps => whileAlive <| attempt (.runHostPhase p) <| runHostPhases next ps

def prepare (cfg : Config) (endpoint : Option Result) : Call :=
  whileAlive <| attempt .prepareEndpoint <| checkEndpoint cfg endpoint fun r =>
    whileAlive <| writeState .endpoint r.document <| .ret (.ok r)

def install (cfg : Config) (endpoint : Option Result) : Call :=
  whileAlive <| attempt .ensureCredentials <|
  whileAlive <| attempt .ensureInfrastructure <| checkEndpoint cfg endpoint fun _ =>
  whileAlive <| attempt .ensureHosts <|
  runHostPhases (checkEndpoint cfg endpoint fun r => whileAlive <| writeState .result r.document <| .ret (.ok r))
    [.installIdentity, .registerWorkloads, .installPlatform, .validateHandoff]

/-- from the resolved configuration on -/
def persist (cfg : Config) (endpoint : Option Result) (options : RunOptions) : Call :=
  match cfg.validate with
  | .error e => fails ("invalid resolved configuration: " ++ e)
  | .ok () => attempt .mkdirAll <| writeState .config cfg.document <|
    if options.prepareImages then prepare cfg endpoint else install cfg endpoint

/-- from the pinned configuration on; `previous` is the stored provider configuration -/
def provision (cfg : Config) (previous : RawMessage) (options : RunOptions) : Call :=
  if options.prepareImages = false ∧ (cfg.platform.craneApiImage = "" ∨ cfg.platform.dominatorImage = "") then
    fails "provide pinned platform images after preparing the endpoint"
  else readState .endpoint result {} fun endpoint =>
    if endpoint.any fun p => p.provider ≠ cfg.provider || p.name ≠ cfg.name || p.identityEndpoint = "" then
      fails "invalid pinned identity endpoint"
    else attempt (.factory cfg) <| whileAlive <| resolveSettings previous options.prepareImages fun settings =>
      whileAlive <| persist { cfg with providerConfig := settings } endpoint options

def pinned (cfg : Config) (options : RunOptions) (stored : Option Config) : Call :=
  match stored with
  | none => provision cfg .empty options
  | some s => match pin cfg s with
    | .error e => fails e
    | .ok cfg => provision cfg s.providerConfig options

def run (cfg : Config) (options : RunOptions) : Call :=
  match cfg.validate with
  | .error e => fails e
  | .ok () => whileAlive <|
    if options.stateDir = "" then fails "state directory is required"
    else readState .config config {} (pinned cfg.withDefaults options)

/-! ## Executions -/

/-- what a call meets: at its n-th request it may crash, the request may fail, and a provider gives some answer -/
structure Environment where
  crash : ℕ → Bool
  fail : ℕ → Bool
  resolved : ℕ → RawMessage
  observed : ℕ → Result

/-- a request and its answer -/
inductive Event where
  | context (alive : Bool)
  | op (o : Op) (ok : Bool)
  | read (f : StateFile) (content : Option (Option Json))
  | resolve (previous : RawMessage) (prepare : Bool) (answer : Option RawMessage)
  | result (r : Result)
deriving DecidableEq, Repr

/-- the endpoint that an event has shown -/
def Event.observed : Event → Option String
  | .result r => some r.identityEndpoint
  | _ => none

/-- the state directory during a call, and what the call has done -/
structure Progress where
  dir : StateDir
  log : List Event
deriving DecidableEq, Repr

def Progress.record (s : Progress) (e : Event) : Progress := { s with log := s.log ++ [e] }

/-- the effect of a successful request on the directory -/
def Op.effect (o : Op) (d : StateDir) : StateDir :=
  match o with
  | .write f j => d.write f j
  | _ => d

def reply (x : Environment) (n : ℕ) (q : Query) (s : Progress) : Option (q.Answer × Progress) :=
  if x.crash n then none
  else match q with
    | .context => some (!x.fail n, s.record (.context (!x.fail n)))
    | .op o =>
      if x.fail n then some (false, s.record (.op o false))
      else some (true, { s.record (.op o true) with dir := o.effect s.dir })
    | .read f =>
      if x.fail n then some (none, s.record (.read f none))
      else some (some (s.dir.file f), s.record (.read f (some (s.dir.file f))))
    | .resolve p b =>
      if x.fail n then some (none, s.record (.resolve p b none))
      else some (some (x.resolved n), s.record (.resolve p b (some (x.resolved n))))
    | .result => some (x.observed n, s.record (.result (x.observed n)))

/-- one call of `Run` -/
structure Invocation where
  cfg : Config
  /-- integers are of magnitude at most 2^53 -/
  exact : cfg.firstZone.exact = true
  options : RunOptions
  environment : Environment

def Invocation.exec (i : Invocation) (d : StateDir) : Progress × Option (Except String Result) :=
  (run i.cfg i.options).exec (reply i.environment) 0 ⟨d, []⟩

/-- the state directory after calls one after the other, from an empty one -/
def dirAfter (calls : List Invocation) : StateDir := calls.foldl (fun d i => (i.exec d).1.dir) {}

/-! ## Documents -/

/-- a configuration that a call may write -/
structure Good (c : Config) : Prop where
  valid : c.validate = .ok ()
  defaults : c.withDefaults = c
  exact : c.firstZone.exact = true

theorem spireConfig_returns (s : SpireConfig) : spireConfig.Returns {} s :=
  record_returns (by decide) ⟨_, field_copies (text_returns _ _), _, field_copies (text_returns _ _),
    _, omitempty_copies rfl of_decide_eq_true (text_returns _ _), rfl⟩

theorem platformConfig_returns (p : PlatformConfig) : platformConfig.Returns {} p :=
  record_returns (by decide) ⟨_, omitempty_copies rfl of_decide_eq_true (text_returns _ _),
    _, omitempty_copies rfl of_decide_eq_true (text_returns _ _), _, field_copies (text_returns _ _),
    _, field_copies (text_returns _ _), _, field_copies (text_returns _ _), rfl⟩

theorem rawMessage_returns {m : RawMessage} (old : RawMessage) (hm : m ≠ .malformed) (he : m ≠ .empty) :
    rawMessage.Returns old m := by
  cases m with
  | empty => exact absurd rfl he
  | malformed => exact absurd rfl hm
  | doc j => rfl

/-- a raw message that may be left out -/
theorem rawMessage_omitted {m : RawMessage} (old : RawMessage) (hm : m ≠ .malformed) (he : m.isEmpty = false) :
    rawMessage.Returns old m := rawMessage_returns old hm (of_decide_eq_false he)

theorem config_returns {c : Config} (hv : 0 ≤ c.version ∧ c.version < 9223372036854775808)
    (hp : c.providerConfig ≠ .malformed ∧ c.providerConfig ≠ .empty) (hz : c.firstZone ≠ .malformed) :
    config.Returns {} c :=
  record_returns (by decide) ⟨_, field_copies (text_returns _ _), _, field_copies (text_returns _ _),
    _, field_copies (int64_returns _ hv.1 hv.2), _, field_copies (text_returns _ _), _, field_copies (text_returns _ _),
    _, field_copies (rawMessage_returns _ hp.1 hp.2), _, field_copies (spireConfig_returns _),
    _, field_copies (platformConfig_returns _),
    _, omitempty_copies_of rfl of_decide_eq_true (rawMessage_omitted _ hz), rfl⟩

theorem result_returns {r : Result} (hr : r.providerOutput ≠ .malformed) : result.Returns {} r :=
  record_returns (by decide) ⟨_, field_copies (text_returns _ _), _, field_copies (text_returns _ _),
    _, field_copies (text_returns _ _), _, omitempty_copies rfl of_decide_eq_true (text_returns _ _),
    _, omitempty_copies rfl of_decide_eq_true (text_returns _ _),
    _, omitempty_copies rfl of_decide_eq_true (text_returns _ _),
    _, omitempty_copies rfl of_decide_eq_true (text_returns _ _),
    _, omitempty_copies rfl of_decide_eq_true (text_returns _ _),
    _, omitempty_copies_of rfl of_decide_eq_true (rawMessage_omitted _ hr), rfl⟩

/-- what a valid configuration has, with its defaults -/
theorem check_ok {c : Config} (h : c.check = .ok ()) :
    c.version = 3 ∧ c.providerConfig.isObject = true ∧ c.firstZone ≠ .malformed := by
  simp only [Config.check, bind_ok, ensure_ok, exists_const] at h
  obtain ⟨hversion, -, -, hobject, _, -, -, -, _, -, _, -, -, i, hi, -⟩ := h
  refine ⟨hversion, hobject, ?_⟩
  intro hmal
  simp [firstZone, decodeFirstZone, hmal, Bind.bind, Except.bind] at hi

section Documents
variable {c : Config}

theorem Good.check (h : Good c) : c.version = 3 ∧ c.providerConfig.isObject = true ∧ c.firstZone ≠ .malformed := by
  have hv := h.valid
  rw [Config.validate, h.defaults] at hv
  exact check_ok hv

theorem object_ne {m : RawMessage} (h : m.isObject = true) : m ≠ .malformed ∧ m ≠ .empty := by
  cases m <;> simp_all [RawMessage.isObject]

theorem Good.read (h : Good c) : config.into {} (config.enc c) = some c := by
  obtain ⟨hversion, hobject, hzone⟩ := h.check
  exact config_returns (by omega) (object_ne hobject) hzone

theorem Good.document (h : Good c) : c.document = some (config.enc c) := by
  obtain ⟨-, hobject, hzone⟩ := h.check
  exact if_neg (not_or.mpr ⟨(object_ne hobject).1, hzone⟩)

end Documents

/-- the configuration that is stored, and the endpoint -/
def StateDir.pinned (d : StateDir) : Option Config := d.config.bind (Bootstrap.config.into {})

def StateDir.identity (d : StateDir) : Option String := (d.endpoint.bind (Bootstrap.result.into {})).map Result.identityEndpoint

/-! ## Shared parts -/

/-- what a raw message means -/
def RawMessage.meaning : RawMessage → RawMessage
  | .doc j => .doc j.value
  | .empty => .empty
  | .malformed => .malformed

/-- all that is pinned of a configuration -/
def Config.shared (c : Config) : Config := { c with providerConfig := .empty, firstZone := c.firstZone.meaning }

theorem spireConfig_faithful : spireConfig.Faithful := by
  intro a b h
  obtain ⟨h₁, h₂, h₃, -⟩ := record_told (by decide) h
  cases a
  cases b
  rw [SpireConfig.mk.injEq]
  exact ⟨field_same text_faithful h₁, field_same text_faithful h₂,
    omitempty_same text_faithful (fun _ => of_decide_eq_true) h₃⟩

theorem platformConfig_faithful : platformConfig.Faithful := by
  intro a b h
  obtain ⟨h₁, h₂, h₃, h₄, h₅, -⟩ := record_told (by decide) h
  cases a
  cases b
  rw [PlatformConfig.mk.injEq]
  exact ⟨omitempty_same text_faithful (fun _ => of_decide_eq_true) h₁,
    omitempty_same text_faithful (fun _ => of_decide_eq_true) h₂, field_same text_faithful h₃,
    field_same text_faithful h₄, field_same text_faithful h₅⟩

theorem spireConfig_exact : spireConfig.Exact := by
  intro s
  apply record_exact
  simp [field, omitempty, text_exact _]

theorem platformConfig_exact : platformConfig.Exact := by
  intro p
  apply record_exact
  simp [field, omitempty, text_exact _]

theorem rawMessage_exact {m : RawMessage} (h : m.exact = true) : (rawMessage.enc m).exact = true := by
  cases m with
  | empty => rfl
  | malformed => rfl
  | doc j => exact h

theorem config_exact {c : Config} (hv : c.version.natAbs ≤ 2 ^ 53) (hp : c.providerConfig.exact = true)
    (hz : c.firstZone.exact = true) : (config.enc c).exact = true := by
  apply record_exact
  simp [field, omitempty, text_exact _, int64_exact hv, rawMessage_exact hp, rawMessage_exact hz, spireConfig_exact _,
    platformConfig_exact _]

section Shared
variable {a b : Config}

/-- raw messages that are left out together, or written as documents of one meaning -/
theorem meaning_of_same {name : String} {get : Config → RawMessage} {set : RawMessage → Config → Config}
    (h : (omitempty name get set rawMessage RawMessage.isEmpty).Same a b) (ha : get a ≠ .malformed)
    (hb : get b ≠ .malformed) : (get a).meaning = (get b).meaning := by
  obtain ⟨ho, hv⟩ := h
  simp only [omitempty, field] at ho hv
  generalize get a = m at ha ho hv
  generalize get b = n at hb ho hv
  cases m with
  | malformed => exact absurd rfl ha
  | empty =>
    have hn : n = .empty := by simpa [RawMessage.isEmpty] using ho.symm
    rw [hn]
  | doc j =>
    cases n with
    | malformed => exact absurd rfl hb
    | empty => simp [RawMessage.isEmpty] at ho
    | doc j' => exact congrArg RawMessage.doc (hv rfl)

theorem same_of_meaning {name : String} {get : Config → RawMessage} {set : RawMessage → Config → Config}
    (h : (get a).meaning = (get b).meaning) : (omitempty name get set rawMessage RawMessage.isEmpty).Same a b := by
  simp only [Field.Same, omitempty, field]
  generalize get a = m at h
  generalize get b = n at h
  cases m <;> cases n <;> simp_all [RawMessage.meaning, RawMessage.isEmpty, rawMessage]

/-- configurations are the same JSON iff their shared parts are equal -/
theorem sameJson_shared (hva : a.version = 3) (hvb : b.version = 3) (hza : a.firstZone.exact = true)
    (hzb : b.firstZone.exact = true) (hma : a.firstZone ≠ .malformed) (hmb : b.firstZone ≠ .malformed) :
    Json.sameJson (config.enc a.withoutProvider) (config.enc b.withoutProvider) = true ↔ a.shared = b.shared := by
  have hea : (config.enc a.withoutProvider).exact = true := config_exact (by simp [Config.withoutProvider, hva]) rfl hza
  have heb : (config.enc b.withoutProvider).exact = true := config_exact (by simp [Config.withoutProvider, hvb]) rfl hzb
  rw [Json.sameJson_iff hea heb]
  constructor
  · intro h
    obtain ⟨h₁, h₂, h₃, h₄, h₅, -, h₇, h₈, h₉, -⟩ := record_told (by decide) h
    have hz := meaning_of_same h₉ hma hmb
    cases a
    cases b
    simp only [Config.shared, Config.mk.injEq]
    exact ⟨field_same text_faithful h₁, field_same text_faithful h₂, field_same int64_faithful h₃,
      field_same text_faithful h₄, field_same text_faithful h₅, trivial, field_same spireConfig_faithful h₇,
      field_same platformConfig_faithful h₈, hz⟩
  · intro h
    cases a
    cases b
    simp only [Config.shared, Config.mk.injEq] at h
    obtain ⟨rfl, rfl, rfl, rfl, rfl, -, rfl, rfl, hz⟩ := h
    refine value_of_told ⟨?_, ?_, ?_, ?_, ?_, ?_, ?_, ?_, same_of_meaning hz, trivial⟩
    all_goals exact same_of_eq rfl rfl

end Shared

/-- the images of another configuration -/
def Config.withImages (c other : Config) : Config :=
  { c with platform := { c.platform with
      craneApiImage := other.platform.craneApiImage
      dominatorImage := other.platform.dominatorImage } }

/-- the shared part is the same, but for images that were empty -/
structure Pinned (c c' : Config) : Prop where
  shared : c'.shared = (c.withImages c').shared
  api : FilledImage c.platform.craneApiImage c'.platform.craneApiImage
  dominator : FilledImage c.platform.dominatorImage c'.platform.dominatorImage

/-- a configuration that says nothing else than the stored one; either side may leave an image open -/
structure Agrees (cfg c : Config) : Prop where
  shared : cfg.shared = (c.withImages cfg).shared
  api : cfg.platform.craneApiImage = "" ∨ FilledImage c.platform.craneApiImage cfg.platform.craneApiImage
  dominator : cfg.platform.dominatorImage = "" ∨ FilledImage c.platform.dominatorImage cfg.platform.dominatorImage

section Pin
variable {cfg c c' c'' : Config}

theorem shared_withImages (c other : Config) : (c.withImages other).shared = c.shared.withImages other := rfl

theorem shared_mergeImages (c other : Config) : (c.mergeImages other).shared = c.shared.mergeImages other := rfl

theorem Pinned.refl (c : Config) : Pinned c c := ⟨rfl, .inr rfl, .inr rfl⟩

theorem Pinned.trans (h : Pinned c c') (h' : Pinned c' c'') : Pinned c c'' := by
  refine ⟨?_, h.api.trans h'.api, h.dominator.trans h'.dominator⟩
  rw [h'.shared, shared_withImages, h.shared]
  rfl

/-- the provider's part does not matter -/
theorem Pinned.withProvider (h : Pinned c c') (m : RawMessage) : Pinned c { c' with providerConfig := m } :=
  ⟨h.shared, h.api, h.dominator⟩

theorem Pinned.agrees (h : Pinned cfg c) : Agrees cfg c := by
  refine ⟨?_, ?_, ?_⟩
  · rw [shared_withImages, h.shared]
    rfl
  · exact h.api.imp_right fun he => .inr he.symm
  · exact h.dominator.imp_right fun he => .inr he.symm

theorem Agrees.named (h : Agrees cfg c) : c.provider = cfg.provider ∧ c.name = cfg.name :=
  ⟨(congrArg Config.provider h.shared).symm, (congrArg Config.name h.shared).symm⟩

/-- the merge of both sides -/
theorem merged_iff : (cfg.mergeImages c).shared = (c.mergeImages (cfg.mergeImages c)).shared ↔ Agrees cfg c := by
  constructor
  · intro h
    have hapi := congrArg (fun d => d.platform.craneApiImage) h
    have hdominator := congrArg (fun d => d.platform.dominatorImage) h
    refine ⟨?_, orDefault_both_iff.mp hapi, orDefault_both_iff.mp hdominator⟩
    exact congrArg (fun d => d.withImages cfg) h
  · intro h
    have hapi := orDefault_both_iff.mpr h.api
    have hdominator := orDefault_both_iff.mpr h.dominator
    rw [shared_mergeImages, shared_mergeImages, h.shared]
    simp only [Config.mergeImages, Config.shared, Config.withImages]
    rw [← hapi, ← hdominator]

theorem Agrees.pinned (h : Agrees cfg c) : Pinned c (cfg.mergeImages c) := by
  have hshared := merged_iff.mpr h
  refine ⟨?_, ?_, ?_⟩
  · rw [shared_mergeImages, h.shared]
    rfl
  · exact congrArg (fun d => d.platform.craneApiImage) hshared ▸ filledImage_orDefault _ _
  · exact congrArg (fun d => d.platform.dominatorImage) hshared ▸ filledImage_orDefault _ _

theorem pinned_mergeImages (cfg c : Config) : Pinned cfg (cfg.mergeImages c) :=
  ⟨rfl, filledImage_orDefault _ _, filledImage_orDefault _ _⟩

/-- the pin check passes iff the configurations agree -/
theorem pin_ok (hcfg : Good cfg) (hc : Good c) : pin cfg c = .ok c' ↔ Agrees cfg c ∧ c' = cfg.mergeImages c := by
  obtain ⟨hva, -, hma⟩ := hcfg.check
  obtain ⟨hvb, -, hmb⟩ := hc.check
  have hsame := sameJson_shared (a := cfg.mergeImages c) (b := c.mergeImages (cfg.mergeImages c)) hva hvb hcfg.exact
    hc.exact hma hmb
  rw [merged_iff] at hsame
  simp only [pin, hc.valid, hc.defaults, seq_ok, ensure_ok, hsame]
  constructor
  · rintro ⟨-, hagrees, ⟨⟩⟩
    exact ⟨hagrees, rfl⟩
  · rintro ⟨hagrees, rfl⟩
    exact ⟨hagrees.named, hagrees, rfl⟩

theorem pin_error (hcfg : Good cfg) (hc : Good c) (h : ¬Agrees cfg c) : ∃ e, pin cfg c = .error e := by
  cases hp : pin cfg c with
  | error e => exact ⟨e, rfl⟩
  | ok c' => exact absurd ((pin_ok hcfg hc).mp hp).1 h

theorem good_withDefaults (h : cfg.validate = .ok ()) (he : cfg.firstZone.exact = true) : Good cfg.withDefaults := by
  refine ⟨?_, cfg.withDefaults_withDefaults, ?_⟩
  · rw [cfg.validate_withDefaults]
    exact h
  · simp only [Config.withDefaults]
    cases hz : cfg.firstZone with
    | doc j => cases j <;> simp_all [RawMessage.nonNull, RawMessage.exact]
    | empty => rfl
    | malformed => rfl

/-- what a call writes: the configuration with its images and the provider's settings, validated again -/
theorem Good.resolved {m : RawMessage} (h : Good cfg) (hc : c = cfg.withImages c)
    (hv : { c with providerConfig := m }.validate = .ok ()) : Good { c with providerConfig := m } := by
  refine ⟨hv, ?_, ?_⟩
  · rw [hc]
    exact congrArg (fun d => { d.withImages c with providerConfig := m }) h.defaults
  · rw [hc]
    exact h.exact

end Pin

/-! ## What a call may do -/

/-- no endpoint that was observed differs from the pinned one -/
def Undisputed (d : StateDir) (log : List Event) : Prop :=
  ∀ v ∈ log, ∀ o, v.observed = some o → ∀ e, d.identity = some e → o = e

/-- every document of the directory is one that a call has written -/
structure StateDir.Sound (d : StateDir) : Prop where
  config : ∀ j, d.config = some j → ∃ c, j = Bootstrap.config.enc c ∧ Good c
  endpoint : ∀ j, d.endpoint = some j → ∃ r, j = Bootstrap.result.enc r ∧ r.providerOutput ≠ .malformed

theorem StateDir.Sound.pinned {d : StateDir} (hd : d.Sound) {j : Json} (h : d.config = some j) :
    ∃ c, Good c ∧ j = Bootstrap.config.enc c ∧ d.pinned = some c := by
  obtain ⟨c, rfl, hc⟩ := hd.config j h
  refine ⟨c, hc, rfl, ?_⟩
  rw [StateDir.pinned, h]
  exact hc.read

theorem StateDir.Sound.good {d : StateDir} (hd : d.Sound) {c : Config} (h : d.pinned = some c) : Good c := by
  obtain ⟨j, hj, hc⟩ := Option.bind_eq_some_iff.mp h
  obtain ⟨c', hgood, -, hp⟩ := hd.pinned hj
  rw [Option.some.inj (h.symm.trans hp)]
  exact hgood

theorem StateDir.Sound.identity {d : StateDir} (hd : d.Sound) {j : Json} (h : d.endpoint = some j) :
    ∃ e, d.identity = some e := by
  obtain ⟨r, rfl, hr⟩ := hd.endpoint j h
  refine ⟨r.identityEndpoint, ?_⟩
  rw [StateDir.identity, h, Option.bind_some, result_returns hr]
  rfl

/-- how a request may be answered, and what it does -/
def Answers : (q : Query) → Progress → q.Answer → Progress → Prop
  | .context, s, b, s' => s' = s.record (.context b)
  | .op o, s, (ok : Bool), s' => s' = { s.record (.op o ok) with dir := if ok then o.effect s.dir else s.dir }
  | .read f, s, a, s' => s' = s.record (.read f a) ∧ (a = none ∨ a = some (s.dir.file f))
  | .resolve p b, s, a, s' => s' = s.record (.resolve p b a)
  | .result, s, r, s' => s' = s.record (.result r)

theorem reply_answers (x : Environment) (n : ℕ) (q : Query) (s : Progress) (r : q.Answer) (s' : Progress)
    (h : reply x n q s = some (r, s')) : Answers q s r s' := by
  cases hcrash : x.crash n <;> simp only [reply, hcrash, Bool.false_eq_true, if_false, if_true, reduceCtorEq] at h
  cases q with
  | context =>
    cases h
    rfl
  | op o =>
    cases hfail : x.fail n <;> simp only [hfail, Bool.false_eq_true, if_false, if_true] at h <;> cases h <;> rfl
  | read f =>
    cases hfail : x.fail n <;> simp only [hfail, Bool.false_eq_true, if_false, if_true] at h <;> cases h
    · exact ⟨rfl, .inr rfl⟩
    · exact ⟨rfl, .inl rfl⟩
  | resolve p b =>
    cases hfail : x.fail n <;> simp only [hfail, Bool.false_eq_true, if_false, if_true] at h <;> cases h <;> rfl
  | result =>
    cases h
    rfl

/-- a call whose requests to change something meet `G`; nobody else acts -/
def callRules (G : Op → Progress → Prop) : Rules Query Query.Answer Progress where
  rely := Eq
  refl _ := rfl
  trans := Eq.trans
  guard
    | .op o, s => G o s
    | _, _ => True
  answer := Answers

section Requests
variable {G : Op → Progress → Prop} {post : Except String Result → Progress → Prop} {next : Call} {s : Progress}

/-- an assertion about the directory and the observed endpoints -/
def Steady (K : Progress → Prop) : Prop := ∀ s (e : Event), e.observed = none → K s → K (s.record e)

variable {K : Progress → Prop} (hK : Steady K) (hfail : ∀ e s, post (.error e) s)

include hfail

theorem safe_attempt {o : Op} (hG : G o s)
    (h : SafeTo (callRules G) post next { s.record (.op o true) with dir := o.effect s.dir }) :
    SafeTo (callRules G) post (attempt o next) s := by
  rintro _ rfl
  refine ⟨hG, ?_⟩
  rintro ok _ rfl
  cases ok with
  | true => exact h
  | false => exact hfail _ _

include hK

theorem safe_whileAlive (h : ∀ s, K s → SafeTo (callRules G) post next s) (hs : K s) :
    SafeTo (callRules G) post (whileAlive next) s := by
  rintro _ rfl
  refine ⟨trivial, ?_⟩
  rintro alive _ rfl
  cases alive with
  | true => exact h _ (hK _ _ rfl hs)
  | false => exact hfail _ _

/-- a request that does not write -/
theorem safe_request {o : Op} (hG : G o s) (ho : ∀ d, o.effect d = d) (h : ∀ s, K s → SafeTo (callRules G) post next s)
    (hs : K s) : SafeTo (callRules G) post (attempt o next) s := by
  apply safe_attempt hfail hG
  rw [ho]
  exact h _ (hK _ _ rfl hs)

theorem safe_readState {α : Type} {f : StateFile} {c : Codec α} {zero : α} {next : Option α → Call}
    (h : ∀ s', K s' → ∀ a, (s.dir.file f).bind (c.into zero) = a → (s.dir.file f = none ∨ a ≠ none) →
      SafeTo (callRules G) post (next a) s') (hs : K s) : SafeTo (callRules G) post (readState f c zero next) s := by
  rintro _ rfl
  refine ⟨trivial, ?_⟩
  rintro content _ ⟨rfl, hcontent⟩
  have hs' : K (s.record (.read f content)) := hK _ _ rfl hs
  rcases hcontent with rfl | rfl
  · exact hfail _ _
  · cases hf : s.dir.file f with
    | none =>
      rw [hf] at hs' h
      exact h _ hs' none rfl (.inl rfl)
    | some j =>
      rw [hf] at hs' h
      cases ha : c.into zero j with
      | none =>
        simp only [ha]
        exact hfail _ _
      | some a =>
        simp only [ha]
        exact h _ hs' (some a) ha (.inr nofun)

theorem safe_resolveSettings {p : RawMessage} {b : Bool} {next : RawMessage → Call}
    (h : ∀ m s, K s → SafeTo (callRules G) post (next m) s) (hs : K s) :
    SafeTo (callRules G) post (resolveSettings p b next) s := by
  rintro _ rfl
  refine ⟨trivial, ?_⟩
  rintro answer _ rfl
  cases answer with
  | none => exact hfail _ _
  | some m => exact h m _ (hK _ _ rfl hs)

end Requests

/-- what a call with this configuration may do to a directory -/
def Permitted (cfg : Config) (d : StateDir) : Op → Progress → Prop
  | .write .config j, s => ∃ c, j = config.enc c ∧ Good c ∧ Pinned cfg c ∧ ∀ p, s.dir.pinned = some p → Pinned p c
  | .write .endpoint j, _ => ∃ r, j = result.enc r ∧ r.providerOutput ≠ .malformed ∧
      ∀ e, d.identity = some e → r.identityEndpoint = e
  | .runHostPhase _, s => Undisputed d s.log
  | _, _ => True

section Call
variable {input cfg : Config} {d : StateDir} {options : RunOptions} {endpoint : Option Result} {s : Progress}

/-- before the configuration is written -/
def Fresh (d : StateDir) (s : Progress) : Prop := s.dir = d ∧ Undisputed d s.log

theorem Undisputed.record {e : Event} (h : Undisputed d s.log)
    (he : ∀ o, e.observed = some o → ∀ i, d.identity = some i → o = i) : Undisputed d (s.record e).log := by
  intro v hv
  rcases List.mem_append.mp hv with hv | hv
  · exact h v hv
  · rw [List.mem_singleton.mp hv]
    exact he

theorem steady_undisputed : Steady fun s => Undisputed d s.log := by
  intro s e he hs
  apply hs.record
  intro o ho
  rw [he] at ho
  cases ho

theorem steady_fresh : Steady (Fresh d) := fun s e he hs => ⟨hs.1, steady_undisputed s e he hs.2⟩

abbrev callPost : Except String Result → Progress → Prop := fun _ _ => True

theorem safe_checkEndpoint {next : Result → Call} (hendpoint : d.identity = endpoint.map Result.identityEndpoint)
    (h : ∀ r s, Undisputed d s.log → (∀ e, d.identity = some e → r.identityEndpoint = e) →
      SafeTo (callRules (Permitted input d)) callPost (next r) s) (hs : Undisputed d s.log) :
    SafeTo (callRules (Permitted input d)) callPost (checkEndpoint cfg endpoint next) s := by
  rintro _ rfl
  refine ⟨trivial, ?_⟩
  rintro r _ rfl
  dsimp only
  split_ifs with hempty hdiffers
  · trivial
  · trivial
  · have hsame : ∀ e, d.identity = some e → r.identityEndpoint = e := by
      intro e he
      rw [hendpoint] at he
      obtain ⟨p, hp, rfl⟩ := Option.map_eq_some_iff.mp he
      simpa [hp] using hdiffers
    apply h
    · apply hs.record
      rintro o ⟨⟩
      exact hsame
    · exact hsame

theorem safe_runHostPhases {next : Call}
    (h : ∀ s, Undisputed d s.log → SafeTo (callRules (Permitted input d)) callPost next s) (ps : List HostPhase)
    (hs : Undisputed d s.log) : SafeTo (callRules (Permitted input d)) callPost (runHostPhases next ps) s := by
  induction ps generalizing s with
  | nil => exact h s hs
  | cons p ps ih =>
    apply safe_whileAlive steady_undisputed (fun _ _ => trivial) _ hs
    intro s hs
    exact safe_request steady_undisputed (fun _ _ => trivial) hs (fun _ => rfl) (fun s hs => ih hs) hs

theorem safe_prepare (hendpoint : d.identity = endpoint.map Result.identityEndpoint) (hs : Undisputed d s.log) :
    SafeTo (callRules (Permitted input d)) callPost (prepare cfg endpoint) s := by
  apply safe_whileAlive steady_undisputed (fun _ _ => trivial) _ hs
  intro s hs
  apply safe_request steady_undisputed (fun _ _ => trivial) trivial (fun _ => rfl) _ hs
  intro s hs
  apply safe_checkEndpoint hendpoint _ hs
  intro r s hs hr
  apply safe_whileAlive steady_undisputed (fun _ _ => trivial) _ hs
  intro s hs
  unfold Result.document
  split_ifs with hm
  · trivial
  · exact safe_attempt (fun _ _ => trivial) ⟨r, rfl, hm, hr⟩ trivial

theorem safe_install (hendpoint : d.identity = endpoint.map Result.identityEndpoint) (hs : Undisputed d s.log) :
    SafeTo (callRules (Permitted input d)) callPost (install cfg endpoint) s := by
  apply safe_whileAlive steady_undisputed (fun _ _ => trivial) _ hs
  intro s hs
  apply safe_request steady_undisputed (fun _ _ => trivial) trivial (fun _ => rfl) _ hs
  intro s hs
  apply safe_whileAlive steady_undisputed (fun _ _ => trivial) _ hs
  intro s hs
  apply safe_request steady_undisputed (fun _ _ => trivial) trivial (fun _ => rfl) _ hs
  intro s hs
  apply safe_checkEndpoint hendpoint _ hs
  intro _ s hs _
  apply safe_whileAlive steady_undisputed (fun _ _ => trivial) _ hs
  intro s hs
  apply safe_request steady_undisputed (fun _ _ => trivial) trivial (fun _ => rfl) _ hs
  intro s hs
  apply safe_runHostPhases _ _ hs
  intro s hs
  apply safe_checkEndpoint hendpoint _ hs
  intro r s hs _
  apply safe_whileAlive steady_undisputed (fun _ _ => trivial) _ hs
  intro s hs
  unfold Result.document
  split_ifs with hm
  · trivial
  · exact safe_attempt (fun _ _ => trivial) trivial trivial

theorem safe_persist (hgood : cfg.validate = .ok () → Good cfg) (hinput : Pinned input cfg)
    (hstored : ∀ p, d.pinned = some p → Pinned p cfg) (hendpoint : d.identity = endpoint.map Result.identityEndpoint)
    (hs : Fresh d s) : SafeTo (callRules (Permitted input d)) callPost (persist cfg endpoint options) s := by
  unfold persist
  cases hv : cfg.validate with
  | error e => trivial
  | ok u =>
    have hcfg := hgood hv
    apply safe_request steady_fresh (fun _ _ => trivial) trivial (fun _ => rfl) _ hs
    intro s hs
    rw [hcfg.document]
    apply safe_attempt (fun _ _ => trivial)
    · refine ⟨cfg, rfl, hcfg, hinput, ?_⟩
      rw [hs.1]
      exact hstored
    · have hlog := steady_undisputed s (.op (.write .config (config.enc cfg)) true) rfl hs.2
      split_ifs
      · exact safe_prepare hendpoint hlog
      · exact safe_install hendpoint hlog

/-- the configuration is the input with images, and it keeps what is stored -/
theorem safe_provision {previous : RawMessage} (hgood : Good input) (himages : cfg = input.withImages cfg)
    (hinput : Pinned input cfg) (hstored : ∀ p, d.pinned = some p → Pinned p cfg) (hs : Fresh d s) :
    SafeTo (callRules (Permitted input d)) callPost (provision cfg previous options) s := by
  unfold provision
  split_ifs
  · trivial
  · apply safe_readState steady_fresh (fun _ _ => trivial) _ hs
    intro s' hs' endpoint hendpoint _
    rw [hs.1] at hendpoint
    have hidentity : d.identity = endpoint.map Result.identityEndpoint := congrArg _ hendpoint
    split_ifs
    · trivial
    · apply safe_request steady_fresh (fun _ _ => trivial) trivial (fun _ => rfl) _ hs'
      intro s hs
      apply safe_whileAlive steady_fresh (fun _ _ => trivial) _ hs
      intro s hs
      apply safe_resolveSettings steady_fresh (fun _ _ => trivial) _ hs
      intro m s hs
      apply safe_whileAlive steady_fresh (fun _ _ => trivial) _ hs
      intro s hs
      exact safe_persist (hgood.resolved himages) (hinput.withProvider m) (fun p hp => (hstored p hp).withProvider m)
        hidentity hs

/-- **Every call keeps to what it may do**, whatever it is given. -/
theorem safe_run (hd : d.Sound) (hexact : cfg.firstZone.exact = true) :
    SafeTo (callRules (Permitted cfg.withDefaults d)) callPost (run cfg options) ⟨d, []⟩ := by
  unfold run
  cases hv : cfg.validate with
  | error e => trivial
  | ok u =>
    have hgood := good_withDefaults hv hexact
    have hstart : Fresh d ⟨d, []⟩ := ⟨rfl, nofun⟩
    apply safe_whileAlive steady_fresh (fun _ _ => trivial) _ hstart
    intro s hs
    split_ifs
    · trivial
    · apply safe_readState steady_fresh (fun _ _ => trivial) _ hs
      intro s' hs' stored hstored _
      rw [hs.1] at hstored
      cases stored with
      | none =>
        refine safe_provision hgood rfl (Pinned.refl _) ?_ hs'
        intro p hp
        exact absurd (hp.symm.trans hstored) nofun
      | some c =>
        cases hpin : pin cfg.withDefaults c with
        | error e =>
          simp only [pinned, hpin]
          trivial
        | ok c' =>
          simp only [pinned, hpin]
          obtain ⟨hagrees, rfl⟩ := (pin_ok hgood (hd.good hstored)).mp hpin
          refine safe_provision hgood rfl (pinned_mergeImages _ _) ?_ hs'
          intro p hp
          rw [Option.some.inj (hp.symm.trans hstored)]
          exact hagrees.pinned

end Call

/-! ## What calls keep -/

/-- the configuration and the endpoint of the directory keep what they were, and the log shows no forbidden phase -/
structure Kept (input : Config) (d : StateDir) (s : Progress) : Prop where
  sound : s.dir.Sound
  config : ∀ p, d.pinned = some p → ∃ p', s.dir.pinned = some p' ∧ Pinned p p'
  written : ∀ j, .op (.write .config j) true ∈ s.log →
    ∃ c p, j = Bootstrap.config.enc c ∧ Good c ∧ Pinned input c ∧ s.dir.pinned = some p ∧ Pinned c p
  endpoint : ∀ e, d.identity = some e → s.dir.identity = some e
  phases : s.log.Pairwise fun v w =>
    ∀ o p ok, v.observed = some o → w = .op (.runHostPhase p) ok → ∀ e, d.identity = some e → o = e

section Kept
variable {input : Config} {d : StateDir} {s : Progress} {v : Event}

theorem kept_start (hd : d.Sound) : Kept input d ⟨d, []⟩ :=
  ⟨hd, fun p hp => ⟨p, hp, .refl p⟩, nofun, fun _ he => he, .nil⟩

theorem Kept.phases_record (h : Kept input d s) (hv : ∀ p ok, v = .op (.runHostPhase p) ok → Undisputed d s.log) :
    (s.record v).log.Pairwise fun v w =>
      ∀ o p ok, v.observed = some o → w = .op (.runHostPhase p) ok → ∀ e, d.identity = some e → o = e := by
  refine List.pairwise_append.mpr ⟨h.phases, List.pairwise_singleton _ _, ?_⟩
  intro u hu w hw o p ok ho hp
  rw [List.mem_singleton.mp hw] at hp
  exact hv p ok hp u hu o ho

/-- a request that writes neither the configuration nor the endpoint -/
theorem Kept.record (h : Kept input d s) (hwrite : ∀ j, v ≠ .op (.write .config j) true)
    (hv : ∀ p ok, v = .op (.runHostPhase p) ok → Undisputed d s.log) : Kept input d (s.record v) := by
  refine ⟨h.sound, h.config, ?_, h.endpoint, h.phases_record hv⟩
  intro j hj
  rcases List.mem_append.mp hj with hj | hj
  · exact h.written j hj
  · exact absurd (List.mem_singleton.mp hj).symm (hwrite j)

theorem Kept.write_config {c : Config} (h : Kept input d s) (hgood : Good c) (hinput : Pinned input c)
    (hc : ∀ p, s.dir.pinned = some p → Pinned p c) :
    Kept input d { s.record (.op (.write .config (Bootstrap.config.enc c)) true) with
      dir := s.dir.write .config (Bootstrap.config.enc c) } := by
  have hpinned : (s.dir.write .config (Bootstrap.config.enc c)).pinned = some c := hgood.read
  refine ⟨⟨?_, h.sound.endpoint⟩, ?_, ?_, h.endpoint, h.phases_record nofun⟩
  · rintro _ ⟨⟩
    exact ⟨c, rfl, hgood⟩
  · intro p hp
    obtain ⟨p', hp', hpp⟩ := h.config p hp
    exact ⟨c, hpinned, hpp.trans (hc p' hp')⟩
  · intro j hj
    rcases List.mem_append.mp hj with hj | hj
    · obtain ⟨c', p, rfl, hc', hin, hp, hpp⟩ := h.written j hj
      exact ⟨c', c, rfl, hc', hin, hpinned, hpp.trans (hc p hp)⟩
    · cases List.mem_singleton.mp hj
      exact ⟨c, c, rfl, hgood, hinput, hpinned, .refl c⟩

theorem Kept.write_endpoint {r : Result} (h : Kept input d s) (hr : r.providerOutput ≠ .malformed)
    (hsame : ∀ e, d.identity = some e → r.identityEndpoint = e) :
    Kept input d { s.record (.op (.write .endpoint (Bootstrap.result.enc r)) true) with
      dir := s.dir.write .endpoint (Bootstrap.result.enc r) } := by
  have hread : Bootstrap.result.into {} (Bootstrap.result.enc r) = some r := result_returns hr
  have hk := h.record (v := .op (.write .endpoint (Bootstrap.result.enc r)) true) nofun nofun
  refine ⟨⟨h.sound.config, ?_⟩, h.config, hk.written, ?_, hk.phases⟩
  · rintro _ ⟨⟩
    exact ⟨r, rfl, hr⟩
  · intro e he
    show (Bootstrap.result.into {} (Bootstrap.result.enc r)).map Result.identityEndpoint = some e
    rw [hread]
    exact congrArg some (hsame e he)

/-- a permitted request -/
theorem Kept.op {o : Op} (h : Kept input d s) (ho : Permitted input d o s) :
    Kept input d { s.record (.op o true) with dir := o.effect s.dir } := by
  cases o with
  | write f j =>
    cases f with
    | config =>
      obtain ⟨c, rfl, hgood, hinput, hc⟩ := ho
      exact h.write_config hgood hinput hc
    | endpoint =>
      obtain ⟨r, rfl, hr, hsame⟩ := ho
      exact h.write_endpoint hr hsame
    | result =>
      have hk := h.record (v := .op (.write .result j) true) nofun nofun
      exact ⟨⟨h.sound.config, h.sound.endpoint⟩, h.config, hk.written, h.endpoint, hk.phases⟩
  | runHostPhase p => exact h.record nofun fun _ _ _ => ho
  | factory _ => exact h.record nofun nofun
  | prepareEndpoint => exact h.record nofun nofun
  | ensureCredentials => exact h.record nofun nofun
  | ensureInfrastructure => exact h.record nofun nofun
  | ensureHosts => exact h.record nofun nofun
  | mkdirAll => exact h.record nofun nofun

theorem Kept.answers {q : Query} {r : q.Answer} {s' : Progress} (h : Kept input d s)
    (hq : (callRules (Permitted input d)).guard q s) (ha : Answers q s r s') : Kept input d s' := by
  cases q with
  | context =>
    rw [show s' = s.record _ from ha]
    exact h.record nofun nofun
  | op o =>
    obtain rfl := ha
    cases r with
    | true => exact h.op hq
    | false =>
      refine h.record nofun ?_
      rintro p ok ⟨⟩
      exact hq
  | read f =>
    rw [show s' = s.record _ from ha.1]
    exact h.record nofun nofun
  | resolve p b =>
    rw [show s' = s.record _ from ha]
    exact h.record nofun nofun
  | result =>
    rw [show s' = s.record _ from ha]
    exact h.record nofun nofun

end Kept

/-- what a call keeps, from any directory that calls have written -/
theorem exec_kept {d : StateDir} (hd : d.Sound) (i : Invocation) : Kept i.cfg.withDefaults d (i.exec d).1 := by
  refine (SafeTo.exec (reply_answers i.environment) ?_ (safe_run hd i.exact) (kept_start hd) 0).1
  intro q s r s' hs hq ha
  exact hs.answers hq ha

section Differs
variable {d : StateDir} {c : Config}

abbrev failed : Except String Result → Progress → Prop := fun a _ => ∃ e, a = .error e

theorem safe_differs {cfg : Config} (options : RunOptions) (hd : d.Sound) (hexact : cfg.firstZone.exact = true)
    (hc : d.pinned = some c) (hdiffers : ¬Agrees cfg.withDefaults c) :
    SafeTo (callRules fun _ _ => False) failed (run cfg options) ⟨d, []⟩ := by
  have hfail : ∀ e s, failed (.error e) s := fun e _ => ⟨e, rfl⟩
  have hsteady : Steady fun s => s.dir = d := fun _ _ _ hs => hs
  unfold run
  cases hv : cfg.validate with
  | error e => exact hfail e ⟨d, []⟩
  | ok u =>
    have hgood := good_withDefaults hv hexact
    have hstart : (⟨d, []⟩ : Progress).dir = d := rfl
    apply safe_whileAlive hsteady hfail _ hstart
    intro s hs
    split_ifs
    · exact hfail _ s
    · apply safe_readState hsteady hfail _ hs
      rintro s' hs' _ rfl _
      rw [show (s.dir.file .config).bind (config.into {}) = some c from hs ▸ hc]
      obtain ⟨e, he⟩ := pin_error hgood (hd.good hc) hdiffers
      simp only [pinned, he]
      exact hfail _ s'

/-- a call whose configuration differs stops before it asks for anything but the context and config.json -/
theorem exec_differs (hd : d.Sound) (i : Invocation) (hc : d.pinned = some c) (hdiffers : ¬Agrees i.cfg.withDefaults c) :
    (i.exec d).1.dir = d ∧ (∀ o ok, .op o ok ∉ (i.exec d).1.log) ∧ ∀ r, (i.exec d).2 ≠ some (.ok r) := by
  have hinv := SafeTo.exec (I := fun s => s.dir = d ∧ ∀ o ok, .op o ok ∉ s.log) (reply_answers i.environment) ?_
    (safe_differs i.options hd i.exact hc hdiffers) ⟨rfl, nofun⟩ 0
  · refine ⟨hinv.1.1, hinv.1.2, ?_⟩
    intro r hr
    obtain ⟨e, he⟩ := hinv.2 _ hr
    cases he
  · rintro q s r s' ⟨hdir, hlog⟩ hq ha
    cases q with
    | op o => exact absurd hq id
    | context =>
      obtain rfl := ha
      exact ⟨hdir, by simpa [Progress.record] using hlog⟩
    | read f =>
      obtain ⟨rfl, -⟩ := ha
      exact ⟨hdir, by simpa [Progress.record] using hlog⟩
    | resolve p b =>
      obtain rfl := ha
      exact ⟨hdir, by simpa [Progress.record] using hlog⟩
    | result =>
      obtain rfl := ha
      exact ⟨hdir, by simpa [Progress.record] using hlog⟩

end Differs

/-- the directory after calls, from a given one -/
theorem dirAfter_append (earlier later : List Invocation) :
    dirAfter (earlier ++ later) = later.foldl (fun d i => (i.exec d).1.dir) (dirAfter earlier) :=
  List.foldl_append

/-- calls keep the directory sound, its configuration pinned and its endpoint as it is -/
theorem calls_keep {d : StateDir} (hd : d.Sound) (calls : List Invocation) :
    let d' := calls.foldl (fun d i => (i.exec d).1.dir) d
    d'.Sound ∧ (∀ p, d.pinned = some p → ∃ p', d'.pinned = some p' ∧ Pinned p p') ∧
      ∀ e, d.identity = some e → d'.identity = some e := by
  induction calls generalizing d with
  | nil => exact ⟨hd, fun p hp => ⟨p, hp, .refl p⟩, fun _ he => he⟩
  | cons i calls ih =>
    have hi := exec_kept hd i
    obtain ⟨hsound, hconfig, hendpoint⟩ := ih hi.sound
    refine ⟨hsound, ?_, fun e he => hendpoint e (hi.endpoint e he)⟩
    intro p hp
    obtain ⟨q, hq, hpq⟩ := hi.config p hp
    obtain ⟨p', hp', hqp⟩ := hconfig q hq
    exact ⟨p', hp', hpq.trans hqp⟩

theorem dirAfter_sound (calls : List Invocation) : (dirAfter calls).Sound := by
  have hempty : StateDir.Sound {} := by
    constructor <;> intro j hj <;> cases hj
  exact (calls_keep hempty calls).1

/-- only a valid configuration gets anywhere -/
theorem valid_of_log {i : Invocation} {d : StateDir} {v : Event} (h : v ∈ (i.exec d).1.log) : i.cfg.validate = .ok () := by
  cases hv : i.cfg.validate with
  | ok u => rfl
  | error e =>
    have hlog : (i.exec d).1.log = [] := by
      simp only [Invocation.exec, run, hv]
      rfl
    rw [hlog] at h
    cases h

/-- **The configuration of a deployment is pinned.** Whatever is called with whatever configurations, answers, failures
and crashes: the configuration in the directory keeps its shared part but for images that were empty; a call that differs
changes no file and asks nothing of the provider; a configuration that was written, and the one it was made from, pass the
pin check ever after; and the identity endpoint stays, with no host phase after another one was seen. -/
theorem deployment_pinned (earlier : List Invocation) (i : Invocation) (later : List Invocation) :
    let d := dirAfter earlier
    let d' := dirAfter (earlier ++ i :: later)
    (∀ j, d.config = some j → ∃ p p', d.pinned = some p ∧ d'.pinned = some p' ∧ Pinned p p') ∧
    (∀ p, d.pinned = some p → ¬Agrees i.cfg.withDefaults p →
      (i.exec d).1.dir = d ∧ (∀ o ok, .op o ok ∉ (i.exec d).1.log) ∧ ∀ r, (i.exec d).2 ≠ some (.ok r)) ∧
    (∀ j, .op (.write .config j) true ∈ (i.exec d).1.log → ∃ c p, config.into {} j = some c ∧ d'.pinned = some p ∧
      (∃ merged, pin i.cfg.withDefaults p = .ok merged) ∧ ∃ merged, pin c p = .ok merged) ∧
    (∀ j, d.endpoint = some j → ∃ e, d.identity = some e ∧ d'.identity = some e) ∧
    ∀ e, d.identity = some e → (i.exec d).1.log.Pairwise fun v w =>
      ∀ o p ok, v.observed = some o → w = .op (.runHostPhase p) ok → o = e := by
  intro d d'
  have hd : d.Sound := dirAfter_sound earlier
  have hkept := exec_kept hd i
  have hafter := calls_keep hkept.sound later
  have hd' : d' = later.foldl (fun d i => (i.exec d).1.dir) (i.exec d).1.dir := dirAfter_append earlier (i :: later)
  rw [← hd'] at hafter
  obtain ⟨hsound, hconfig, hendpoint⟩ := hafter
  refine ⟨?_, fun p hp hdiffers => exec_differs hd i hp hdiffers, ?_, ?_, ?_⟩
  · intro j hj
    obtain ⟨p, -, -, hp⟩ := hd.pinned hj
    obtain ⟨q, hq, hpq⟩ := hkept.config p hp
    obtain ⟨p', hp', hqp⟩ := hconfig q hq
    exact ⟨p, p', hp, hp', hpq.trans hqp⟩
  · intro j hj
    obtain ⟨c, q, rfl, hc, hinput, hq, hcq⟩ := hkept.written j hj
    obtain ⟨p, hp, hqp⟩ := hconfig q hq
    have hcp : Pinned c p := hcq.trans hqp
    have hinput' : Good i.cfg.withDefaults := good_withDefaults (valid_of_log hj) i.exact
    exact ⟨c, p, hc.read, hp, ⟨_, (pin_ok hinput' (hsound.good hp)).mpr ⟨(hinput.trans hcp).agrees, rfl⟩⟩, _,
      (pin_ok hc (hsound.good hp)).mpr ⟨hcp.agrees, rfl⟩⟩
  · intro j hj
    obtain ⟨e, he⟩ := hd.identity hj
    exact ⟨e, he, hendpoint e (hkept.endpoint e he)⟩
  · intro e he
    exact hkept.phases.imp fun h o p ok ho hw => h o p ok ho hw e he

namespace Sample

/-- a call in which nothing fails -/
def smooth (image endpoint : String) (prepareImages : Bool) : Invocation where
  cfg := { developmentStage := "dev", groupSuffix := "a", version := 3, provider := "aws", providerConfig := .doc (.obj []),
           platform := { craneApiImage := image, dominatorImage := image } }
  exact := rfl
  options := ⟨"state", prepareImages⟩
  environment := ⟨fun _ => false, fun _ => false, fun _ => .doc (.obj []), fun _ => { identityEndpoint := endpoint }⟩

/-- the first endpoint stays -/
example : (dirAfter [smooth "" "10.0.0.9" true, smooth "" "10.0.0.7" true]).identity = some "10.0.0.9" := by
  decide +kernel

end Sample

end Crane.Bootstrap
