/-
The host agent Subd (`internal/subd`): the checks of expected states and cluster joins (`host.go`, `cluster_join.go`), and
the server's handlers (`server.go`, `cluster_join.go`) as programs over their effects: the state, status and join files,
the published view, the host (`Apply`, `EnsureSecret`, `JoinCluster`, `ClusterMembership`) and the response.

Handlers run one at a time (`s.mu`). Memory is what a handler leaves to the next one; a crash loses it, and `NewServer`
rebuilds it from the files. What the outside can observe is the log: statuses shown, host calls, durable intents and
answers, newest first. SHA-256 digests are injective functions into a type of digests.
-/
import Crane.Lib.Service
import Crane.Validation

namespace Crane.Subd

/-! ## Expected states -/

/-- the body of PUT /v1/expected-state -/
structure HostStateUpdate where
  revision : ℕ
  imageId : String := ""
  track : String := ""
  version : String := ""
  services : List (String × Bool) := []
  packages : List HostPackageChange := []
  secret : Option SecretSpec := none
deriving DecidableEq, Repr, Inhabited

/-- `^[a-zA-Z0-9][a-zA-Z0-9_.@:-]*\.service$` -/
def serviceName (s : String) : Bool :=
  match s.toList with
  | c :: cs => c.isAlphanum && cs.all (fun c => c.isAlphanum || "_.@:-".toList.contains c) &&
      ".service".toList.isSuffixOf cs
  | [] => false

/-- `[a-z0-9][inner]*` -/
def headed (inner : Char → Bool) : List Char → Bool
  | c :: cs => lowerAlnum c && cs.all inner
  | [] => false

/-- `^[a-z0-9][a-z0-9+.-]*(:[a-z0-9][a-z0-9-]*)?$` -/
def packageName (s : String) : Bool :=
  match s.toList.splitOn ':' with
  | [name] => headed (fun c => lowerAlnum c || "+.-".toList.contains c) name
  | [name, arch] => headed (fun c => lowerAlnum c || "+.-".toList.contains c) name &&
      headed (fun c => lowerAlnum c || c = '-') arch
  | _ => false

/-- image, track and version are all absent or all present and short enough -/
def versionFields (imageId track version : String) : Bool :=
  (imageId = "" && track = "" && version = "") ||
    (imageId.utf8ByteSize ≤ 256 && track.utf8ByteSize ≤ 64 && version.utf8ByteSize ≤ 128 && imageId ≠ "" && track ≠ "" &&
      version ≠ "")

def validateExpected (u : HostStateUpdate) : Bool :=
  u.revision ≠ 0 && u.services.length + u.packages.length ≤ 256 && versionFields u.imageId u.track u.version &&
    u.secret.all (fun s => s.normalize.isSome) && u.services.all (fun s => serviceName s.1) &&
    u.packages.all (fun p => packageName p.name && (p.action = "install" || p.action = "remove")) &&
    decide (u.packages.map HostPackageChange.name).Nodup

/-- the checked update with its Secret normalized -/
def HostStateUpdate.accepted (u : HostStateUpdate) : Option ExpectedHostState :=
  if validateExpected u then
    some ⟨u.revision, u.imageId, u.track, u.version, u.services, u.packages, u.secret.bind SecretSpec.normalize⟩
  else none

/-- an expected state as it is sent or stored -/
def update (e : ExpectedHostState) : HostStateUpdate :=
  ⟨e.revision, e.imageId, e.track, e.version, e.services, e.packages, e.secret.map KubernetesSecret.spec⟩

theorem accepted_revision {u : HostStateUpdate} {e : ExpectedHostState} (h : u.accepted = some e) : e.revision ≠ 0 := by
  unfold HostStateUpdate.accepted at h
  split_ifs at h with hv
  obtain rfl := Option.some.inj h
  simp only [validateExpected, Bool.and_eq_true, decide_eq_true_eq] at hv
  exact hv.1.1.1.1.1.1

/-- what was accepted once is accepted as it is -/
theorem accepted_update {u : HostStateUpdate} {e : ExpectedHostState} (h : u.accepted = some e) :
    (update e).accepted = some e := by
  unfold HostStateUpdate.accepted at h
  split_ifs at h with hv
  obtain rfl := Option.some.inj h
  simp only [validateExpected, Bool.and_eq_true] at hv
  obtain ⟨⟨⟨⟨⟨⟨hrev, hsize⟩, hver⟩, hsec⟩, hsvc⟩, hpkg⟩, hdup⟩ := hv
  cases hs : u.secret with
  | none =>
    rw [HostStateUpdate.accepted, if_pos]
    · simp [update]
    · simp only [validateExpected, update, Bool.and_eq_true]
      exact ⟨⟨⟨⟨⟨⟨hrev, hsize⟩, hver⟩, rfl⟩, hsvc⟩, hpkg⟩, hdup⟩
  | some s =>
    rw [hs, Option.all_some] at hsec
    obtain ⟨n, hn⟩ := Option.isSome_iff_exists.mp hsec
    have hspec := SecretSpec.normalize_spec hn
    rw [HostStateUpdate.accepted, if_pos]
    · simp [update, hn, hspec]
    · simp only [validateExpected, update, Option.bind_some, hn, Option.map_some, Option.all_some, hspec,
        Bool.and_eq_true]
      exact ⟨⟨⟨⟨⟨⟨hrev, hsize⟩, hver⟩, rfl⟩, hsvc⟩, hpkg⟩, hdup⟩

/-! ## Cluster joins -/

structure ClusterJoinRequest where
  registration : WorkerRegistration
  fence : ℤ
  operationId : String
  apiServerEndpoint : String
  token : String
  caCertHash : String
deriving DecidableEq, Repr, Inhabited

def lowerHex (c : Char) : Bool := c.isDigit || ('a' ≤ c && c ≤ 'f')

/-- `^[a-z0-9]{6}\.[a-z0-9]{16}$` -/
def joinToken (s : String) : Bool :=
  match s.toList.splitOn '.' with
  | [id, secret] => id.length = 6 && id.all lowerAlnum && secret.length = 16 && secret.all lowerAlnum
  | _ => false

/-- `^sha256:[a-f0-9]{64}$` -/
def joinCAHash (s : String) : Bool :=
  match s.toList.splitOn ':' with
  | [name, hash] => String.ofList name = "sha256" && hash.length = 64 && hash.all lowerHex
  | _ => false

/-- `^[a-f0-9-]{36}$` -/
def joinOperation (s : String) : Bool := s.toList.length = 36 && s.toList.all fun c => lowerHex c || c = '-'

/-! ## The server -/

inductive Outcome where
  | unconfigured | applying | applied | failed | interrupted
deriving DecidableEq, Repr, Inhabited

inductive SecretState where
  | pending | verified | failed
deriving DecidableEq, Repr

inductive RolloutState where
  | notRequested | pending | ready | failed
deriving DecidableEq, Repr

structure KubernetesResult where
  secret : SecretState
  rollout : RolloutState
deriving DecidableEq, Repr

/-- the result `EnsureSecret` returns without an error -/
def verifiedResult (s : KubernetesSecret) : KubernetesResult :=
  ⟨.verified, if s.rolloutDeployment = "" then .notRequested else .ready⟩

structure HostAgentStatus where
  identity : String
  ready : Bool
  acceptedRevision : ℕ
  appliedRevision : ℕ
  outcome : Outcome
  expectedVersion : String
  kubernetes : Option KubernetesResult
deriving DecidableEq, Repr

/-- the server's fixed surroundings; `secrets`, `joins` and `members` are the optional interfaces of its host -/
structure Env (H : Type) where
  identity : String
  digest : ExpectedHostState → H
  digest_injective : Function.Injective digest
  contract : String → String → WorkerRegistration → H
  contract_injective : ∀ {e c r e' c' r'}, contract e c r = contract e' c' r' → e = e' ∧ c = c' ∧ r = r'
  workerNodeName : String → String
  validEndpoint : String → Bool
  secrets : Bool := true
  joins : Bool := true
  members : Bool := true

structure SavedState (H : Type) where
  request : ExpectedHostState := { revision := 0 }
  digest : Option H := none
  appliedRevision : ℕ := 0
  outcome : Outcome := .unconfigured
  kubernetes : Option KubernetesResult := none
deriving DecidableEq

structure ClusterJoinState (H : Type) where
  operationId : String
  endpoint : String
  caCertHash : String
  outcome : Outcome
  contractHash : H
  registration : WorkerRegistration
  fence : ℤ
deriving DecidableEq

/-- the part of a join request a membership challenge is answered for -/
structure Membership where
  endpoint : String
  caCertHash : String
  registration : WorkerRegistration
deriving DecidableEq

inductive Reply (H : Type) where
  | update (e : ExpectedHostState) (code : ℕ) (body : Option (SavedState H))
  | join (r : ClusterJoinRequest) (code : ℕ)
  | membership (code : ℕ)
  | badRequest
deriving DecidableEq

/-- 400 and 409 on the way to an update -/
def Reply.refused {H : Type} : Reply H → Bool
  | .update _ code _ => code = 409
  | .badRequest => true
  | .join _ _ | .membership _ => false

inductive Effect (H : Type) where
  | context -- r.Context().Err()
  | persist (s : SavedState H)
  | publish (s : SavedState H)
  | apply (e : ExpectedHostState)
  | ensureSecret (token : String) (s : KubernetesSecret)
  | persistJoin (j : ClusterJoinState H)
  | joinCluster (r : ClusterJoinRequest)
  | clusterMembership (m : Membership) (challenge : String)
  | respond (r : Reply H)
deriving DecidableEq

abbrev Effect.Answer {H : Type} : Effect H → Type
  | .context => Bool
  | .persist _ => Write
  | .publish _ => Bool
  | .apply _ => Bool
  | .ensureSecret _ _ => Except KubernetesResult Unit
  | .persistJoin _ => Write
  | .joinCluster _ => Bool
  | .clusterMembership _ _ => Bool
  | .respond _ => Unit

abbrev Handler (H : Type) := Prog (Effect H) Effect.Answer

section Handlers
variable {H : Type} [DecidableEq H] (x : Env H)

def ask (q : Effect H) : Handler H q.Answer := .ask q .ret

omit [DecidableEq H] in
/-- the status of a state; a version is shown once its revision is applied -/
def SavedState.status (s : SavedState H) : HostAgentStatus where
  identity := x.identity
  ready := true
  acceptedRevision := s.request.revision
  appliedRevision := s.appliedRevision
  outcome := s.outcome
  expectedVersion :=
    if s.outcome = .applied ∧ s.appliedRevision = s.request.revision then s.request.version else ""
  kubernetes := s.kubernetes

/-- the operation token of a revision's rollout -/
def Env.token {H : Type} (x : Env H) (revision : ℕ) : String := x.identity ++ "/" ++ toString revision

/-- Apply, then EnsureSecret when there is a Secret: what is reported about Kubernetes, and whether all went well -/
def enforce (e : ExpectedHostState) : Handler H (Option KubernetesResult × Bool) := do
  if ← ask (.apply e) then
    match e.secret with
    | none => return (none, true)
    | some s =>
      if x.secrets then
        match ← ask (.ensureSecret (x.token e.revision) s) with
        | .ok () => return (some (verifiedResult s), true)
        | .error k => return (some k, false)
      else return (none, false)
  else return (none, false)

/-- the state after enforcement -/
def SavedState.concluded (s : SavedState H) (result : Option KubernetesResult × Bool) : SavedState H :=
  { s with
    kubernetes := result.1
    outcome := if result.2 then .applied else .failed
    appliedRevision := if result.2 then s.request.revision else s.appliedRevision }

/-- records the outcome of `intent`; an outcome that cannot be stored counts as interrupted -/
def conclude (intent : SavedState H) (result : Option KubernetesResult × Bool) : Handler H (SavedState H) := do
  let final := intent.concluded result
  if (← ask (.persist final)).ok then
    if ← ask (.publish final) then
      if result.2 then
        ask (.respond (.update intent.request 200 (some final)))
        return final
      else
        -- the body of a failed update with a Secret is the status
        ask (.respond (.update intent.request 500 (if intent.request.secret.isSome then some final else none)))
        return final
    else
      ask (.respond (.update intent.request 500 none))
      return final
  else
    let interrupted := { final with outcome := .interrupted, appliedRevision := intent.appliedRevision }
    let _ ← ask (.publish interrupted)
    ask (.respond (.update intent.request 500 none))
    return interrupted

/-- the state in which an update is carried out -/
def SavedState.intent (saved : SavedState H) (e : ExpectedHostState) : SavedState H :=
  ⟨e, some (x.digest e), saved.appliedRevision, .applying, none⟩

/-- stores the intent before the host is touched -/
def carryOut (saved : SavedState H) (e : ExpectedHostState) : Handler H (SavedState H) := do
  let intent := saved.intent x e
  if (← ask (.persist intent)).ok then
    if ← ask (.publish intent) then
      let result ← enforce x e
      conclude intent result
    else
      ask (.respond (.update e 500 none))
      return intent
  else
    ask (.respond (.update e 500 none))
    return saved

omit [DecidableEq H] in
/-- the update is behind the accepted revision, or names it with another content -/
def Conflicts (saved : SavedState H) (e : ExpectedHostState) : Prop :=
  e.revision < saved.request.revision ∨ (e.revision = saved.request.revision ∧ some (x.digest e) ≠ saved.digest)

instance (saved : SavedState H) (e : ExpectedHostState) : Decidable (Conflicts x saved e) :=
  inferInstanceAs (Decidable (_ ∨ _))

/-- PUT /v1/expected-state; `none` is a request with a bad deadline or body -/
def updateState (saved : SavedState H) (u : Option HostStateUpdate) : Handler H (SavedState H) := do
  match u.bind HostStateUpdate.accepted with
  | none =>
    ask (.respond .badRequest)
    return saved
  | some e =>
    if ← ask .context then
      ask (.respond (.update e 408 none))
      return saved
    else if Conflicts x saved e then
      ask (.respond (.update e 409 none))
      return saved
    else if e.revision = saved.request.revision ∧ saved.outcome = .applied then
      ask (.respond (.update e 200 (some saved)))
      return saved
    else carryOut x saved e

omit [DecidableEq H] in
def validateClusterJoin (r : ClusterJoinRequest) : Bool :=
  r.registration.validate x.workerNodeName && 0 < r.fence && joinOperation r.operationId && joinToken r.token &&
    joinCAHash r.caCertHash && x.validEndpoint r.apiServerEndpoint

omit [DecidableEq H] in
/-- JoinFingerprint excludes rotating credentials and lease fences -/
def Env.fingerprint (r : ClusterJoinRequest) : H := x.contract r.apiServerEndpoint r.caCertHash r.registration

/-- the join itself, for a request that belongs to the host's contract `j` -/
def joinContract (j : ClusterJoinState H) (r : ClusterJoinRequest) : Handler H (Option (ClusterJoinState H)) := do
  if x.joins then
    let j := { j with fence := r.fence, outcome := .applying }
    if (← ask (.persistJoin j)).ok then
      if ← ask (.joinCluster r) then
        if (← ask (.persistJoin { j with outcome := .applied })).ok then
          ask (.respond (.join r 200))
          return some { j with outcome := .applied }
        else
          ask (.respond (.join r 503))
          return some { j with outcome := .interrupted }
      else
        let _ ← ask (.persistJoin { j with outcome := .failed })
        ask (.respond (.join r 502))
        return some { j with outcome := .failed }
    else
      ask (.respond (.join r 503))
      return some j
  else
    ask (.respond (.join r 503))
    return some j

omit [DecidableEq H] in
/-- the contract a first request binds the host to -/
def bound (r : ClusterJoinRequest) : ClusterJoinState H :=
  ⟨r.operationId, r.apiServerEndpoint, r.caCertHash, .applying, x.fingerprint r, r.registration, r.fence⟩

/-- PUT /v1/cluster-join -/
def clusterJoin (join : Option (ClusterJoinState H)) (r : Option ClusterJoinRequest) :
    Handler H (Option (ClusterJoinState H)) := do
  match r.filter (validateClusterJoin x) with
  | none =>
    ask (.respond .badRequest)
    return join
  | some r =>
    match join with
    | none => joinContract x (bound x r) r
    | some j =>
      if j.operationId ≠ r.operationId ∨ j.contractHash ≠ x.fingerprint r ∨ r.fence < j.fence then
        ask (.respond (.join r 409))
        return some j
      else joinContract x j r

/-- POST /v1/cluster-membership; the challenge is `none` when it does not decode to 32 bytes -/
def clusterMembership (join : Option (ClusterJoinState H)) (challenge : Option String) : Handler H Unit :=
  match challenge with
  | none => ask (.respond .badRequest)
  | some challenge =>
    match join.filter fun j => x.members && j.outcome = .applied with
    | none => ask (.respond (.membership 503))
    | some j => do
      if ← ask (.clusterMembership ⟨j.endpoint, j.caCertHash, j.registration⟩ challenge) then
        ask (.respond (.membership 200))
      else ask (.respond (.membership 503))

end Handlers

/-! ## What an update asks for -/

section Carries
variable {H : Type} (x : Env H)

/-- the requests of an update that is carried out: files and host, then an answer 200 or 500 -/
def Effect.carries : Effect H → Prop
  | .persist _ | .publish _ | .apply _ | .ensureSecret _ _ => True
  | .respond (.update _ code _) => code = 200 ∨ code = 500
  | _ => False

theorem enforce_carries (e : ExpectedHostState) : (enforce x e).Goes Effect.carries := by
  refine ⟨trivial, fun ok => ?_⟩
  cases ok with
  | false => trivial
  | true =>
    show Prog.Goes Effect.carries (match e.secret with | none => _ | some s => _)
    split
    · trivial
    · show Prog.Goes Effect.carries (if x.secrets then _ else _)
      split_ifs
      · refine ⟨trivial, fun r => ?_⟩
        cases r <;> trivial
      · trivial

theorem conclude_carries (intent : SavedState H) (result : Option KubernetesResult × Bool) :
    (conclude intent result).Goes Effect.carries := by
  refine ⟨trivial, fun a => ?_⟩
  cases a with
  | synced =>
    refine ⟨trivial, fun published => ?_⟩
    cases published with
    | false => exact ⟨.inr rfl, fun _ => trivial⟩
    | true =>
      show Prog.Goes Effect.carries (if result.2 then _ else _)
      split_ifs <;> first | exact ⟨.inl rfl, fun _ => trivial⟩ | exact ⟨.inr rfl, fun _ => trivial⟩
  | failed => exact ⟨trivial, fun _ => ⟨.inr rfl, fun _ => trivial⟩⟩
  | renamed => exact ⟨trivial, fun _ => ⟨.inr rfl, fun _ => trivial⟩⟩

theorem carryOut_carries (s : SavedState H) (e : ExpectedHostState) : (carryOut x s e).Goes Effect.carries := by
  refine ⟨trivial, fun a => ?_⟩
  cases a with
  | synced =>
    refine ⟨trivial, fun published => ?_⟩
    cases published with
    | false => exact ⟨.inr rfl, fun _ => trivial⟩
    | true =>
      show Prog.Goes Effect.carries ((enforce x e).bind (conclude (s.intent x e)))
      exact Prog.goes_bind (enforce_carries x e) fun result => conclude_carries _ result
  | failed => exact ⟨.inr rfl, fun _ => trivial⟩
  | renamed => exact ⟨.inr rfl, fun _ => trivial⟩

end Carries

/-! ## Restart -/

structure Memory (H : Type) where
  saved : SavedState H := {}
  join : Option (ClusterJoinState H) := none

inductive Event (H : Type) where
  | persisted (s : SavedState H) -- the state file was replaced and synced
  | reported (s : SavedState H) -- the status of a state was shown
  | invoked (e : ExpectedHostState) -- Apply was called
  | applied (e : ExpectedHostState) -- and succeeded
  | ensured (token : String) (s : KubernetesSecret) -- EnsureSecret succeeded
  | answered (e : ExpectedHostState) (code : ℕ)
  | joining (r : ClusterJoinRequest) -- JoinCluster was called
  | joined (r : ClusterJoinRequest) -- and succeeded
  | proving (m : Membership) -- the contract a challenge is answered for
deriving DecidableEq

structure World (H : Type) where
  state : File (SavedState H) := {}
  join : File (ClusterJoinState H) := {}
  log : List (Event H) := []
deriving DecidableEq

section Service
variable {H : Type} [DecidableEq H] (x : Env H)

/-- an outcome that was in progress -/
def Outcome.resumed : Outcome → Outcome
  | .applying => .interrupted
  | o => o

/-- the persisted state, if it is one that the server wrote -/
def SavedState.load (s : SavedState H) : Option (SavedState H) :=
  if validateExpected (update s.request) ∧ s.digest = some (x.digest s.request) ∧
      s.appliedRevision ≤ s.request.revision ∧ s.outcome ≠ .unconfigured then
    some { s with outcome := s.outcome.resumed }
  else none

omit [DecidableEq H] in
def validateJoinState (j : ClusterJoinState H) : Bool :=
  j.registration.validate x.workerNodeName && 0 < j.fence && joinOperation j.operationId && j.endpoint ≠ "" &&
    joinCAHash j.caCertHash && j.outcome ≠ .unconfigured

omit [DecidableEq H] in
def ClusterJoinState.load (j : ClusterJoinState H) : Option (ClusterJoinState H) :=
  if validateJoinState x j then some { j with outcome := j.outcome.resumed } else none

/-- a file that is not there leaves the zero value -/
def loadSaved : Option (SavedState H) → Option (SavedState H)
  | none => some {}
  | some s => s.load x

omit [DecidableEq H] in
def loadJoin : Option (ClusterJoinState H) → Option (Option (ClusterJoinState H))
  | none => some none
  | some j => (j.load x).map some

/-- the memory of a new server -/
def newServer (w : World H) : Option (Memory H) := do
  let saved ← loadSaved x w.state.current
  let join ← loadJoin x w.join.current
  return ⟨saved, join⟩

/-- NewServer and the start of Serve, which publishes the status before it listens -/
def boot (w : World H) : Handler H (Memory H) :=
  match newServer x w with
  | none => .stop
  | some m => do
    if ← ask (.publish m.saved) then return m else .stop

inductive Call where
  | update (u : Option HostStateUpdate)
  | clusterJoin (r : Option ClusterJoinRequest)
  | clusterMembership (challenge : Option String)

def handle (m : Memory H) : Call → Handler H (Memory H)
  | .update u => do
    let saved ← updateState x m.saved u
    return { m with saved := saved }
  | .clusterJoin r => do
    let join ← clusterJoin x m.join r
    return { m with join := join }
  | .clusterMembership challenge => do
    clusterMembership x m.join challenge
    return m

omit [DecidableEq H] in
def Reply.events : Reply H → List (Event H)
  | .update e code body => .answered e code :: body.toList.map .reported
  | .join _ _ | .membership _ | .badRequest => []

omit [DecidableEq H] in
/-- what an effect and its answer leave in the world -/
def perform : (q : Effect H) → q.Answer → World H → World H
  | .context, _, w => w
  | .persist s, r, w => { w with state := w.state.write s r, log := (if r.ok then [.persisted s] else []) ++ w.log }
  | .publish s, _, w => { w with log := .reported s :: w.log }
  | .apply e, ok, w => { w with log := (if ok then [.applied e] else []) ++ .invoked e :: w.log }
  | .ensureSecret t s, r, w => { w with log := (match r with | .ok _ => [.ensured t s] | .error _ => []) ++ w.log }
  | .persistJoin j, r, w => { w with join := w.join.write j r }
  | .joinCluster r, ok, w => { w with log := (if ok then [.joined r] else []) ++ .joining r :: w.log }
  | .clusterMembership m _, _, w => { w with log := .proving m :: w.log }
  | .respond r, _, w => { w with log := r.events ++ w.log }

/-- how far the interrupted effect got, and which version of each file is left -/
structure Crash where
  begun : Bool
  state : ℕ
  join : ℕ
deriving DecidableEq

omit [DecidableEq H] in
/-- an effect that was begun but not answered -/
def begin : Effect H → World H → World H
  | .persist s, w => { w with state := w.state.write s .renamed }
  | .publish s, w => { w with log := .reported s :: w.log }
  | .apply e, w => { w with log := .invoked e :: w.log }
  | .persistJoin j, w => { w with join := w.join.write j .renamed }
  | .joinCluster r, w => { w with log := .joining r :: w.log }
  | .clusterMembership m _, w => { w with log := .proving m :: w.log }
  | .context, w | .ensureSecret _ _, w | .respond _, w => w

omit [DecidableEq H] in
def crash (k : Crash) (q : Option (Effect H)) (w : World H) : World H :=
  let w' := match q with
    | some q => if k.begun then begin q w else w
    | none => w
  { w' with state := w'.state.recover k.state, join := w'.join.recover k.join }

def service : Service (Effect H) Effect.Answer (World H) (Memory H) Call Crash where
  boot := boot x
  handle := handle x
  perform := perform
  crash := crash

abbrev Act (H : Type) := Service.Act (Effect H) Effect.Answer Call Crash

/-- a run of a host's agent from its installation -/
def run (acts : List (Act H)) : Service.State (Effect H) Effect.Answer (World H) (Memory H) := (service x).run {} acts

omit [DecidableEq H] in
theorem perform_log (q : Effect H) (r : q.Answer) (w : World H) : w.log <:+ (perform q r w).log := by
  cases q with
  | context => exact List.suffix_refl _
  | persist s => exact List.suffix_append _ _
  | publish s => exact List.suffix_cons _ _
  | apply e => exact (List.suffix_cons _ _).trans (List.suffix_append _ _)
  | ensureSecret t s => exact List.suffix_append _ _
  | persistJoin j => exact List.suffix_refl _
  | joinCluster r => exact (List.suffix_cons _ _).trans (List.suffix_append _ _)
  | clusterMembership m c => exact List.suffix_cons _ _
  | respond r => exact List.suffix_append _ _

omit [DecidableEq H] in
theorem crash_log (k : Crash) (q : Option (Effect H)) (w : World H) : w.log <:+ (crash k q w).log := by
  have hbegin (q : Effect H) : w.log <:+ (begin q w).log := by
    cases q <;> first | exact List.suffix_refl _ | exact List.suffix_cons _ _
  cases q with
  | none => exact List.suffix_refl _
  | some q =>
    show w.log <:+ (if k.begun then begin q w else w).log
    split_ifs
    · exact hbegin q
    · exact List.suffix_refl _

/-- the log only grows -/
theorem step_log (s : Service.State (Effect H) Effect.Answer (World H) (Memory H)) (a : Act H) :
    s.world.log <:+ ((service x).step s a).world.log := by
  obtain ⟨w, p⟩ := s
  cases a with
  | start => cases p <;> exact List.suffix_refl _
  | call c => cases p <;> exact List.suffix_refl _
  | answer q r =>
    cases p with
    | down => exact List.suffix_refl _
    | ready m => exact List.suffix_refl _
    | busy q' k =>
      simp only [Service.step]
      split_ifs
      · exact perform_log q r w
      · exact List.suffix_refl _
  | crash k => exact crash_log k p.pending w

end Service

namespace Sample

/-- digests that are the documents themselves -/
abbrev Digest := ExpectedHostState ⊕ (String × String × WorkerRegistration)

def env : Env Digest where
  identity := "spiffe://td/subd/i-1"
  digest := .inl
  digest_injective := Sum.inl_injective
  contract e c r := .inr (e, c, r)
  contract_injective h := by simpa using h
  workerNodeName := id
  validEndpoint _ := true

end Sample

end Crane.Subd
