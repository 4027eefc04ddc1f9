/-
Secret delivery (`internal/hostoperations`): `Controller.Execute` of any number of Dominator replicas, the table
host_state_requests, and the system they work in: the fleet with its provisioning controllers and one Subd per identity.

`execute` is a program over single requests, so that other calls, controllers, host agents and crashes come between any
two of them. Its statements run on one database session, which holds the host's advisory lock; a session may end at any
point, and then the lock is free and every later statement of the call fails. A statement may take effect although its
answer is lost.

A PUT is sent before it is answered. What was sent may reach Subd at any later time and any number of times, also when
the sender has gone; a call sees an answer only if Subd gave it for that content.

Left out: metrics and traces, and the error text that the HTTP handler copies into the result.
-/
import Crane.Dominator.Policy
import Crane.Subd.Revisions

namespace Crane.HostOperations

open Capacity (DB Delivery)
open Subd (HostAgentStatus KubernetesResult SavedState)

/-! ## Requests and their rows -/

structure SecretRequest where
  requestId : String
  secret : SecretSpec
deriving DecidableEq, Repr

def SecretRequest.normalize (r : SecretRequest) : Option KubernetesSecret :=
  if r.requestId = "" ∨ 128 < r.requestId.utf8ByteSize then none else r.secret.normalize

inductive RequestOutcome where
  | pending | applied | failed | unknown
deriving DecidableEq, Repr

structure SecretResult where
  hostId : String
  zoneId : String
  requestId : String
  revision : ℕ
  outcome : RequestOutcome
  kubernetes : Option KubernetesResult
deriving DecidableEq, Repr

/-- the status and the text of an operationError -/
structure Failure where
  status : ℕ
  message : String
deriving DecidableEq, Repr

/-- a row of host_state_requests; PRIMARY KEY(host_id, request_id) -/
structure HostStateRequest (H : Type) where
  hostId : String
  requestId : String
  fingerprint : H
  revision : ℕ
  outcome : RequestOutcome := .pending
  result : Option SecretResult := none
  check_revision : 0 < revision
deriving DecidableEq

def HostStateRequest.key {H : Type} (r : HostStateRequest H) : String × String := (r.hostId, r.requestId)

inductive Observability where
  | configurationPending | ready | failed
deriving DecidableEq, Repr

/-! ## Targets -/

/-- the row of `loadTarget`'s first query; the membership is absent for hosts outside of clusters -/
structure Location where
  zoneId : String
  clusterId : String
  providerId : String
  endpoint : String
  state : HostState
  membership : Option Capacity.ClusterZone
deriving DecidableEq, Repr

def selectLocation (d : DB) (host : String) : Option Location :=
  (d.hosts.find host).map fun h =>
    let g := (h.nodeGroupId.bind d.nodeGroups.find).filter fun g => some g.zoneId = h.craneZone
    { zoneId := h.craneZone.getD h.zone
      clusterId := (g.map Capacity.NodeGroup.clusterId).getD ""
      providerId := h.providerId.getD ""
      endpoint := h.subdEndpoint
      state := h.state
      membership := g.bind fun g => d.clusterZones.find (g.clusterId, g.zoneId) }

structure Target where
  zoneId : String
  providerId : String
  endpoint : String
  dominatorIdentity : String
deriving DecidableEq, Repr

/-- the host's state, and the membership of its cluster, authorize changes -/
def Location.check (l : Location) : Option Failure :=
  if l.state = .draining ∨ l.state = .terminating ∨ l.state = .terminated ∨ l.state = .failed ∨ l.providerId = "" ∨
      l.endpoint = "" then
    some ⟨409, "host unavailable for expected-state changes"⟩
  else if l.clusterId ≠ "" ∧ ¬(l.membership.any Capacity.ClusterZone.admitted = true) then
    some ⟨403, "cluster-zone membership does not authorize host state changes"⟩
  else none

/-! ## Execute -/

inductive LockError where
  | connection | query | deadline
deriving DecidableEq, Repr

def LockError.failure : LockError → Failure
  | .connection => ⟨503, "operation store unavailable"⟩
  | .query => ⟨503, "cannot acquire host operation ownership"⟩
  | .deadline => ⟨504, "host operation deadline exceeded"⟩

/-- which statement of the last transaction failed -/
inductive RecordError where
  | outcome | observability
deriving DecidableEq, Repr

def RecordError.failure : RecordError → Failure
  | .outcome => ⟨503, "cannot persist host outcome; retry the same request ID"⟩
  | .observability => ⟨503, "cannot persist observability status"⟩

inductive Query (H : Type) where
  | lock (host : String)
  | location (host : String)
  | dominator (zoneId : String)
  | request (host requestId : String)
  | health (peer : String) -- GET /v1/health
  | maximum (host : String)
  | insert (row : HostStateRequest H)
  | send (peer : String) (e : ExpectedHostState) -- PUT /v1/expected-state
  | response (peer : String) (e : ExpectedHostState)
  | record (result : SecretResult) (observability : Option (String × Observability))
  | expired -- ctx.Err()
  | unlock (host : String)
  | finish (result : SecretResult) (err : Option Failure)

/-- `none` is an error of the statement or of the call -/
abbrev Query.Answer {H : Type} : Query H → Type
  | .lock _ => Except LockError Unit
  | .location _ => Option (Option Location)
  | .dominator _ => Option (Option Capacity.ZoneDominator)
  | .request _ _ => Option (Option (HostStateRequest H))
  | .health _ => Option HostAgentStatus
  | .maximum _ => Option ℕ
  | .insert _ => Bool
  | .send _ _ => Unit
  | .response _ _ => Option (ℕ × Option HostAgentStatus)
  | .record _ _ => Except RecordError Unit
  | .expired => Bool
  | .unlock _ => Unit
  | .finish _ _ => Unit

abbrev Exec (H : Type) := Prog (Query H) Query.Answer

/-- a Dominator replica -/
structure Controller where
  zoneId : String
  trustDomain : String
  ownIdentity : String
deriving DecidableEq, Repr

/-- the identity of a provider's instance -/
def subdIdentity (trustDomain providerId : String) : String := "spiffe://" ++ trustDomain ++ "/subd/" ++ providerId

/-- the surroundings: one host agent for each identity, and SHA-256 of Secrets; `validPath` is the check of go-spiffe -/
structure World (H : Type) where
  fleet : Capacity.World
  agent : String → Subd.Env H
  agent_identity : ∀ p, (agent p).identity = p
  fingerprint : KubernetesSecret → H
  fingerprint_injective : Function.Injective fingerprint
  validPath : String → String → Bool

section Execute
variable {H : Type}

def ask (q : Query H) : Exec H q.Answer := .ask q .ret

/-- a call's result so far and its error -/
abbrev Ended := SecretResult × Option Failure

def loadTarget (host : String) : Exec H (Except Failure Target) := do
  match ← ask (.location host) with
  | none => return .error ⟨503, "host catalog unavailable"⟩
  | some none => return .error ⟨404, "host not found"⟩
  | some (some l) =>
    match l.check with
    | some f => return .error f
    | none =>
      match ← ask (.dominator l.zoneId) with
      | none | some none => return .error ⟨503, "zone Dominator unavailable"⟩
      | some (some z) => return .ok ⟨l.zoneId, l.providerId, l.endpoint, z.identity⟩

variable [DecidableEq H] (w : World H)

/-- the identity of the host's agent -/
def World.peer (c : Controller) (providerId : String) : Option String :=
  if w.validPath c.trustDomain providerId then some (subdIdentity c.trustDomain providerId) else none

omit [DecidableEq H] in
/-- a decoded status over the one before: omitted members keep their value -/
def decoded (old new : HostAgentStatus) : HostAgentStatus :=
  { new with
    expectedVersion := if new.expectedVersion = "" then old.expectedVersion else new.expectedVersion
    kubernetes := new.kubernetes.or old.kubernetes }

omit [DecidableEq H] in
/-- the agent reports that it applied the revision, with the Secret verified and the rollout ready or not asked for -/
def confirmed (secret : KubernetesSecret) (revision code : ℕ) (status : HostAgentStatus) : Bool :=
  code = 200 && status.outcome = .applied && status.appliedRevision = revision &&
    status.kubernetes.any fun k => k.secret = .verified &&
      ((secret.rolloutDeployment = "" && k.rollout = .notRequested) ||
        (secret.rolloutDeployment ≠ "" && k.rollout = .ready))

omit [DecidableEq H] in
/-- what the answer to the PUT says about the request -/
def judge (peer : String) (secret : KubernetesSecret) (result : SecretResult) (status : HostAgentStatus) :
    Option (ℕ × Option HostAgentStatus) → SecretResult
  | none => { result with outcome := .unknown }
  | some (code, body) =>
    let status := body.elim status (decoded status)
    if status.identity = peer ∧ status.acceptedRevision = result.revision then
      { result with
        kubernetes := status.kubernetes
        outcome := if confirmed secret result.revision code status then .applied
          else if status.outcome = .failed then .failed else .unknown }
    else { result with outcome := .unknown }

omit [DecidableEq H] in
/-- the Secret of the telemetry collector also decides the zone's observability status -/
def observability (zoneId : String) (secret : KubernetesSecret) (outcome : RequestOutcome) :
    Option (String × Observability) :=
  if secret.namespaceName = "crane-system" ∧ secret.name = "otel-exporter-config" ∧
      secret.rolloutDeployment = "otel-collector" then
    some (zoneId, if outcome = .applied then .ready else .failed)
  else none

omit [DecidableEq H] in
/-- stores the outcome and reports it -/
def conclude (secret : KubernetesSecret) (result : SecretResult) : Exec H Ended := do
  match ← ask (.record result (observability result.zoneId secret result.outcome)) with
  | .error e => return (result, some e.failure)
  | .ok () =>
    if result.outcome = .applied then return (result, none)
    else if ← ask .expired then
      return (result, some ⟨504, "operation deadline exceeded; completion may be unknown"⟩)
    else return (result, some ⟨502, "host operation did not complete; retry the same request ID"⟩)

omit [DecidableEq H] in
/-- the expected state of a Secret request -/
def secretState (revision : ℕ) (secret : KubernetesSecret) : ExpectedHostState :=
  { revision := revision, secret := some secret }

omit [DecidableEq H] in
/-- the PUT of a request whose revision is stored -/
def deliver (peer : String) (secret : KubernetesSecret) (result : SecretResult) (status : HostAgentStatus) :
    Exec H Ended := do
  ask (.send peer (secretState result.revision secret))
  let answer ← ask (.response peer (secretState result.revision secret))
  let result := judge peer secret result status answer
  if answer.any fun a => a.1 = 409 then return (result, some ⟨409, "host revision conflict"⟩)
  else conclude secret result

/-- a new revision, above every stored one and the one the agent accepted -/
def allocate (peer : String) (secret : KubernetesSecret) (result : SecretResult) (status : HostAgentStatus) :
    Exec H Ended := do
  match ← ask (.maximum result.hostId) with
  | none => return (result, some ⟨503, "operation store unavailable"⟩)
  | some maximum =>
    let maximum := max maximum status.acceptedRevision
    if 9223372036854775807 ≤ maximum then return (result, some ⟨409, "host revision exhausted"⟩)
    else
      let result := { result with revision := maximum + 1 }
      if ← ask (.insert ⟨result.hostId, result.requestId, w.fingerprint secret, maximum + 1, .pending, none,
          Nat.succ_pos _⟩) then
        deliver peer secret result status
      else return (result, some ⟨503, "cannot persist host operation"⟩)

/-- the part of Execute that talks to the agent; `stored` says whether the request has a revision -/
def contact (peer : String) (secret : KubernetesSecret) (stored : Bool) (result : SecretResult) : Exec H Ended := do
  match ← ask (.health peer) with
  | none => return (result, some ⟨502, "host state unavailable; completion may be unknown"⟩)
  | some status =>
    if status.identity ≠ peer ∨ status.ready = false then
      return (result, some ⟨502, "host state unavailable; completion may be unknown"⟩)
    else if stored then
      if result.revision < status.acceptedRevision then
        return (result, some ⟨409, "host operation has been superseded"⟩)
      else deliver peer secret result status
    else allocate w peer secret result status

/-- looks the request up -/
def resume (peer : String) (secret : KubernetesSecret) (result : SecretResult) : Exec H Ended := do
  match ← ask (.request result.hostId result.requestId) with
  | none => return (result, some ⟨503, "operation store unavailable"⟩)
  | some none => contact w peer secret false result
  | some (some row) =>
    let result := { result with revision := row.revision }
    if row.fingerprint ≠ w.fingerprint secret then
      return (result, some ⟨409, "request ID already used with different contents"⟩)
    else if row.outcome = .applied then
      match row.result with
      | none => return (result, some ⟨503, "saved operation outcome unavailable"⟩)
      | some saved => return (saved, none)
    else contact w peer secret true result

/-- Execute while it holds the host's lock -/
def owned (c : Controller) (secret : KubernetesSecret) (result : SecretResult) : Exec H Ended := do
  match ← loadTarget result.hostId with
  | .error f => return (result, some f)
  | .ok target =>
    let result := { result with zoneId := target.zoneId }
    if c.zoneId = "" ∨ target.zoneId ≠ c.zoneId ∨ target.dominatorIdentity ≠ c.ownIdentity then
      return (result, some ⟨403, "host is not owned by this Dominator"⟩)
    else
      match w.peer c target.providerId with
      | none => return (result, some ⟨503, "host identity unavailable"⟩)
      | some peer => resume w peer secret result

/-- the result before anything is known -/
def SecretRequest.unknown (r : SecretRequest) (host : String) : SecretResult := ⟨host, "", r.requestId, 0, .unknown, none⟩

def execute (c : Controller) (host : String) (r : SecretRequest) : Exec H Unit :=
  match r.normalize with
  | none => ask (.finish (r.unknown host) (some ⟨400, "invalid Secret request"⟩))
  | some secret => do
    match ← ask (.lock host) with
    | .error e => ask (.finish (r.unknown host) (some e.failure))
    | .ok () =>
      let ended ← owned w c secret (r.unknown host)
      ask (.unlock host)
      ask (.finish ended.1 ended.2)

end Execute

/-! ## The system -/

/-- a call of Execute; `before` records the row of its request when it began -/
structure Call (H : Type) where
  host : String
  request : SecretRequest
  before : Option (HostStateRequest H)
  prog : Exec H Unit

/-- a PUT on its way; `secret` says whether Execute sent it -/
structure Put where
  peer : String
  state : ExpectedHostState
  secret : Bool
deriving DecidableEq

/-- what happened, newest first -/
inductive Entry where
  | located (host providerId : String) -- a call read the provider ID of its host
  | allocated (host requestId : String) (revision : ℕ)
  | contacted (n : ℕ)
  | recorded (n : ℕ) (result : SecretResult)
  | returned (n : ℕ) (result : SecretResult) (err : Option Failure)
deriving DecidableEq

abbrev Agent (H : Type) := Service.State (Subd.Effect H) Subd.Effect.Answer (Subd.World H) (Subd.Memory H)

structure State (H : Type) where
  fleet : Capacity.St
  requests : Table (HostStateRequest.key (H := H))
  locks : String → Option ℕ
  calls : ℕ → Option (Call H)
  agents : String → Agent H
  wire : List Put
  observability : String → Observability
  log : List Entry

/-- what the outside contributes to one request of a call -/
structure Answers (H : Type) where
  delivery : Delivery := .answered -- of a statement
  lock : Except LockError Unit := .ok ()
  reachable : Bool := true
  response : Option (ℕ × Option (SavedState H)) := none
  failed : RecordError := .outcome -- of the last transaction, if its statements fail
  expired : Bool := false

inductive Act (H : Type) where
  | fleet (a : Capacity.Act)
  | agent (peer : String) (a : Subd.Act H)
  | execute (n : ℕ) (c : Controller) (host : String) (r : SecretRequest)
  | ask (n : ℕ) (a : Answers H)
  | disconnect (n : ℕ) -- the database session of a call ends
  | crash (n : ℕ)

section Step
variable {H : Type} [DecidableEq H] (w : World H)

/-- a read on the call's session -/
def read {α : Type} (held : Bool) (a : Answers H) (x : α) : Option α :=
  if held = true ∧ a.delivery = .answered then some x else none

/-- the last status the agent showed -/
def view (log : List (Subd.Event H)) : Option (SavedState H) :=
  log.findSome? fun e => match e with
    | .reported s => some s
    | _ => none

/-- the agent gave this answer to this content; 400 leaves no trace, and 200 without a status is an error -/
def answeredWith (log : List (Subd.Event H)) (e : ExpectedHostState) (code : ℕ) (body : Option (SavedState H)) : Bool :=
  if code = 400 then body.isNone
  else (code ≠ 200 || body.isSome) && log.tails.any fun l => (Subd.Reply.update e code body).events.isPrefixOf l

/-- the highest revision of the host's requests -/
def State.maximum (s : State H) (host : String) : ℕ :=
  ((s.requests.rows.filter fun r => r.hostId = host).map HostStateRequest.revision).foldr max 0

omit [DecidableEq H] in
def State.insert (s : State H) (row : HostStateRequest H) : State H :=
  { s with
    requests := s.requests.put row
    log := .allocated row.hostId row.requestId row.revision :: s.log }

omit [DecidableEq H] in
/-- the last transaction of call `n` -/
def State.record (s : State H) (n : ℕ) (result : SecretResult) (observability : Option (String × Observability)) :
    State H :=
  { s with
    requests := match s.requests.find (result.hostId, result.requestId) with
      | none => s.requests
      | some row => s.requests.put { row with outcome := result.outcome, result := some result }
    observability := match observability with
      | none => s.observability
      | some (z, o) => Function.update s.observability z o
    log := .recorded n result :: s.log }

/-- one request of call `n` on `host` -/
def State.exec (s : State H) (n : ℕ) (host : String) (a : Answers H) : (q : Query H) → State H × q.Answer
  | .lock _ => match a.lock with
    | .ok () => ({ s with locks := Function.update s.locks host (some n) }, .ok ())
    | .error e => (s, .error e)
  | .location h =>
    let l := read (s.locks host = some n) a (selectLocation s.fleet.db h)
    ({ s with log := (l.join.map fun l => Entry.located h l.providerId).toList ++ s.log }, l)
  | .dominator z => (s, read (s.locks host = some n) a (s.fleet.db.zoneDominators.find z))
  | .request h r => (s, read (s.locks host = some n) a (s.requests.find (h, r)))
  | .health p =>
    ({ s with log := .contacted n :: s.log },
      if a.reachable then (view (s.agents p).world.log).map (SavedState.status (w.agent p)) else none)
  | .maximum h => (s, read (s.locks host = some n) a (s.maximum h))
  | .insert row =>
    -- UNIQUE(host_id, request_id), UNIQUE(host_id, revision) and the key of the host
    if s.locks host = some n ∧ a.delivery ≠ .failed ∧ s.requests.find row.key = none ∧
        (s.requests.rows.all fun r => r.hostId ≠ row.hostId || r.revision ≠ row.revision) = true ∧
        (s.fleet.db.hosts.find row.hostId).isSome = true then
      (s.insert row, decide (a.delivery = .answered))
    else (s, false)
  | .send p e => ({ s with wire := ⟨p, e, true⟩ :: s.wire, log := .contacted n :: s.log }, ())
  | .response p e =>
    (s, match a.response with
      | none => none
      | some (code, body) =>
        if answeredWith (s.agents p).world.log e code body then
          some (code, body.map (SavedState.status (w.agent p)))
        else none)
  | .record result observability =>
    if s.locks host = some n ∧ a.delivery ≠ .failed then
      (s.record n result observability, if a.delivery = .answered then .ok () else .error .outcome)
    else (s, .error a.failed)
  | .expired => (s, a.expired)
  | .unlock h => ({ s with locks := if s.locks h = some n then Function.update s.locks h none else s.locks }, ())
  | .finish result err => ({ s with log := .returned n result err :: s.log }, ())

/-- the call goes on with `prog` -/
def State.continue (s : State H) (n : ℕ) (c : Call H) (prog : Exec H Unit) : State H :=
  { s with calls := Function.update s.calls n (some { c with prog := prog }) }

/-- the locks of a session end with it -/
def State.release (s : State H) (n : ℕ) : State H :=
  { s with locks := fun h => if s.locks h = some n then none else s.locks h }

/-- an update reaches an agent only if it was sent, or if it is not one -/
def arrives (wire : List Put) (peer : String) : Subd.Act H → Bool
  | .call (.update (some u)) =>
      u.accepted.isNone || wire.any fun p => p.peer = peer && Subd.update p.state = u
  | _ => true

/-- the PUT that the controller of session `i` sends with its next request -/
def provisioningPut (w : World H) (s : Capacity.St) : Capacity.Act → List Put
  | .ask i _ => match (s.sessions i).bind Dominator.delivery with
    | some p => [⟨subdIdentity w.fleet.runtime.trustDomain (p.host.providerId.getD ""), p.state, false⟩]
    | none => []
  | _ => []

/-- a lock that another session holds lets the call wait -/
def waits (s : State H) (host : String) (a : Answers H) : Query H → Bool
  | .lock _ => (s.locks host).isSome && a.lock.isOk
  | _ => false

def State.step (s : State H) : Act H → State H
  | .fleet a => { s with fleet := s.fleet.step w.fleet a, wire := provisioningPut w s.fleet a ++ s.wire }
  | .agent p a =>
    if arrives s.wire p a then
      { s with agents := Function.update s.agents p ((Subd.service (w.agent p)).step (s.agents p) a) }
    else s
  | .execute n c host r => match s.calls n with
    | some _ => s
    | none => { s with
        calls := Function.update s.calls n (some ⟨host, r, s.requests.find (host, r.requestId), execute w c host r⟩) }
  | .ask n a => match s.calls n with
    | some c => match c.prog with
      | .ask q k =>
        if waits s c.host a q then s
        else let r := s.exec w n c.host a q; r.1.continue n c (k r.2)
      | .ret _ | .stop => s
    | none => s
  | .disconnect n => s.release n
  | .crash n => match s.calls n with
    | some c => (s.release n).continue n c .stop
    | none => s

def State.run (s : State H) (acts : List (Act H)) : State H := acts.foldl (State.step w) s

/-- a catalog, no request and agents that were never started -/
def State.init (cat : Capacity.Catalog) : State H where
  fleet := .init cat
  requests := .empty
  locks _ := none
  calls _ := none
  agents _ := ⟨{}, .down⟩
  wire := []
  observability _ := .configurationPending
  log := []

end Step

end Crane.HostOperations
