/-
The provisioning controller (`internal/capacity/provision_worker.go`) with the executor it drives
(`internal/dominator/provisioner.go`), and the system of any number of controllers, a provider and the store.

`provision` is `RunOnce` after the claim: load the trusted target, read the host and advance the operation by one
stage. It is a program over single requests, so that between any two of them other controllers, operators and the clock
act, the controller's lease can run out, and the controller can crash. A store call may take effect although the
controller sees an error, and the provider may have acted although its answer is lost.
-/
import Crane.Capacity.Calls
import Crane.Lib.Session
import Crane.Provider.Launch

namespace Crane.Capacity

open Provider

/-! ## The controller -/

/-- what the policy resolver answers -/
structure DesiredState where
  imageId : String
  track : String
  version : String
  services : List (String × Bool)
  packages : List String
deriving DecidableEq, Repr

/-- the request `deliverExpectedState` builds from a resolved policy -/
def DesiredState.expected (d : DesiredState) : ExpectedHostState where
  revision := 1
  imageId := d.imageId
  track := d.track
  version := d.version
  services := d.services
  packages := d.packages.map fun name => ⟨name, "install"⟩

/-- the points at which a controller waits for someone else -/
inductive Request where
  | store (c : Call)
  | load (op : Operation)
  | host (id : String)
  | binding (op : Operation)
  | launch (op : Operation)
  | enroll (op : Operation) (h : Host) -- cluster, provider, SPIRE, Subd configuration and health checks
  | join (op : Operation) (h : Host) -- cluster join; answers the identity of the validated Node
  | annotate (op : Operation) -- ownership annotations on the Node
  | resolve (op : Operation) (h : Host)
  | deliver (op : Operation) (h : Host) (e : ExpectedHostState) -- PUT /v1/expected-state
  | ready (op : Operation) (h : Host)

abbrev Request.Answer : Request → Type
  | .store _ => Except Err Reply
  | .load _ => Except Err Operation
  | .host _ => Except Err Host
  | .binding _ => Except Err ProvisioningState
  | .launch _ => Option ProvisionResult
  | .enroll _ _ => Bool
  | .join _ _ => Option NodeBinding
  | .annotate _ => Bool
  | .resolve _ _ => Option DesiredState
  | .deliver _ _ _ => Bool
  | .ready _ _ => Option Bool

abbrev Ctl := Prog Request Request.Answer

def ask (q : Request) : Ctl q.Answer := .ask q .ret

/-- a store call whose error ends the round -/
def store (c : Call) : Ctl Reply := .ask (.store c) fun r => match r with
  | .ok r => .ret r
  | .error _ => .stop

/-- records the failure category, gives the lease back and returns the error -/
def retryable (op : Operation) (category : String) : Ctl Unit := do
  let _ ← store (.recordProvisionFailure op category)
  let _ ← store (.releaseProvisionLease op)
  .stop

/-- the state that was pinned before, or what policy resolves to now -/
def expectedRequest (op : Operation) (host : Host) (b : ProvisioningState) : Ctl (Option ExpectedHostState) := do
  match b.expectedState with
  | some e => return some e
  | none => return (← ask (.resolve op host)).map DesiredState.expected

/-- pins the expected state and delivers it to Subd -/
def deliverExpectedState (op : Operation) (host : Host) : Ctl Bool := do
  match ← ask (.binding op) with
  | .error _ => return false
  | .ok b =>
    match ← expectedRequest op host b with
    | none => return false
    | some e =>
      match ← ask (.store (.pinProvisionExpectedState op e)) with
      | .ok (.pinned e) => ask (.deliver op host e)
      | _ => return false

def enrollAndJoin (op : Operation) (host : Host) : Ctl Bool := do
  if ← ask (.enroll op host) then
    match ← ask (.join op host) with
    | none => return false
    | some n =>
      match ← ask (.store (.bindProvisionNode op n)) with
      | .error _ => return false
      | .ok _ => if ← ask (.annotate op) then deliverExpectedState op host else return false
  else return false

/-- REQUESTED and PROVISIONING -/
def launchStage (op : Operation) (host : Host) : Ctl Unit := do
  let _ ← store (.beginLaunch op)
  let _ ← if host.state = .requested then store (.setProvisionState op .requested .provisioning) else pure .unit
  match ← ask (.launch op) with
  | none => retryable op "provider_launch"
  | some r =>
    let _ ← store (.recordLaunchWithAddress op r.providerId r.privateIp r.kubernetesProviderId)
    let _ ← store (.releaseProvisionLease op)

/-- REGISTERING, and BOOTING once it is registering -/
def enrollmentStage (op : Operation) (host : Host) : Ctl Unit := do
  if ← enrollAndJoin op host then
    let _ ← store (.setProvisionState op .registering .converging)
    let _ ← store (.releaseProvisionLease op)
  else retryable op "host_enrollment"

/-- CONVERGING -/
def readinessStage (op : Operation) (host : Host) : Ctl Unit := do
  match ← ask (.ready op host) with
  | none => retryable op "readiness_check"
  | some false => let _ ← store (.releaseProvisionLease op)
  | some true =>
    let _ ← store (.prepareProvisionRelease op host.desiredStateVersion)
    match ← ask (.store (.finalizeProvision op host.desiredStateVersion)) with
    | .error _ => retryable op "readiness_handoff"
    | .ok _ => return

def advance (op : Operation) : Ctl Unit := do
  match ← ask (.host op.hostId) with
  | .error _ => .stop
  | .ok host =>
    match host.state with
    | .requested | .provisioning => launchStage op host
    | .booting => do
      let _ ← store (.setProvisionState op .booting .registering)
      enrollmentStage op host
    | .registering => enrollmentStage op host
    | .converging => readinessStage op host
    | .ready => do let _ ← store (.completeProvision op)
    | _ => .stop

/-- `RunOnce` after a successful claim -/
def provision (op : Operation) : Ctl Unit := do
  match ← ask (.load op) with
  | .error _ => .stop
  | .ok op => advance op

/-- the lease a controller asks for: two minutes unless it is configured -/
def leaseOrDefault (lease : Duration) : Duration := if lease = 0 then 2 * 60 * 1000000000 else lease

/-! ## The system -/

/-- how a store call goes: it is answered, it takes effect but the answer is lost, or it never reaches the store -/
inductive Delivery where
  | answered | lost | failed
deriving DecidableEq, Repr

/-- what the outside contributes to one request; each request uses its own part -/
structure Answers where
  delivery : Delivery := .answered
  released : Bool := true -- the release callback of `FinalizeProvision`
  launch : LaunchAnswer := ⟨true, ⟨none, none, none⟩, true, "", ⟨"", false⟩, false⟩
  enrolled : Bool := true
  joined : Option NodeBinding := none
  annotated : Bool := true
  desired : Option DesiredState := none
  delivered : Bool := true
  ready : Option Bool := some true
deriving DecidableEq, Repr

/-- one round of a controller: the operation as claimed, the lease duration and what is left to do -/
structure Session where
  op : Operation
  lease : Duration
  prog : Ctl Unit

/-- `issued` and `seen` only record: the operations whose provider call was sent, and for each operation the successive
states of its host -/
structure St where
  db : DB
  cloud : Cloud
  sessions : ℕ → Option Session
  issued : List String
  seen : String → List HostState

/-- functions of other packages and the deployment the controllers run in -/
structure World where
  ext : Externals
  runtime : Runtime

inductive Act where
  | call (c : Call) -- operators, adapters and other controllers; not the fenced calls
  | tick (n : ℕ)
  | claim (i : ℕ) (zoneId identity : String) (lease : Duration) (locked : String → Bool)
  | renew (i : ℕ)
  | ask (i : ℕ) (a : Answers)
  | crash (i : ℕ)

variable (w : World)

/-- a call as its caller sees it -/
def callStore (d : DB) (c : Call) (a : Answers) : DB × Except Err Reply :=
  match a.delivery, (code w.ext c).run (fun _ => a.released) d with
  | .answered, .ok (r, d') => (d', .ok r)
  | .answered, .error e => (d, .error e)
  | .lost, .ok (_, d') => (d', .error .badConn)
  | .lost, .error _ => (d, .error .badConn)
  | .failed, _ => (d, .error .badConn)

/-- a query as its caller sees it -/
def query {α : Type} (d : DB) (x : StoreTx α) (a : Answers) : Except Err α :=
  match a.delivery with
  | .answered => x.result (fun _ => a.released) d
  | .lost | .failed => .error .badConn

def exec (s : St) (a : Answers) : (q : Request) → St × q.Answer
  | .store c => let r := callStore w s.db c a; ({ s with db := r.1 }, r.2)
  | .load op => (s, query s.db (loadProvisioningTarget op) a)
  | .host id => (s, query s.db (hostOf id) a)
  | .binding op => (s, query s.db (provisionBinding op) a)
  | .launch op =>
    let r := launch w.runtime s.cloud op a.launch
    ({ s with cloud := r.1, issued := if r.2.2 then op.id :: s.issued else s.issued }, r.2.1)
  | .enroll _ _ => (s, a.enrolled)
  | .join _ _ => (s, a.joined)
  | .annotate _ => (s, a.annotated)
  | .resolve _ _ => (s, a.desired)
  | .deliver _ _ _ => (s, a.delivered)
  | .ready _ _ => (s, a.ready)

def St.set (s : St) (i : ℕ) (x : Option Session) : St :=
  { s with sessions := fun j => if j = i then x else s.sessions j }

def St.act (s : St) : Act → St
  | .call c => if c.fenced.isSome then s else { s with db := (code w.ext c).after (fun _ => true) s.db }
  | .tick n => { s with db := s.db.tick n }
  | .claim i zoneId identity lease locked => match s.sessions i with
    | some _ => s
    | none =>
      let lease := leaseOrDefault lease
      match (claimDominator zoneId .provision identity lease locked).run (fun _ => true) s.db with
      | .error _ => s
      | .ok (op, d) => { s with db := d }.set i (some ⟨op, lease, provision op⟩)
  | .renew i => match s.sessions i with
    | none => s
    | some x => { s with db := (renew x.op x.lease).after (fun _ => true) s.db }
  | .ask i a => match s.sessions i with
    | some ⟨op, lease, .ask q k⟩ => let r := exec w s a q; r.1.set i (some ⟨op, lease, k r.2⟩)
    | some ⟨_, _, .ret _⟩ | some ⟨_, _, .stop⟩ => s.set i none
    | none => s
  | .crash i => s.set i none

/-- the state of the host of provision operation `i` -/
def DB.hostState (d : DB) (i : String) : Option HostState := do
  let o ← (d.operations.find i).filter fun o => o.kind = .provision
  let h ← o.hostId.bind d.hosts.find
  return h.state

/-- add a state to a history unless it is the last one -/
def record (l : List HostState) (s : HostState) : List HostState := if l.getLast? = some s then l else l ++ [s]

def St.observe (s : St) : St :=
  { s with seen := fun i => match s.db.hostState i with
    | none => s.seen i
    | some x => record (s.seen i) x }

def St.step (s : St) (a : Act) : St := (s.act w a).observe

def St.run (s : St) (acts : List Act) : St := acts.foldl (St.step w) s

/-- a catalog, no controller at work and no instance -/
def St.init (c : Catalog) : St := ⟨c.db, [], fun _ => none, [], fun _ => []⟩

end Crane.Capacity
