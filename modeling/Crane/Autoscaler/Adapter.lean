/-
The Cluster Autoscaler adapter (`internal/adapter/autoscaler`): the HTTP client of the Crane API (`client.go`), the
conversion of discovered and static inventory (`server.go`, `static.go`), and the callbacks that change targets and
remove nodes.

A callback is a program over single requests: the Crane API, the node verifier, the shared inventory snapshot, the
caller's context and the timer of the retry loop. What the HTTP exchange makes of a request is a `Response`: no answer, a
status outside 200..299, a body that does not decode, or a decoded body. JSON object members are matched by name.
-/
import Crane.Api
import Crane.Lib.Session
import Mathlib.Tactic.Common

namespace Crane.Autoscaler

/-- the gRPC status codes the adapter uses -/
inductive Code where
  | canceled | deadlineExceeded | invalidArgument | unauthenticated | permissionDenied | notFound | aborted
  | failedPrecondition | resourceExhausted | outOfRange | unavailable | internal
deriving DecidableEq, Repr

/-! ## Inventory -/

structure AutoscalerNode where
  hostId : String
  providerId : String
  state : HostState
deriving DecidableEq, Repr

structure AutoscalerGroup where
  id : String
  clusterId : String
  pool : String
  templateRevision : String
  minNodes : ℤ
  maxNodes : ℤ
  cpu : ℤ
  memoryMib : ℤ
  scheduling : SchedulingTemplate
  nodes : List AutoscalerNode
deriving DecidableEq, Repr

inductive NodeState where
  | running | creating | deleting
deriving DecidableEq, Repr

structure Node where
  hostId : String
  providerId : String
  name : String
  state : NodeState
deriving DecidableEq, Repr

structure StaticNodeGroup where
  id : String
  clusterId : String
  templateRevision : String
  zone : String
  region : String
  pool : String
  minNodes : ℤ
  maxNodes : ℤ
  instanceType : String
  architecture : String
  cpu : ℤ
  memoryMb : ℤ
  labels : List (String × String)
  taints : List SchedulingTaint
  nodes : List Node
deriving DecidableEq, Repr

/-- math.MaxInt32 -/
def maxInt32 : ℤ := 2147483647

/-- math.MaxInt64/(1024*1024) -/
def maxMemoryMib : ℤ := maxInt64 / (1024 * 1024)

/-- no label overrides a canonical one -/
def agreesWith (canonical labels : List (String × String)) : Bool :=
  canonical.all fun (key, want) => (labels.lookup key).all fun got => got = want

def topologyLabels (region zone pool instanceType : String) : List (String × String) :=
  [("kubernetes.io/os", "linux"), ("topology.kubernetes.io/region", region), ("topology.kubernetes.io/zone", zone),
    ("platform.crane.io/node-pool", pool), ("node.kubernetes.io/instance-type", instanceType)]

def supportedArchitecture (a : String) : Bool := a = "amd64" || a = "arm64"

/-- the node state an autoscaler is told -/
def nodeState : HostState → NodeState
  | .ready | .converging | .registering | .unhealthy => .running
  | .draining | .terminating => .deleting
  | _ => .creating

/-- the nodes of one group; `seen` are the provider IDs met so far, also in other groups -/
def discoveredNodes (seen : List String) : List AutoscalerNode → Except Code (List Node × List String)
  | [] => .ok ([], seen)
  | n :: ns =>
    if n.hostId = "" ∨ n.providerId = "" ∨ n.providerId ∈ seen then .error .internal
    else do
      let (nodes, seen) ← discoveredNodes (n.providerId :: seen) ns
      -- the catalog does not know Kubernetes node names
      return ({ hostId := n.hostId, providerId := n.providerId, name := "", state := nodeState n.state } :: nodes, seen)

def AutoscalerGroup.wellFormed (g : AutoscalerGroup) : Bool :=
  g.id ≠ "" && g.clusterId ≠ "" && g.pool ≠ "" && g.templateRevision ≠ "" && 0 ≤ g.minNodes && g.minNodes ≤ g.maxNodes &&
    g.maxNodes ≤ maxInt32 && 0 < g.cpu && 0 < g.memoryMib && g.scheduling.zone ≠ "" && g.scheduling.region ≠ "" &&
    g.scheduling.instanceType ≠ "" && g.memoryMib ≤ maxMemoryMib &&
    (g.scheduling.architecture = "" || supportedArchitecture g.scheduling.architecture) &&
    agreesWith (topologyLabels g.scheduling.region g.scheduling.zone g.pool g.scheduling.instanceType ++
      if g.scheduling.architecture = "" then [] else [("kubernetes.io/arch", g.scheduling.architecture)])
      g.scheduling.labels

def AutoscalerGroup.toStatic (g : AutoscalerGroup) (nodes : List Node) : StaticNodeGroup where
  id := g.id
  clusterId := g.clusterId
  templateRevision := g.templateRevision
  zone := g.scheduling.zone
  region := g.scheduling.region
  pool := g.pool
  minNodes := g.minNodes
  maxNodes := g.maxNodes
  instanceType := g.scheduling.instanceType
  architecture := g.scheduling.architecture
  cpu := g.cpu
  memoryMb := g.memoryMib
  labels := g.scheduling.labels
  taints := g.scheduling.taints
  nodes := nodes

/-- the loop of `discoveredGroups` with the group and provider IDs met so far -/
def discoveredFrom (ids seen : List String) : List AutoscalerGroup → Except Code (List StaticNodeGroup)
  | [] => .ok []
  | g :: gs =>
    if g.wellFormed = false ∨ g.id ∈ ids then .error .internal
    else do
      let (nodes, seen) ← discoveredNodes seen g.nodes
      let groups ← discoveredFrom (g.id :: ids) seen gs
      return g.toStatic nodes :: groups

def discoveredGroups (d : List AutoscalerGroup) : Except Code (List StaticNodeGroup) := discoveredFrom [] [] d

/-! ## The HTTP client -/

/-- what becomes of an HTTP exchange -/
inductive Response (α : Type) where
  | context (c : Code) -- the caller's context ended
  | transport -- no response
  | rejected (status : ℕ) (code : String) -- a status outside 200..299 and the machine code of its body
  | incomplete -- the body does not decode
  | decoded (a : α)

/-- the gRPC code of a rejected request -/
def statusCode (status : ℕ) (failure : String) : Code :=
  if status = 422 ∧ failure = "capacity_limit" then .resourceExhausted
  else match status with
    | 400 => .invalidArgument
    | 401 => .unauthenticated
    | 403 => .permissionDenied
    | 404 => .notFound
    | 409 => .aborted
    | 422 => .failedPrecondition
    | 429 | 502 | 503 | 504 => .unavailable
    | _ => .internal

/-- `do` with an output: an incomplete body counts as an outage, since a mutation may already have committed -/
def Response.result {α : Type} : Response α → Except Code α
  | .context c => .error c
  | .transport => .error .unavailable
  | .rejected status code => .error (statusCode status code)
  | .incomplete => .error .unavailable
  | .decoded a => .ok a

/-- `do` without an output: the body is not read -/
def Response.accepted : Response Unit → Except Code Unit
  | .incomplete => .ok ()
  | r => r.result

namespace HTTPClient

def target (group : String) (r : Response CapacityResult) : Except Code CapacityResult := do
  let out ← r.result
  if out.nodeGroupId ≠ group ∨ out.targetNodes < 0 ∨ out.targetRevision < 0 then .error .internal else .ok out

/-- the outcome is the one that was asked for -/
def verified (req : CapacityRequest) (out : CapacityResult) : Bool :=
  out.nodeGroupId = req.nodeGroupId && out.requestId = req.requestId && out.targetNodes = req.desiredTarget &&
    out.targetRevision = wrap64 (req.expectedTargetRevision + 1)

def setTarget (req : CapacityRequest) (r : Response CapacityResult) : Except Code CapacityResult := do
  let out ← r.result
  if verified req out then .ok out else .error .unavailable

def discover (clusterId : String) (r : Response (List AutoscalerGroup)) : Except Code (List AutoscalerGroup) := do
  let groups ← r.result
  if groups.any fun g => g.clusterId ≠ clusterId || g.id = "" || g.templateRevision = "" then .error .internal
  else .ok groups

end HTTPClient

/-! ## The callbacks -/

/-- the points at which a callback waits for someone else -/
inductive Query where
  | discover
  | install (groups : List StaticNodeGroup) -- replaces the shared snapshot
  | snapshot
  | target (group : String)
  | setTarget (req : CapacityRequest)
  | removeNodes (req : NodeRemovalRequest)
  | verifyNode (name providerId : String)
  | context -- ctx.Err()
  | backoff (attempt : ℕ) -- the retry timer, or the end of the context
  | uuid
  | respond (out : Except Code Unit) -- the answer to the autoscaler
deriving DecidableEq

abbrev Query.Answer : Query → Type
  | .discover => Response (List AutoscalerGroup)
  | .install _ => Unit
  | .snapshot => List StaticNodeGroup
  | .target _ => Response CapacityResult
  | .setTarget _ => Response CapacityResult
  | .removeNodes _ => Response Unit
  | .verifyNode _ _ => Option Code
  | .context => Option Code
  | .backoff _ => Option Code
  | .uuid => String
  | .respond _ => Unit

abbrev Adapter := Prog Query Query.Answer

def ask (q : Query) : Adapter q.Answer := .ask q .ret

/-- go on with the result of `p`, or return its error -/
def andThen {α β : Type} (p : Adapter (Except Code α)) (f : α → Adapter (Except Code β)) : Adapter (Except Code β) := do
  match ← p with
  | .error c => return .error c
  | .ok a => f a

/-- the fixed part of a server: its cluster, and whether it discovers its groups and verifies nodes -/
structure Server where
  clusterId : String
  discovers : Bool
  verifies : Bool

def refresh (s : Server) : Adapter (Except Code Unit) := do
  if s.discovers = false then return .ok ()
  match HTTPClient.discover s.clusterId (← ask .discover) with
  | .error c => return .error c
  | .ok d =>
    match discoveredGroups d with
    | .error c => return .error c
    | .ok groups =>
      if groups.any fun g => g.clusterId ≠ s.clusterId then return .error .internal
      ask (.install groups)
      return .ok ()

def group (id : String) : Adapter (Except Code StaticNodeGroup) := do
  match (← ask .snapshot).find? fun g => g.id = id with
  | none => return .error .notFound
  | some g => return .ok g

def readTarget (id : String) : Adapter (Except Code CapacityResult) := do
  return HTTPClient.target id (← ask (.target id))

/-- one attempt: an outage goes on with `again`, everything else is returned -/
def attempt (call again : Adapter (Except Code Unit)) : Adapter (Except Code Unit) := do
  match ← ask .context with
  | some c => return .error c
  | none =>
    match ← call with
    | .error .unavailable => again
    | r => return r

/-- the retry loop with `left` attempts after this one; never rebases or changes an intent after a lost response -/
def retry (call : Adapter (Except Code Unit)) : ℕ → Adapter (Except Code Unit)
  | 0 => attempt call (.ret (.error .unavailable))
  | left + 1 => attempt call do
    match ← ask (.backoff (1 - left)) with
    | some c => return .error c
    | none => retry call left

def submit (req : CapacityRequest) : Adapter (Except Code Unit) := do
  return (HTTPClient.setTarget req (← ask (.setTarget req))).map fun _ => ()

def changeTarget (s : Server) (id : String) (delta : Int32) : Adapter (Except Code Unit) :=
  andThen (refresh s) fun _ => andThen (group id) fun g => andThen (readTarget id) fun target => do
    if target.targetNodes < 0 ∨ maxInt32 < target.targetNodes ∨ target.targetRevision < 0 then return .error .internal
    let desired := wrap64 (target.targetNodes + delta.toInt)
    if desired < g.minNodes ∨ g.maxNodes < desired then return .error .outOfRange
    let requestId ← ask .uuid
    retry (submit ⟨id, requestId, s.clusterId, target.targetRevision, desired, g.templateRevision⟩) 2

def nodeGroupIncreaseSize (s : Server) (id : String) (delta : Int32) : Adapter (Except Code Unit) :=
  if delta ≤ 0 then .ret (.error .invalidArgument) else changeTarget s id delta

def nodeGroupDecreaseTargetSize (s : Server) (id : String) (delta : Int32) : Adapter (Except Code Unit) :=
  if 0 ≤ delta then .ret (.error .invalidArgument) else changeTarget s id delta

/-- the inventory entry of a node the autoscaler names -/
def matchNode (s : Server) (g : StaticNodeGroup) (name providerId : String) : Option Node :=
  g.nodes.find? fun known => known.providerId = providerId && (s.verifies || known.name = name)

/-- the loop over the named nodes, given as (name, provider ID), with the hosts met so far -/
def removalNodes (s : Server) (g : StaticNodeGroup) (seen : List String) :
    List (String × String) → Adapter (Except Code (List RemovalNode))
  | [] => .ret (.ok [])
  | (name, providerId) :: rest => do
    match matchNode s g name providerId with
    | none => return .error .invalidArgument
    | some known =>
      if known.hostId ∈ seen then return .error .invalidArgument
      let refused ← if s.verifies then ask (.verifyNode name providerId) else .ret none
      match refused with
      | some c => return .error c
      | none =>
        andThen (removalNodes s g (known.hostId :: seen) rest) fun nodes =>
          .ret (.ok (⟨known.hostId, known.name, known.providerId⟩ :: nodes))

def nodeGroupDeleteNodes (s : Server) (id : String) (nodes : List (String × String)) : Adapter (Except Code Unit) :=
  andThen (group id) fun g => do
    if nodes = [] then return .error .invalidArgument
    let requestId ← ask .uuid
    andThen (removalNodes s g [] nodes) fun named => andThen (readTarget g.id) fun target =>
      retry (do return (← ask (.removeNodes ⟨g.id, requestId, target.targetRevision, named⟩)).accepted) 2

end Crane.Autoscaler
