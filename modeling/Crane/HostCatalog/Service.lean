/-
The host catalog's own lifecycle (`internal/hostcatalog`) and the actions that use it (`internal/execute/executor.go`).

Every operation is a program over single statements and provider calls: each statement commits by itself, so anything may
happen between the guard `EnsureLegacyLifecycle`, the read and the write. The hosts are the rows that the capacity store
also works on; `Act.fleet` are its steps. Of provider calls only the termination of an instance and the ID of a new one
matter here; load balancers and databases are answered by success or failure.
-/
import Crane.Capacity.Controller

namespace Crane.HostCatalog

open Capacity (Host Delivery)

inductive Err where
  | badConn | noRows | managedCapacity | protectedHost | hostNotFound | invalidNextState | provider
deriving DecidableEq, Repr

def Err.message : Err → String
  | .badConn => "driver: bad connection"
  | .noRows => "sql: no rows in result set"
  | .managedCapacity => "capacity-managed host requires a fenced durable operation"
  | .protectedHost => "protected host cannot be changed by automatic lifecycle operations"
  | .hostNotFound => "Host not found"
  | .invalidNextState => "Not a valid next state"
  | .provider => "provider call failed"

def getValidNextStates : HostState → List HostState
  | .requested => [.provisioning, .terminated, .failed]
  | .provisioning => [.booting, .failed]
  | .booting => [.registering, .failed]
  | .registering => [.converging, .failed]
  | .converging => [.ready, .failed]
  | .ready => [.draining, .unhealthy]
  | .draining => [.unhealthy, .terminating]
  | .terminating => [.terminated, .failed]
  | .unhealthy => [.ready, .terminated]
  | .terminated => []
  | .failed => []

/-! ## Programs -/

inductive Query where
  | lifecycle (id : String) -- SELECT node_group_id IS NOT NULL, protected
  | getByID (id : String)
  | updateState (id : String) (state : HostState)
  | updateProviderID (id providerId : String)
  | delete (id : String)
  | uuid
  | create (h : Host)
  | updateDBConnectionInfo (id : String) -- none of its columns matters here
  | provisionHost (id : String)
  | terminateHost (providerId : String)
  | provide -- a load balancer, a database or its targets
deriving DecidableEq

/-- a statement fails, or answers with its row if it reads one -/
abbrev Query.Answer : Query → Type
  | .lifecycle _ => Option (Option (Bool × Bool))
  | .getByID _ => Option Host
  | .uuid => String
  | .provisionHost _ => Option String
  | _ => Bool

abbrev Legacy := Prog Query Query.Answer

def ask (q : Query) : Legacy q.Answer := .ask q .ret

/-- go on, or return the error -/
def andThen {α β : Type} (p : Legacy (Except Err α)) (f : α → Legacy (Except Err β)) : Legacy (Except Err β) := do
  match ← p with
  | .error e => return .error e
  | .ok a => f a

/-- a write or a provider call that only succeeds or fails -/
def must (ok : Bool) (e : Err) : Except Err Unit := if ok then .ok () else .error e

/-- keeps the legacy action queue from becoming a second lifecycle authority for admitted hosts -/
def ensureLegacyLifecycle (id : String) : Legacy (Except Err Unit) := do
  match ← ask (.lifecycle id) with
  | none => return .error .badConn
  | some none => return .error .noRows
  | some (some (managed, guarded)) =>
    if guarded then return .error .protectedHost
    else if managed then return .error .managedCapacity
    else return .ok ()

def transitionState (id : String) (newState : HostState) : Legacy (Except Err Unit) :=
  andThen (ensureLegacyLifecycle id) fun _ => do
    match ← ask (.getByID id) with
    | none => return .error .hostNotFound
    | some host =>
      if newState ∈ getValidNextStates host.state then return must (← ask (.updateState id newState)) .badConn
      else return .error .invalidNextState

def updateState (id : String) (newState : HostState) : Legacy (Except Err Unit) :=
  andThen (ensureLegacyLifecycle id) fun _ => do return must (← ask (.updateState id newState)) .badConn

def updateHostProviderID (id providerId : String) : Legacy (Except Err Unit) :=
  andThen (ensureLegacyLifecycle id) fun _ => do return must (← ask (.updateProviderID id providerId)) .badConn

def deleteHost (id : String) : Legacy (Except Err Unit) :=
  andThen (ensureLegacyLifecycle id) fun _ => do return must (← ask (.delete id)) .badConn

/-- the row of CreateHost -/
def createdHost (id provider : String) : Host :=
  { id := id, provider := provider, providerId := some "", zone := "us-west-2", state := .provisioning }

def createHost (provider : String) : Legacy (Except Err String) := do
  let id ← ask .uuid
  return (must (← ask (.create (createdHost id provider))) .badConn).map fun _ => id

inductive ActionType where
  | createHost | drainHost | replaceHost | createLB | createDB | createSpireInstance
deriving DecidableEq, Repr

structure Action where
  hostId : String
  type : ActionType
deriving DecidableEq, Repr

/-- DefaultExecutor.Execute -/
def execute (a : Action) : Legacy (Except Err Unit) :=
  match a.type with
  | .createHost => andThen (createHost "aws") fun hostId => do
    match ← ask (.provisionHost hostId) with
    | none => return .error .provider
    | some providerId => updateHostProviderID hostId providerId
  | .drainHost => andThen (ensureLegacyLifecycle a.hostId) fun _ => transitionState a.hostId .draining
  | .replaceHost => andThen (ensureLegacyLifecycle a.hostId) fun _ => do
    match ← ask (.getByID a.hostId) with
    | none => return .error .noRows
    | some host =>
      if ← ask (.terminateHost (host.providerId.getD "")) then transitionState a.hostId .unhealthy
      else return .error .provider
  | .createLB => do return must (← ask .provide) .provider
  | .createDB => andThen (createHost "aws") fun hostId => do
    if ← ask .provide then
      if ← ask (.updateDBConnectionInfo hostId) then updateState hostId .ready else return .error .badConn
    else return .error .provider
  | .createSpireInstance => andThen (createHost "aws") fun hostId => do
    if ← ask .provide then
      if ← ask (.updateDBConnectionInfo hostId) then
        if ← ask .provide then
          match ← ask (.provisionHost hostId) with
          | none => return .error .provider
          | some providerId =>
            if ← ask .provide then updateHostProviderID hostId providerId else return .error .provider
        else return .error .provider
      else return .error .badConn
    else return .error .provider

/-- the operations of the legacy lifecycle -/
inductive Op where
  | transitionState (id : String) (newState : HostState)
  | updateState (id : String) (newState : HostState)
  | updateHostProviderID (id providerId : String)
  | deleteHost (id : String)
  | execute (a : Action)
deriving DecidableEq

def Op.prog : Op → Legacy (Except Err Unit)
  | .transitionState id s => HostCatalog.transitionState id s
  | .updateState id s => HostCatalog.updateState id s
  | .updateHostProviderID id p => HostCatalog.updateHostProviderID id p
  | .deleteHost id => HostCatalog.deleteHost id
  | .execute a => HostCatalog.execute a

/-! ## The system -/

/-- a running call; `read` records the state of the host it read last -/
structure Call where
  op : Op
  read : Option HostState := none
  prog : Legacy (Except Err Unit)

/-- `terminated` are the instances whose termination was requested -/
structure State where
  fleet : Capacity.St
  calls : ℕ → Option Call
  terminated : List String

/-- the rows of the host table -/
abbrev State.hosts (s : State) : Table Host.id := s.fleet.db.hosts

def State.withHosts (s : State) (t : Table Host.id) : State :=
  { s with fleet := { s.fleet with db := { s.fleet.db with hosts := t } } }

@[simp] theorem State.withHosts_hosts (s : State) (t : Table Host.id) : (s.withHosts t).hosts = t := rfl

/-- what the outside contributes to one request -/
structure Answers where
  delivery : Delivery := .answered
  uuid : String := ""
  launched : Option String := none

inductive Act where
  | fleet (a : Capacity.Act)
  | call (n : ℕ) (op : Op)
  | ask (n : ℕ) (a : Answers)
  | crash (n : ℕ)

/-- a statement's answer, if it arrives -/
def read {α : Type} (a : Answers) (x : α) : Option α := if a.delivery = .answered then some x else none

def setState (new : HostState) (h : Host) : Host := { h with state := new }

def setProviderID (p : String) (h : Host) : Host := { h with providerId := some p }

/-- UPDATE host SET ... WHERE id -/
def State.update (s : State) (id : String) (f : Host → Host) : Table Host.id :=
  match s.hosts.find id with
  | none => s.hosts
  | some h => s.hosts.put (f h)

theorem State.find_update (s : State) (id : String) (f : Host → Host) (hf : ∀ h, (f h).id = h.id) (i : String) :
    (s.update id f).find i = if id = i then (s.hosts.find id).map f else s.hosts.find i := by
  unfold State.update
  cases h : s.hosts.find id with
  | none =>
    by_cases hi : id = i
    · simp [← hi, h]
    · simp [hi]
  | some g => rw [Table.find_put, hf, Table.key_of_find h, Option.map_some]

/-- a standalone write: it may fail, and it may take effect without an answer -/
def State.write (s : State) (a : Answers) (s' : State) : State × Bool :=
  if a.delivery = .failed then (s, false) else (s', decide (a.delivery = .answered))

def State.exec (s : State) (a : Answers) : (q : Query) → State × q.Answer
  | .lifecycle id => (s, read a ((s.hosts.find id).map fun h => (h.nodeGroupId.isSome, h.isProtected)))
  | .getByID id => (s, (read a (s.hosts.find id)).join)
  | .updateState id new => s.write a (s.withHosts (s.update id (setState new)))
  | .updateProviderID id p => s.write a (s.withHosts (s.update id (setProviderID p)))
  | .delete id => s.write a (s.withHosts (s.hosts.remove id))
  | .uuid => (s, a.uuid)
  | .create h =>
    if (s.hosts.find h.id).isSome then (s, false) else s.write a (s.withHosts (s.hosts.put h))
  | .updateDBConnectionInfo _ => (s, decide (a.delivery = .answered))
  | .provisionHost _ => (s, a.launched)
  | .terminateHost p => s.write a { s with terminated := p :: s.terminated }
  | .provide => (s, decide (a.delivery = .answered))

/-- the state a call has read, after this request -/
def readAfter (old : Option HostState) : (q : Query) → q.Answer → Option HostState
  | .getByID _, some h => some h.state
  | _, _ => old

/-- call `n` goes on as `c` -/
def State.continue (s : State) (n : ℕ) (c : Call) : State := { s with calls := Function.update s.calls n (some c) }

section Step
variable (w : Capacity.World)

def State.step (s : State) : Act → State
  | .fleet a => { s with fleet := s.fleet.step w a }
  | .call n op => match s.calls n with
    | some _ => s
    | none => s.continue n { op := op, prog := op.prog }
  | .ask n a => match s.calls n with
    | some ⟨op, seen, .ask q k⟩ =>
      let r := s.exec a q
      r.1.continue n ⟨op, readAfter seen q r.2, k r.2⟩
    | _ => s
  | .crash n => match s.calls n with
    | some c => s.continue n { c with prog := .stop }
    | none => s

def State.run (s : State) (acts : List Act) : State := acts.foldl (State.step w) s

end Step

end Crane.HostCatalog
