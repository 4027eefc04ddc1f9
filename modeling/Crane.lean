import Crane.Lib.Json
import Crane.Lib.Table
import Crane.Lib.Tx
import Crane.Lib.Interleave
import Crane.Lib.Session
import Crane.Lib.Remote
import Crane.Lib.Service
import Crane.Lib.Sequences
import Crane.Lib.Base64
import Crane.Lib.Codec
import Crane.Lib.Shell
import Crane.Lib.Regex
import Crane.Lib.Secret
import Crane.Api
import Crane.Validation
import Crane.Provider.Launch
import Crane.Capacity.Schema
import Crane.Capacity.Admission
import Crane.Capacity.Operations
import Crane.Capacity.Handoff
import Crane.Capacity.Removals
import Crane.Capacity.Calls
import Crane.Capacity.Writes
import Crane.Capacity.Groups
import Crane.Capacity.ClusterOperations
import Crane.Capacity.Views
import Crane.Capacity.Lifecycle
import Crane.Capacity.Intents
import Crane.Capacity.Admissions
import Crane.Capacity.Effects
import Crane.Capacity.Fencing
import Crane.Capacity.Controller
import Crane.Capacity.Sessions
import Crane.Capacity.System
import Crane.Capacity.Agreement
import Crane.Capacity.GivenBack
import Crane.Capacity.Machines
import Crane.Capacity.Targets
import Crane.Capacity.Concurrent
import Crane.Capacity.Pools
import Crane.Capacity.History
import Crane.Capacity.Readiness
import Crane.Subd.Server
import Crane.Subd.Revisions
import Crane.Subd.Joins
import Crane.Subd.Refusals
import Crane.Lib.Versions
import Crane.Subd.Kubernetes
import Crane.Subd.Enforcement
import Crane.Subd.WorkerJoin
import Crane.Subd.Persistence
import Crane.Autoscaler.Adapter
import Crane.Autoscaler.Scaling
import Crane.Autoscaler.ScaleDown
import Crane.Autoscaler.Templates
import Crane.Dominator.Policy
import Crane.Dominator.WorkerNode
import Crane.Dominator.WorkerCsr
import Crane.HostOperations.Controller
import Crane.HostOperations.Secrets
import Crane.HostCatalog.Service
import Crane.HostCatalog.Lifecycle
import Crane.HostCatalog.Replacement
import Crane.Execute.Queue
import Crane.Execute.Worker
import Crane.Logging.Redact
import Crane.Logging.Rules
import Crane.Logging.Passwords
import Crane.Logging.Spellings
import Crane.Topology.Catalog
import Crane.Topology.Seed
import Crane.Topology.Bootstrap
import Crane.Topology.Runs
import Crane.Topology.Phases
import Crane.Topology.Alone
import Crane.Topology.Parameters
import Crane.ActivityManager.ProblemCache
import Crane.ActivityManager.Manager
import Crane.BadHost.Detector
import Crane.Bootstrap.Config
import Crane.Bootstrap.Aws
import Crane.Bootstrap.SecurityGroups
import Crane.Bootstrap.Settings
import Crane.Bootstrap.Seeding
import Crane.Bootstrap.Runner
import Crane.Bootstrap.Scripts
