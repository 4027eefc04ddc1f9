/-
The worker's Node (`internal/dominator/provisioner.go`): what a registered Node must look like (`validateWorkerNode`), how
it is verified without binding it (`ensureNodeIdentity`), and the release of its quarantine (`Release`).

A label or annotation that is missing reads as the empty text. Of a Node only what these functions read or write is kept.
Release filters the taints in place, so the slice that it reads is the one that it writes. No template may contain the
provisioning taint; so what Release takes away is never what the registration asks for, and the only thing that the
released Node lacks is the quarantine, which counts only before the release was started.
-/
import Crane.Lib.Sequences
import Crane.Validation

namespace Crane.Dominator

open Sequences (filterInPlace filterInPlace_eq)

/-! ## Nodes -/

structure NodeAddress where
  type : String
  address : String
deriving DecidableEq, Repr

structure Node where
  name : String
  uid : String
  labels : List (String × String)
  annotations : List (String × String)
  providerId : String
  unschedulable : Bool
  taints : List SchedulingTaint
  addresses : List NodeAddress
deriving DecidableEq, Repr

inductive NodeError where
  | identity | address | label | taint | quarantine | released
deriving DecidableEq, Repr

def NodeError.message : NodeError → String
  | .identity => "worker provider identity drift"
  | .address => "worker address conflicts with provider"
  | .label => "worker scheduling label drift"
  | .taint => "worker template taint drift"
  | .quarantine => "worker quarantine drift"
  | .released => "worker provisioning quarantine missing"

/-- the taint that keeps workloads off a node until its handoff -/
def quarantine : SchedulingTaint := ⟨provisioningTaint, "pending", "NoSchedule"⟩

def validateWorkerNode (node : Node) (reg : WorkerRegistration) (ip : String) (releasing : Bool) :
    Except NodeError Unit :=
  let labels := schedulingLabels reg.scheduling reg.nodePoolId
  if node.name ≠ reg.nodeName ∨ node.providerId ≠ reg.providerId then .error .identity
  else if ∀ a ∈ node.addresses, ¬(a.type = "InternalIP" ∧ a.address = ip) then .error .address
  else if ∃ key ∈ labelKeys labels, labelOf node.labels key ≠ labelOf labels key then .error .label
  else if ∃ want ∈ reg.scheduling.taints, ∀ got ∈ node.taints,
      ¬(got.key = want.key ∧ got.effect = want.effect ∧ got.value = want.value) then .error .taint
  else if ∃ got ∈ node.taints, got.key = provisioningTaint ∧ (got.value ≠ "pending" ∨ got.effect ≠ "NoSchedule") then
    .error .quarantine
  else if (∀ got ∈ node.taints, got.key ≠ provisioningTaint) ∧ releasing = false then .error .released
  else .ok ()

/-- the node that Release writes -/
def Node.release (node : Node) : Node :=
  { node with taints := filterInPlace (fun t => decide (t.key ≠ provisioningTaint)) node.taints }

/-! ## Identity -/

/-- the answer to a membership challenge -/
structure MembershipProof where
  nodeName : String
  nodeUid : String
  contractHash : String
deriving DecidableEq, Repr

/-- capacity.ProvisionBinding -/
structure ProvisionBinding where
  nodeName : String
  nodeUid : String
  providerId : String
  contractHash : String
  releaseStarted : Bool
deriving DecidableEq, Repr

/-- the annotations by which a Node belongs to its operation -/
def ownership (op : Operation) (hostId contractHash : String) : List (String × String) :=
  [("crane.io/host-id", hostId), ("crane.io/cluster-id", op.clusterId), ("crane.io/node-group-id", op.nodeGroupId),
    ("crane.io/node-pool-id", op.nodePoolId), ("crane.io/operation-id", op.id),
    ("crane.io/template-revision", op.templateRevision), ("crane.io/registration-contract", contractHash)]

inductive IdentityError where
  | uid | binding | node (e : NodeError) | ownershipDrift
deriving DecidableEq, Repr

def IdentityError.message : IdentityError → String
  | .uid => "worker Node UID conflicts with authenticated membership"
  | .binding => "worker identity conflicts with durable Node binding"
  | .node e => e.message
  | .ownershipDrift => "worker ownership annotation drift"

/-- ensureNodeIdentity for a bound worker, on what its calls returned -/
def ensureNodeIdentity (op : Operation) (hostId ip : String) (proof : MembershipProof) (reg : WorkerRegistration)
    (binding : ProvisionBinding) (node : Node) : Except IdentityError Unit :=
  if node.uid ≠ proof.nodeUid then .error .uid
  else if binding.nodeUid ≠ proof.nodeUid ∨ binding.nodeName ≠ proof.nodeName ∨ binding.providerId ≠ reg.providerId ∨
      binding.contractHash ≠ proof.contractHash then .error .binding
  else match validateWorkerNode node reg ip binding.releaseStarted with
    | .error e => .error (.node e)
    | .ok () =>
      if ∃ a ∈ ownership op hostId proof.contractHash, labelOf node.annotations a.1 ≠ a.2 then .error .ownershipDrift
      else .ok ()

/-! ## Validity -/

/-- what a node that passes has -/
structure Valid (node : Node) (reg : WorkerRegistration) (ip : String) : Prop where
  identity : node.name = reg.nodeName ∧ node.providerId = reg.providerId
  address : ⟨"InternalIP", ip⟩ ∈ node.addresses
  labels : ∀ key ∈ labelKeys (schedulingLabels reg.scheduling reg.nodePoolId),
    labelOf node.labels key = labelOf (schedulingLabels reg.scheduling reg.nodePoolId) key
  taints : ∀ want ∈ reg.scheduling.taints, want ∈ node.taints
  quarantine : ∀ got ∈ node.taints, got.key = provisioningTaint → got = Dominator.quarantine

section Valid
variable {node : Node} {reg : WorkerRegistration} {ip : String} {releasing : Bool}

theorem validateWorkerNode_ok : validateWorkerNode node reg ip releasing = .ok () ↔
    Valid node reg ip ∧ (releasing = true ∨ ∃ got ∈ node.taints, got.key = provisioningTaint) := by
  have htaint : ∀ got want : SchedulingTaint,
      got.key = want.key ∧ got.effect = want.effect ∧ got.value = want.value ↔ got = want := by
    intro got want
    cases got
    cases want
    simp only [SchedulingTaint.mk.injEq]
    tauto
  have haddress : ∀ a : NodeAddress, a.type = "InternalIP" ∧ a.address = ip ↔ a = ⟨"InternalIP", ip⟩ := by
    intro a
    cases a
    simp
  simp only [validateWorkerNode, htaint, haddress]
  split_ifs with hid haddr hlabel hmissing hdrift hreleased
  all_goals simp only [false_iff, true_iff]
  · exact fun h => hid.elim (· h.1.identity.1) (· h.1.identity.2)
  · exact fun h => haddr _ h.1.address rfl
  · obtain ⟨key, hkey, hne⟩ := hlabel
    exact fun h => hne (h.1.labels key hkey)
  · obtain ⟨want, hwant, hne⟩ := hmissing
    exact fun h => hne want (h.1.taints want hwant) rfl
  · obtain ⟨got, hgot, hkey, hne⟩ := hdrift
    intro h
    have hq := h.1.quarantine got hgot hkey
    simp [hq, quarantine] at hne
  · rintro ⟨-, hr | ⟨got, hgot, hkey⟩⟩
    · simp [hr] at hreleased
    · exact hreleased.1 got hgot hkey
  · push Not at hid haddr hlabel hmissing hdrift hreleased
    obtain ⟨a, ha, rfl⟩ := haddr
    refine ⟨⟨hid, ha, hlabel, fun want hwant => ?_, fun got hgot hkey => ?_⟩, ?_⟩
    · obtain ⟨got, hgot, rfl⟩ := hmissing want hwant
      exact hgot
    · obtain ⟨hvalue, heffect⟩ := hdrift got hgot hkey
      exact (htaint got quarantine).mp ⟨hkey, heffect, hvalue⟩
    · by_cases hq : ∀ got ∈ node.taints, got.key ≠ provisioningTaint
      · exact .inl (by simpa using hreleased hq)
      · push Not at hq
        exact .inr hq

/-- a valid template does not ask for the quarantine -/
theorem template_taint {w : String → String} (h : reg.validate w = true) {t : SchedulingTaint}
    (ht : t ∈ reg.scheduling.taints) : t.key ≠ provisioningTaint := by
  simp only [WorkerRegistration.validate, validateScheduling, Bool.and_eq_true, List.all_eq_true] at h
  have := h.2.1.2 t ht
  simp only [validateTaint, Bool.and_eq_true, decide_eq_true_eq] at this
  exact this.1.1.1

theorem mem_release {t : SchedulingTaint} : t ∈ node.release.taints ↔ t ∈ node.taints ∧ t.key ≠ provisioningTaint := by
  simp [Node.release, filterInPlace_eq]

/-- the released node is valid, apart from the quarantine -/
theorem Valid.release {w : String → String} (hreg : reg.validate w = true) (h : Valid node reg ip) :
    Valid node.release reg ip where
  identity := h.identity
  address := h.address
  labels := h.labels
  taints want hwant := mem_release.mpr ⟨h.taints want hwant, template_taint hreg hwant⟩
  quarantine _ hgot hkey := absurd hkey (mem_release.mp hgot).2

/-- without its quarantine a node passes only after the release was started -/
theorem not_valid_of_released (h : ∀ t ∈ node.taints, t.key ≠ provisioningTaint) :
    validateWorkerNode node reg ip false ≠ .ok () := by
  rw [Ne, validateWorkerNode_ok]
  rintro ⟨-, hr | ⟨got, hgot, hkey⟩⟩
  · cases hr
  · exact h got hgot hkey

end Valid

/-! ## Release -/

/-- what is left of a node after its release -/
structure Released (node : Node) (reg : WorkerRegistration) (ip : String) : Prop where
  /-- every other taint stays, unchanged and in order -/
  taints : node.release.taints = node.taints.filter fun t => decide (t.key ≠ provisioningTaint)
  /-- and so do the cordon flag, the labels, the annotations and all the rest -/
  rest : node.release = { node with taints := node.release.taints }
  again : validateWorkerNode node.release reg ip true = .ok ()
  once : validateWorkerNode node.release reg ip false ≠ .ok ()
  /-- whoever takes the handoff over finds the node verified, since the start of the release is durable -/
  recovered : ∀ op hostId proof binding, ensureNodeIdentity op hostId ip proof reg binding node = .ok () →
    ensureNodeIdentity op hostId ip proof reg { binding with releaseStarted := true } node.release = .ok ()
  /-- but a quarantine that went away before is never accepted -/
  missing : ∀ node' op hostId proof binding, (∀ t ∈ node'.taints, t.key ≠ provisioningTaint) →
    binding.releaseStarted = false → validateWorkerNode node' reg ip false ≠ .ok () ∧
      ensureNodeIdentity op hostId ip proof reg binding node' ≠ .ok ()

section Release
variable {node : Node} {reg : WorkerRegistration} {op : Operation} {hostId ip : String} {proof : MembershipProof}
  {binding : ProvisionBinding}

theorem ensureNodeIdentity_ok : ensureNodeIdentity op hostId ip proof reg binding node = .ok () ↔
    node.uid = proof.nodeUid ∧ (binding.nodeUid = proof.nodeUid ∧ binding.nodeName = proof.nodeName ∧
      binding.providerId = reg.providerId ∧ binding.contractHash = proof.contractHash) ∧
    validateWorkerNode node reg ip binding.releaseStarted = .ok () ∧
    ∀ a ∈ ownership op hostId proof.contractHash, labelOf node.annotations a.1 = a.2 := by
  unfold ensureNodeIdentity
  cases validateWorkerNode node reg ip binding.releaseStarted with
  | error e => split_ifs <;> simp
  | ok u =>
    split_ifs with huid hbinding hnote
    · simp [huid]
    · simp only [false_iff]
      tauto
    · obtain ⟨a, ha, hne⟩ := hnote
      simp only [false_iff]
      exact fun h => hne (h.2.2.2 a ha)
    · push Not at huid hbinding hnote
      exact ⟨fun _ => ⟨huid, hbinding, rfl, hnote⟩, fun _ => rfl⟩

/-- **Quarantine release is precise and recoverable.** For every valid registration and every node that passes. -/
theorem release_recoverable {w : String → String} {releasing : Bool} (hreg : reg.validate w = true)
    (h : validateWorkerNode node reg ip releasing = .ok ()) : Released node reg ip := by
  have hvalid := (validateWorkerNode_ok.mp h).1.release hreg
  have hagain : validateWorkerNode node.release reg ip true = .ok () := validateWorkerNode_ok.mpr ⟨hvalid, .inl rfl⟩
  refine ⟨filterInPlace_eq _ _, rfl, hagain, not_valid_of_released fun t ht => (mem_release.mp ht).2, ?_, ?_⟩
  · intro op hostId proof binding hok
    obtain ⟨huid, hbinding, -, hnotes⟩ := ensureNodeIdentity_ok.mp hok
    exact ensureNodeIdentity_ok.mpr ⟨huid, hbinding, hagain, hnotes⟩
  · intro node' op hostId proof binding hfree hstarted
    have hnot : validateWorkerNode node' reg ip false ≠ .ok () := not_valid_of_released hfree
    exact ⟨hnot, fun hok => hnot (hstarted ▸ (ensureNodeIdentity_ok.mp hok).2.2.1)⟩

end Release

namespace Sample

def registration : WorkerRegistration where
  clusterId := "c"
  hostId := "h"
  nodeGroupId := "g"
  nodePoolId := "shared"
  templateRevision := "t1"
  nodeName := "worker"
  providerId := "provider:///native/instance"
  scheduling := { architecture := "amd64", region := "region", zone := "zone", instanceType := "machine",
                  taints := [⟨"workload", "batch", "NoSchedule"⟩] }

/-- a cordoned worker before its handoff -/
def worker : Node where
  name := "worker"
  uid := "uid"
  labels := schedulingLabels registration.scheduling "shared"
  annotations := []
  providerId := "provider:///native/instance"
  unschedulable := true
  taints := [quarantine, ⟨"workload", "batch", "NoSchedule"⟩]
  addresses := [⟨"InternalIP", "10.0.0.8"⟩]

theorem release_recoverable_worker : Released worker registration "10.0.0.8" :=
  release_recoverable (w := fun _ => "worker") (by decide +kernel) (show validateWorkerNode _ _ _ false = _ by decide +kernel)

end Sample

end Crane.Dominator
