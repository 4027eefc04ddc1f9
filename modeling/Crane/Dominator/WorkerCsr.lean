/-
The approval of a worker's certificate request (`internal/dominator/worker_csr.go`).

While a host joins its cluster, the Dominator lists the certificate requests again and again and approves those that were
made with the host's temporary token. Others make, decide and delete requests meanwhile, and answers may be lost.
The API server takes an approval only for the version that was listed, so what is approved is what was checked.

Of a request's PEM block the model has what crypto/x509 reads from it, if it reads it.
-/
import Crane.Lib.Remote
import Crane.Lib.Versions
import Mathlib.Data.List.Dedup

namespace Crane.Dominator.WorkerCsr

open Remote
open Versions (Store find find_unique)

structure CertificateRequest where
  signatureChecks : Bool
  commonName : String
  organization : List String
  /-- DNS names, IP addresses, email addresses and URIs -/
  names : List String

/-- type, status, reason and message -/
abbrev Condition := String × String × String × String

structure CertificateSigningRequest where
  username : String
  signerName : String
  groups : List String
  request : Option CertificateRequest
  usages : List String
  conditions : List Condition

abbrev Csr := CertificateSigningRequest

def validWorkerCSR (csr : Csr) (tokenId nodeName : String) : Bool :=
  csr.username = "system:bootstrap:" ++ tokenId && csr.signerName = "kubernetes.io/kube-apiserver-client-kubelet" &&
    csr.groups.contains "system:bootstrappers:crane" &&
    csr.request.any (fun req => req.signatureChecks && req.commonName = "system:node:" ++ nodeName &&
      req.organization = ["system:nodes"] && req.names = []) &&
    csr.usages.contains "client auth" && csr.usages.contains "digital signature" &&
    csr.usages.all fun u => u = "client auth" || u = "digital signature" || u = "key encipherment"

def Csr.approved (csr : Csr) : Csr :=
  { csr with conditions := [("Approved", "True", "CraneWorkerJoin", "Private host join contract verified")] }

/-! ## The loop -/

variable (tokenId nodeName : String)

inductive Fault where
  | cancelled -- the context is done
  | failed (message : String)

inductive Request where
  | tick
  | checkProvisionLease
  | list
  | updateApproval (name : String) (version : ℕ) (csr : Csr)

@[reducible] def Request.Value : Request → Type
  | .list => List (String × ℕ × Csr)
  | _ => Unit

abbrev Loop := Prog Request (fun q => Except Fault q.Value) (Except String Unit)

/-- a loop whose context is done has not failed -/
def giveUp (f : Fault) (message : String → String) : Loop := match f with
  | .cancelled => .ret (.ok ())
  | .failed e => .ret (.error (message e))

def approveItems (next : Loop) : List (String × ℕ × Csr) → Loop
  | [] => next
  | (name, version, csr) :: items =>
    if csr.username ≠ "system:bootstrap:" ++ tokenId then approveItems next items
    else if validWorkerCSR csr tokenId nodeName = false then
      .ret (.error "worker certificate request conflicts with join contract")
    else if csr.conditions.length ≠ 0 then approveItems next items
    else .ask (.updateApproval name version csr.approved) fun r => match r with
      | .error f => giveUp f fun _ => "cannot approve worker certificate request"
      | .ok () => approveItems next items

/-- approveWorkerCSRs for at most `n` ticks -/
def approveWorkerCSRs : ℕ → Loop
  | 0 => .stop
  | n + 1 => .ask .tick fun r => match r with
    | .error _ => .ret (.ok ())
    | .ok () => .ask .checkProvisionLease fun r => match r with
      | .error f => giveUp f id
      | .ok () => .ask .list fun r => match r with
        | .error f => giveUp f fun _ => "cannot inspect worker certificate requests"
        | .ok items => approveItems tokenId nodeName (approveWorkerCSRs n) items

/-! ## The store and the API server -/

/-- an approval that the API server has taken -/
structure Approval where
  before : Csr
  after : Csr
  /-- whether the last check of the lease had found it held -/
  leased : Bool

structure Server where
  store : Store String Csr
  held : Bool := false
  leased : Bool := false
  approvals : List Approval := []

def serve : (q : Request) → Server → Except Fault q.Value × Server
  | .tick, s => (.ok (), s)
  | .checkProvisionLease, s =>
    (if s.held then .ok () else .error (.failed "operation lease expired or controller fenced"), { s with leased := s.held })
  | .list, s => (.ok ((s.store.map Prod.fst).dedup.filterMap fun name => (find name s.store).map (name, ·)), s)
  | .updateApproval name version csr, s => match find name s.store with
    | none => (.error (.failed "not found"), s)
    | some (v, old) =>
      if v ≠ version then (.error (.failed "conflict"), s)
      else (.ok (), { s with store := (name, some csr) :: s.store, approvals := ⟨old, csr, s.leased⟩ :: s.approvals })

/-- others write, and take or lose the lease -/
def server : Remote Request Request.Value Fault (Store String Csr × Bool) Fault Server where
  serve := serve
  others o s := { s with store := o.1 ++ s.store, held := o.2 }
  error := id

/-- the request was undecided, conforms to the join contract, and got nothing but the approval -/
def Conforms (a : Approval) : Prop :=
  a.leased = true ∧ a.before.conditions = [] ∧ validWorkerCSR a.before tokenId nodeName = true ∧ a.after = a.before.approved

/-- an approval conforms whatever its version names, now or later -/
def Checked : Request → Server → Prop
  | .updateApproval name version csr, s =>
    ∀ old t, s.store <:+ t → find name t = some (version, old) → Conforms tokenId nodeName ⟨old, csr, s.leased⟩
  | _, _ => True

/-! ## Approvals -/

abbrev Guarded (p : Loop) (s : Server) : Prop :=
  SafeTo (server.rules (Checked tokenId nodeName)) (fun _ _ => True) p s

variable {tokenId nodeName}

theorem giveUp_guarded (f : Fault) (message : String → String) (s : Server) :
    Guarded tokenId nodeName (giveUp f message) s := by
  cases f <;> trivial

theorem approveItems_guarded {next : Loop} (hnext : ∀ s, Guarded tokenId nodeName next s) (listed : Store String Csr)
    (items : List (String × ℕ × Csr)) (hitems : ∀ x ∈ items, find x.1 listed = some x.2) (s : Server)
    (hs : listed <:+ s.store) (hl : s.leased = true) :
    Guarded tokenId nodeName (approveItems tokenId nodeName next items) s := by
  induction items generalizing s with
  | nil => exact hnext s
  | cons x items ih =>
    obtain ⟨name, version, csr⟩ := x
    have ih := ih fun x hx => hitems x (List.mem_cons_of_mem _ hx)
    unfold approveItems
    split_ifs with huser hvalid hconditions
    · exact ih s hs hl
    · trivial
    · exact ih s hs hl
    · refine safeTo_ask (fun old t ht hold => ?_) (fun o => ?_) fun _ => giveUp_guarded _ _
      · obtain rfl := find_unique (hs.trans ht) (hitems _ List.mem_cons_self) hold
        exact ⟨hl, by simpa using hconditions, by simpa using hvalid, rfl⟩
      · simp only [server, serve]
        rcases find name (o.1 ++ s.store) with _ | ⟨v, old⟩
        · apply giveUp_guarded
        · dsimp only
          split_ifs
          · apply giveUp_guarded
          · exact ih _ ((hs.trans (List.suffix_append _ _)).trans (List.suffix_cons _ _)) hl

theorem approveWorkerCSRs_guarded (n : ℕ) (s : Server) :
    Guarded tokenId nodeName (approveWorkerCSRs tokenId nodeName n) s := by
  induction n generalizing s with
  | zero => trivial
  | succ n ih =>
    refine safeTo_ask trivial (fun o => ?_) fun _ _ => trivial
    refine safeTo_ask trivial (fun o => ?_) fun _ => giveUp_guarded _ _
    simp only [server, serve]
    split_ifs with hheld
    · refine safeTo_ask trivial (fun o => ?_) fun _ => giveUp_guarded _ _
      refine approveItems_guarded ih _ _ (fun x hx => ?_) _ List.suffix_rfl hheld
      obtain ⟨name, -, hx⟩ := List.mem_filterMap.mp hx
      obtain ⟨y, hy, rfl⟩ := Option.map_eq_some_iff.mp hx
      exact hy
    · apply giveUp_guarded

/-- a guarded request that is carried out keeps the approvals conforming -/
theorem serve_conforms {q : Request} {s : Server} (hs : ∀ a ∈ s.approvals, Conforms tokenId nodeName a)
    (hq : Checked tokenId nodeName q s) : ∀ a ∈ (serve q s).2.approvals, Conforms tokenId nodeName a := by
  cases q with
  | updateApproval name version csr =>
    simp only [serve]
    split
    · exact hs
    · rename_i v old hold
      split_ifs with hv
      · exact hs
      · rintro a (_ | ⟨_, ha⟩)
        · exact hq old _ List.suffix_rfl (not_not.mp hv ▸ hold)
        · exact hs a ha
  | _ => exact hs

/-- **Only checked requests are approved.** Whatever others do to the certificate requests and whichever answers are lost:
each approval of the loop that the API server takes turns a request that was undecided, was made with the host's token
and asks for a client certificate of this node alone into the same request with the approval, and the last check of the
operation's lease had passed. -/
theorem approvals_checked (n : ℕ) (fates : ℕ → Option (Fate (Store String Csr × Bool) Fault)) (store : Store String Csr) :
    ∀ a ∈ (server.run fates (approveWorkerCSRs tokenId nodeName n) { store }).1.approvals, Conforms tokenId nodeName a := by
  refine (run_safe (I := fun s => ∀ a ∈ s.approvals, Conforms tokenId nodeName a) (fun _ _ hs => hs) ?_
    (fun _ _ hq hs => serve_conforms hs hq) (approveWorkerCSRs_guarded n { store }) (by simp) fates).1
  intro o q s hq
  cases q with
  | updateApproval name version csr => exact fun old t ht => hq old t ((List.suffix_append _ _).trans ht)
  | _ => trivial

namespace Sample

def csr : Csr := ⟨"system:bootstrap:t", "kubernetes.io/kube-apiserver-client-kubelet", ["system:bootstrappers:crane"],
  some ⟨true, "system:node:n", ["system:nodes"], []⟩, ["client auth", "digital signature"], []⟩

def fates (_ : ℕ) : Option (Fate (Store String Csr × Bool) Fault) := some (.served ([], true))

theorem approvals_checked_csr :
    (server.run fates (approveWorkerCSRs "t" "n" 1) ⟨[("c", some csr)], false, false, []⟩).1.approvals =
      [⟨csr, csr.approved, true⟩] ∧ Conforms "t" "n" ⟨csr, csr.approved, true⟩ :=
  ⟨rfl, approvals_checked 1 fates [("c", some csr)] _ (List.mem_singleton.mpr rfl)⟩

end Sample

end Crane.Dominator.WorkerCsr
