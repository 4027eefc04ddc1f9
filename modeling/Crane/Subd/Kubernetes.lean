/-
Enforcing a Secret in the local Kubernetes cluster (`internal/subd/kubernetes.go`).

`ensureSecret` is a program of requests to the Kubernetes API, in the order of the source: the loop that writes the Secret,
the read that verifies it, the loop that marks the Deployment's template with the operation, and the poll of its rollout.
Any answer may come to any request, so what is proved here about the program holds for every interleaving: what it may ask
for, given what it was answered before (`Permitted`), and what its result says about the answers (`Reports`).

Objects carry the fields that the program reads or writes; all others are one value of an arbitrary type. The number of
polls before the context is done is arbitrary.
-/
import Crane.Lib.Sequences
import Crane.Subd.Server

namespace Crane.Subd.Kubernetes

open Sequences

/-! ## Objects -/

structure SecretObject (σ : Type) where
  type : String
  data : List (String × Bytes)
  rest : σ
deriving DecidableEq, Repr

structure DeploymentCondition where
  type : String
  status : String
  reason : String
deriving DecidableEq, Repr

structure Deployment (δ : Type) where
  uid : String
  generation : ℤ
  /-- the annotations of the template -/
  annotations : List (String × String)
  replicas : Option ℤ
  observedGeneration : ℤ
  updatedReplicas : ℤ
  currentReplicas : ℤ
  availableReplicas : ℤ
  conditions : List DeploymentCondition
  rest : δ
deriving DecidableEq, Repr

/-- namespace and name -/
abbrev Name := String × String

inductive ApiError where
  | notFound | alreadyExists | conflict
  | other -- among them a lost answer
deriving DecidableEq, Repr

/-- requests to the API; an update carries the resource version that was read -/
inductive Request (σ δ : Type) where
  | getSecret (n : Name)
  | createSecret (n : Name) (type : String) (data : List (String × Bytes))
  | updateSecret (n : Name) (version : ℕ) (o : SecretObject σ)
  | getDeployment (n : Name)
  | updateDeployment (n : Name) (version : ℕ) (d : Deployment δ)
deriving DecidableEq, Repr

variable {σ δ : Type}

abbrev Request.Value : Request σ δ → Type
  | .getSecret _ => ℕ × SecretObject σ
  | .createSecret _ _ _ => Unit
  | .updateSecret _ _ _ => Unit
  | .getDeployment _ => ℕ × Deployment δ
  | .updateDeployment _ _ _ => Deployment δ

abbrev Request.Answer (q : Request σ δ) : Type := Except ApiError q.Value

def Request.writesSecret : Request σ δ → Bool
  | .createSecret _ _ _ | .updateSecret _ _ _ => true
  | .getSecret _ | .getDeployment _ | .updateDeployment _ _ _ => false

/-! ## The program -/

abbrev Client (σ δ : Type) := Prog (Request σ δ) Request.Answer

def ask (q : Request σ δ) : Client σ δ q.Answer := .ask q .ret

/-- retry.OnError with this number of steps -/
def retryOnError {α : Type} (retriable : ApiError → Bool) (attempt : Client σ δ (Except ApiError α)) :
    ℕ → Client σ δ (Except ApiError α)
  | 0 => .ret (.error .other)
  | n + 1 => attempt.bind fun r => match r with
    | .ok a => .ret (.ok a)
    | .error e => if retriable e && n ≠ 0 then retryOnError retriable attempt n else .ret (.error e)

/-- `retry.DefaultBackoff.Steps` -/
def defaultSteps : ℕ := 4

/-- maps.EqualFunc with bytes.Equal -/
def sameData (a b : List (String × Bytes)) : Bool :=
  a.map (fun m => (m.1, m.2.getD [])) = b.map (fun m => (m.1, m.2.getD []))

/-- the type and the data that were asked for -/
def SecretObject.holds (o : SecretObject σ) (s : KubernetesSecret) : Bool := o.type = s.type && sameData o.data s.data

def secretName (s : KubernetesSecret) : Name := (s.namespaceName, s.name)

def deploymentName (s : KubernetesSecret) : Name := (s.namespaceName, s.rolloutDeployment)

/-- the object with the type and the data that were asked for -/
def SecretObject.enforced (o : SecretObject σ) (s : KubernetesSecret) : SecretObject σ :=
  { o with type := s.type, data := s.data }

/-- one attempt to write the Secret -/
def writeSecret (s : KubernetesSecret) : Client σ δ (Except ApiError Unit) := do
  match ← ask (.getSecret (secretName s)) with
  | .error .notFound => ask (.createSecret (secretName s) s.type s.data)
  | .error e => return .error e
  | .ok (version, current) =>
    if current.holds s then return .ok ()
    else ask (.updateSecret (secretName s) version (current.enforced s))

def operationKey : String := "crane.io/secret-operation"

/-- `Annotations[key]`, which is empty where there is none -/
def Deployment.operation (d : Deployment δ) : String := (d.annotations.lookup operationKey).getD ""

def Deployment.marked (d : Deployment δ) (operation : String) : Deployment δ :=
  { d with annotations := put operationKey operation d.annotations }

/-- one attempt to mark the template, which restarts the Deployment; the marked Deployment -/
def restart (n : Name) (operation : String) : Client σ δ (Except ApiError (Deployment δ)) := do
  match ← ask (.getDeployment n) with
  | .error e => return .error e
  | .ok (version, d) =>
    if d.operation = operation then return .ok d
    else ask (.updateDeployment n version (d.marked operation))

/-- whether the rollout is complete; `none` if it will not be -/
def Deployment.rolledOut (d : Deployment δ) : Option Bool :=
  if d.conditions.any fun c => c.type = "Progressing" && c.status = "False" && c.reason = "ProgressDeadlineExceeded" then
    none
  else
    let replicas := d.replicas.getD 1
    if replicas = 0 then none
    else some (d.generation ≤ d.observedGeneration && d.updatedReplicas = replicas && d.currentReplicas = replicas &&
      replicas ≤ d.availableReplicas)

/-- polls until the rollout is complete; the context is done after this number of polls -/
def poll (n : Name) (operation uid : String) : ℕ → Client σ δ Bool
  | 0 => .ret false
  | polls + 1 => .ask (.getDeployment n) fun r => match r with
    | .error _ => .ret false
    | .ok (_, current) =>
      if current.uid ≠ uid ∨ current.operation ≠ operation then .ret false
      else match current.rolledOut with
        | none => .ret false
        | some true => .ret true
        | some false => poll n operation uid polls

/-- restarts the Deployment of a verified Secret and waits for it -/
def rollout (polls : ℕ) (operation : String) (n : Name) : Client σ δ (KubernetesResult × Option String) :=
  (retryOnError (fun e => e = .conflict) (restart n operation) defaultSteps).bind fun r => match r with
    | .error _ => .ret (⟨.verified, .failed⟩, some "Deployment restart failed")
    | .ok desired => (poll n operation desired.uid polls).bind fun done =>
        if done then .ret (⟨.verified, .ready⟩, none)
        else .ret (⟨.verified, .failed⟩, some "Deployment rollout failed")

/-- the result while the Secret is not verified -/
def unverified (i : SecretSpec) : KubernetesResult :=
  ⟨.failed, if i.rolloutDeployment = "" then .notRequested else .pending⟩

/-- `hash` is the SHA-256 of the token -/
def ensureSecret (hash : String → String) (polls : ℕ) (token : String) (i : SecretSpec) :
    Client σ δ (KubernetesResult × Option String) :=
  match i.normalize with
  | none => .ret (unverified i, some "invalid Secret")
  | some s =>
    (retryOnError (fun e => e = .conflict || e = .alreadyExists) (writeSecret s) defaultSteps).bind fun r => match r with
      | .error _ => .ret (unverified i, some "Secret write failed")
      | .ok () => .ask (.getSecret (secretName s)) fun r => match r with
        | .error _ => .ret (unverified i, some "Secret verification failed")
        | .ok (_, current) =>
          if current.holds s then
            if s.rolloutDeployment = "" then .ret (⟨.verified, .notRequested⟩, none)
            else rollout polls (hash token) (deploymentName s)
          else .ret (unverified i, some "Secret verification failed")

/-! ## What it asks for -/

/-- a request and its answer -/
abbrev Exchange (σ δ : Type) := Σ q : Request σ δ, q.Answer

/-- the error it was answered with -/
def Exchange.failure (e : Exchange σ δ) : Option ApiError :=
  match e.2 with
  | .ok _ => none
  | .error x => some x

/-- what the history becomes -/
def note (q : Request σ δ) (r : q.Answer) (h : List (Exchange σ δ)) : List (Exchange σ δ) := h ++ [⟨q, r⟩]

section Permitted
variable (operation : String) (s : KubernetesSecret)

/-- the requests for a Secret: an update changes the type and the data of a version that was read, or marks the template
of a Deployment that was read without the mark -/
def Permitted (q : Request σ δ) (h : List (Exchange σ δ)) : Prop :=
  match q with
  | .getSecret n => n = secretName s
  | .createSecret n type data => n = secretName s ∧ type = s.type ∧ data = s.data
  | .updateSecret n version o =>
    n = secretName s ∧ ∃ read, (⟨.getSecret n, .ok (version, read)⟩ : Exchange σ δ) ∈ h ∧ o = read.enforced s
  | .getDeployment n => n = deploymentName s ∧ s.rolloutDeployment ≠ ""
  | .updateDeployment n version d =>
    n = deploymentName s ∧ s.rolloutDeployment ≠ "" ∧ ∃ read, (⟨.getDeployment n, .ok (version, read)⟩ : Exchange σ δ) ∈ h ∧
      read.operation ≠ operation ∧ d = read.marked operation

/-- what is permitted stays so -/
theorem Permitted.mono {q : Request σ δ} {h h' : List (Exchange σ δ)} (hq : Permitted operation s q h) (hsub : h ⊆ h') :
    Permitted operation s q h' := by
  cases q with
  | getSecret n => exact hq
  | createSecret n type data => exact hq
  | updateSecret n version o =>
    obtain ⟨hn, read, hread, ho⟩ := hq
    exact ⟨hn, read, hsub hread, ho⟩
  | getDeployment n => exact hq
  | updateDeployment n version d =>
    obtain ⟨hn, hne, read, hread, hd⟩ := hq
    exact ⟨hn, hne, read, hsub hread, hd⟩

/-- a read after the last write of the Secret returned what was asked for -/
def Verified (h : List (Exchange σ δ)) : Prop :=
  ∃ before after version o, h = before ++ ⟨.getSecret (secretName s), .ok (version, o)⟩ :: after ∧
    SecretObject.holds o s = true ∧ ∀ e ∈ after, e.1.writesSecret = false

/-- no answer to a write of the Secret was lost -/
def Settled (h : List (Exchange σ δ)) : Prop := ∀ e ∈ h, e.1.writesSecret = true → e.failure ≠ some .other

/-- the last read returned the Deployment with this operation, rolled out -/
def Ready (h : List (Exchange σ δ)) : Prop :=
  ∃ before version d, h = before ++ [⟨.getDeployment (deploymentName s), .ok (version, d)⟩] ∧
    Deployment.operation d = operation ∧ d.rolledOut = some true

/-- what the result says about the answers -/
structure Reports (result : KubernetesResult × Option String) (h : List (Exchange σ δ)) : Prop where
  verified : result.1.secret = .verified → Verified s h ∧ Settled h
  ready : result.1.rollout = .ready → Ready operation s h
  succeeded : result.2 = none → result.1 = verifiedResult s

end Permitted

section Program
variable {operation : String} {s : KubernetesSecret} {h : List (Exchange σ δ)} {α : Type}

abbrev Follows (operation : String) (s : KubernetesSecret) (post : α → List (Exchange σ δ) → Prop)
    (p : Client σ δ α) (h : List (Exchange σ δ)) : Prop :=
  p.Along (Permitted operation s) (fun _ _ => True) note post h

/-- attempts that keep `I` as long as they may be repeated -/
theorem follows_retry {retriable : ApiError → Bool} {attempt : Client σ δ (Except ApiError α)}
    {I : List (Exchange σ δ) → Prop} {post : Except ApiError α → List (Exchange σ δ) → Prop}
    (hattempt : ∀ h, I h → Follows operation s post attempt h) (hagain : ∀ e h, post (.error e) h → retriable e = true → I h)
    (hzero : ∀ h, I h → post (.error .other) h) (n : ℕ) {h : List (Exchange σ δ)} (hI : I h) :
    Follows operation s post (retryOnError retriable attempt n) h := by
  induction n generalizing h with
  | zero => exact hzero h hI
  | succ n ih =>
    apply Prog.along_bind
    apply Prog.along_mono _ (hattempt h hI)
    intro r h' hr
    cases r with
    | ok a => exact hr
    | error e =>
      dsimp only
      split_ifs with hretry
      · exact ih (hagain e h' hr (Bool.and_eq_true_iff.mp hretry).1)
      · exact hr

theorem Settled.note {q : Request σ δ} {r : q.Answer} (hs : Settled h)
    (hq : q.writesSecret = true → Exchange.failure ⟨q, r⟩ ≠ some .other) : Settled (note q r h) := by
  intro e he
  rcases List.mem_append.mp he with he | he
  · exact hs e he
  · obtain rfl := List.mem_singleton.mp he
    exact hq

theorem Verified.note {q : Request σ δ} {r : q.Answer} (hv : Verified s h) (hq : q.writesSecret = false) :
    Verified s (note q r h) := by
  obtain ⟨before, after, version, o, rfl, ho, hafter⟩ := hv
  refine ⟨before, after ++ [⟨q, r⟩], version, o, by simp [Kubernetes.note], ho, ?_⟩
  intro e he
  rcases List.mem_append.mp he with he | he
  · exact hafter e he
  · obtain rfl := List.mem_singleton.mp he
    exact hq

/-- an attempt that did not end in an unknown error has lost no answer -/
theorem writeSecret_follows (hs : Settled h) :
    Follows operation s (fun r h => (∀ e, r = .error e → e = .conflict ∨ e = .alreadyExists) → Settled h) (writeSecret s)
      h := by
  refine ⟨rfl, ?_⟩
  intro r _
  have hread := hs.note (q := .getSecret (secretName s)) (r := r) (by simp [Request.writesSecret])
  rcases r with e | ⟨version, current⟩
  · cases e with
    | notFound =>
      refine ⟨⟨rfl, rfl, rfl⟩, ?_⟩
      intro r _ hr
      apply hread.note
      intro _
      rcases r with e | _
      · rcases hr e rfl with rfl | rfl <;> simp [Exchange.failure]
      · simp [Exchange.failure]
    | alreadyExists => exact fun _ => hread
    | conflict => exact fun _ => hread
    | other => exact fun _ => hread
  · show Follows operation s _ (if current.holds s then _ else _) _
    split_ifs
    · exact fun _ => hread
    · refine ⟨⟨rfl, current, by simp [note], rfl⟩, ?_⟩
      intro r _ hr
      apply hread.note
      intro _
      rcases r with e | _
      · rcases hr e rfl with rfl | rfl <;> simp [Exchange.failure]
      · simp [Exchange.failure]

/-- the Secret is verified, and all that follows is about the Deployment -/
def Done (s : KubernetesSecret) (h : List (Exchange σ δ)) : Prop := Verified s h ∧ Settled h

theorem Done.note {q : Request σ δ} {r : q.Answer} (hd : Done s h) (hq : q.writesSecret = false) : Done s (note q r h) := by
  refine ⟨hd.1.note hq, hd.2.note ?_⟩
  intro hw
  rw [hq] at hw
  cases hw

theorem restart_follows (hne : s.rolloutDeployment ≠ "") (hd : Done s h) :
    Follows operation s (fun _ h => Done s h) (restart (deploymentName s) operation) h := by
  refine ⟨⟨rfl, hne⟩, ?_⟩
  intro r _
  have hread := hd.note (q := .getDeployment (deploymentName s)) (r := r) rfl
  rcases r with e | ⟨version, d⟩
  · exact hread
  · show Follows operation s _ (if d.operation = operation then _ else _) _
    split_ifs with hop
    · exact hread
    · refine ⟨⟨rfl, hne, d, by simp [note], hop, rfl⟩, ?_⟩
      intro r _
      exact hread.note rfl

theorem poll_follows (hne : s.rolloutDeployment ≠ "") (uid : String) (polls : ℕ) (hd : Done s h) :
    Follows operation s (fun done h => Done s h ∧ (done = true → Ready operation s h))
      (poll (deploymentName s) operation uid polls) h := by
  induction polls generalizing h with
  | zero => exact ⟨hd, by simp⟩
  | succ polls ih =>
    refine ⟨⟨rfl, hne⟩, ?_⟩
    intro r _
    have hread := hd.note (q := .getDeployment (deploymentName s)) (r := r) rfl
    rcases r with e | ⟨version, d⟩
    · exact ⟨hread, by simp⟩
    · dsimp only
      split_ifs with hother
      · exact ⟨hread, by simp⟩
      · rw [not_or, not_not, not_not] at hother
        cases hrolled : d.rolledOut with
        | none => exact ⟨hread, by simp⟩
        | some complete =>
          cases complete with
          | true => exact ⟨hread, fun _ => ⟨h, version, d, rfl, hother.2, hrolled⟩⟩
          | false => exact ih hread

theorem rollout_follows (hne : s.rolloutDeployment ≠ "") (polls : ℕ) (hd : Done s h) :
    Follows operation s (Reports operation s) (rollout polls operation (deploymentName s)) h := by
  apply Prog.along_bind
  apply Prog.along_mono _ (follows_retry (I := Done s) (fun h hd => restart_follows hne hd) (fun _ _ hd _ => hd)
    (fun _ hd => hd) defaultSteps hd)
  intro r h' hd'
  cases r with
  | error e => exact ⟨fun _ => hd', by simp, by simp⟩
  | ok desired =>
    apply Prog.along_bind
    apply Prog.along_mono _ (poll_follows hne desired.uid polls hd')
    rintro done h'' ⟨hd'', hready⟩
    cases done with
    | true => exact ⟨fun _ => hd'', fun _ => hready rfl, fun _ => by simp [verifiedResult, hne]⟩
    | false => exact ⟨fun _ => hd'', by simp, by simp⟩

theorem reports_unverified (i : SecretSpec) (e : String) : Reports operation s (unverified i, some e) h := by
  refine ⟨by simp [unverified], ?_, by simp⟩
  intro hready
  simp only [unverified] at hready
  split_ifs at hready

/-- **What EnsureSecret asks for and reports.** -/
theorem ensureSecret_follows {hash : String → String} {token : String} (polls : ℕ) {i : SecretSpec}
    (hi : i.normalize = some s) :
    Follows (hash token) s (Reports (hash token) s) (ensureSecret (σ := σ) (δ := δ) hash polls token i) [] := by
  unfold ensureSecret
  rw [hi]
  apply Prog.along_bind
  have hstart : Settled ([] : List (Exchange σ δ)) := by simp [Settled]
  apply Prog.along_mono _ (follows_retry (I := Settled) (fun h hs => writeSecret_follows hs) ?_ (by simp) defaultSteps hstart)
  · intro r h hr
    cases r with
    | error e => exact reports_unverified i _
    | ok u =>
      have hs : Settled h := hr (by simp)
      refine ⟨rfl, ?_⟩
      intro r _
      have hread := hs.note (q := .getSecret (secretName s)) (r := r) (by simp [Request.writesSecret])
      rcases r with e | ⟨version, current⟩
      · exact reports_unverified i _
      · dsimp only
        split_ifs with hholds hne
        · refine ⟨fun _ => ⟨⟨h, [], version, current, rfl, hholds, by simp⟩, hread⟩, by simp, ?_⟩
          intro _
          simp [verifiedResult, hne]
        · exact rollout_follows hne polls ⟨⟨h, [], version, current, rfl, hholds, by simp⟩, hread⟩
        · exact reports_unverified i _
  · intro e h hs hretry
    apply hs
    rintro _ ⟨⟩
    simpa using hretry

end Program

end Crane.Subd.Kubernetes
