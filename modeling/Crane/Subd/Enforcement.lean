/-
EnsureSecret in a cluster with other writers.

Calls with any tokens and Secrets run side by side (retries among them), other writers change any object at any time, and
the network may refuse a request, lose its answer, or bring the request to the API after the caller has given up. The API
keeps every version of an object and refuses an update whose resource version is not the current one.

A version names one content, so an update that is accepted replaces what its caller read: it touches nothing else, and a
template is only marked while it does not carry the mark. What a call may ask for and what its result says comes from the
program alone (`Subd.Kubernetes`).
-/
import Crane.Lib.Versions
import Crane.Subd.Kubernetes

namespace Crane.Subd.Kubernetes

open Versions

variable {σ δ : Type}

/-! ## The cluster -/

structure Cluster (σ δ : Type) where
  secrets : Store Name (SecretObject σ)
  deployments : Store Name (Deployment δ)

/-- a new content of an object, or its deletion -/
inductive Change (σ δ : Type) where
  | secret (n : Name) (o : Option (SecretObject σ))
  | deployment (n : Name) (d : Option (Deployment δ))

def Cluster.apply (c : Cluster σ δ) : Change σ δ → Cluster σ δ
  | .secret n o => { c with secrets := (n, o) :: c.secrets }
  | .deployment n d => { c with deployments := (n, d) :: c.deployments }

/-- the API counts the specs of a Deployment -/
def Deployment.counted (d current : Deployment δ) : Deployment δ := { d with generation := current.generation + 1 }

/-- the hash of tokens, and the fields that the API gives a new Secret -/
structure Env (σ : Type) where
  hash : String → String
  fresh : σ

/-- what an accepted request changes -/
def Cluster.change (E : Env σ) (c : Cluster σ δ) : Request σ δ → Option (Change σ δ)
  | .getSecret _ | .getDeployment _ => none
  | .createSecret n type data => match find n c.secrets with
    | none => some (.secret n (some ⟨type, data, E.fresh⟩))
    | some _ => none
  | .updateSecret n version o => match find n c.secrets with
    | none => none
    | some current => if current.1 = version then some (.secret n (some o)) else none
  | .updateDeployment n version d => match find n c.deployments with
    | none => none
    | some current => if current.1 = version then some (.deployment n (some (d.counted current.2))) else none

def Cluster.answer (c : Cluster σ δ) : (q : Request σ δ) → q.Answer
  | .getSecret n => match find n c.secrets with
    | none => .error .notFound
    | some current => .ok current
  | .createSecret n _ _ => match find n c.secrets with
    | none => .ok ()
    | some _ => .error .alreadyExists
  | .updateSecret n version _ => match find n c.secrets with
    | none => .error .notFound
    | some current => if current.1 = version then .ok () else .error .conflict
  | .getDeployment n => match find n c.deployments with
    | none => .error .notFound
    | some current => .ok current
  | .updateDeployment n version d => match find n c.deployments with
    | none => .error .notFound
    | some current => if current.1 = version then .ok (d.counted current.2) else .error .conflict

/-! ## Calls -/

/-- a call of EnsureSecret, with what it has asked and was answered -/
structure Call (σ δ : Type) where
  token : String
  spec : SecretSpec
  prog : Client σ δ (KubernetesResult × Option String)
  history : List (Exchange σ δ)

/-- a write that the API has accepted; the author is a call and its token, or somebody else -/
structure Write (σ δ : Type) where
  author : Option (ℕ × String)
  before : Cluster σ δ
  change : Change σ δ

structure State (σ δ : Type) where
  cluster : Cluster σ δ
  calls : List (Call σ δ) := []
  /-- requests whose caller has given up -/
  network : List (ℕ × String × Request σ δ) := []
  writes : List (Write σ δ) := []

inductive Act (σ δ : Type) where
  | call (token : String) (spec : SecretSpec) (polls : ℕ)
  | serve (n : ℕ) -- the request of call n is carried out and answered
  | refuse (n : ℕ) (e : ApiError) -- it is answered with an error and not carried out
  | lose (n : ℕ) -- its answer is lost; it may still arrive
  | abandon (n : ℕ) -- the agent crashes; its request may still arrive
  | arrive (k : ℕ) -- a request from the network is carried out
  | other (ch : Change σ δ) -- another writer

/-- carries out a request -/
def State.write (s : State σ δ) (author : Option (ℕ × String)) (ch : Option (Change σ δ)) : State σ δ :=
  match ch with
  | none => s
  | some ch => { s with cluster := s.cluster.apply ch, writes := ⟨author, s.cluster, ch⟩ :: s.writes }

/-- answers call `n`, which was waiting for `q` -/
def State.reply (s : State σ δ) (n : ℕ) (c : Call σ δ) (q : Request σ δ)
    (k : q.Answer → Client σ δ (KubernetesResult × Option String)) (r : q.Answer) : State σ δ :=
  { s with calls := s.calls.set n { c with prog := k r, history := note q r c.history } }

/-- the request waits in the network -/
def State.float (s : State σ δ) (n : ℕ) (c : Call σ δ) (q : Request σ δ) : State σ δ :=
  { s with network := (n, c.token, q) :: s.network }

/-- what happens to the request that call `n` waits for -/
def State.waiting (s : State σ δ) (n : ℕ) (f : (c : Call σ δ) → (q : Request σ δ) →
    (q.Answer → Client σ δ (KubernetesResult × Option String)) → State σ δ) : State σ δ :=
  match s.calls[n]? with
  | none => s
  | some c => match c.prog with
    | .ask q next => f c q next
    | .ret _ | .stop => s

def step (E : Env σ) (s : State σ δ) : Act σ δ → State σ δ
  | .call token spec polls => { s with calls := s.calls ++ [⟨token, spec, ensureSecret E.hash polls token spec, []⟩] }
  | .serve n => s.waiting n fun c q next =>
      (s.write (some (n, c.token)) (s.cluster.change E q)).reply n c q next (s.cluster.answer q)
  | .refuse n e => s.waiting n fun c q next => s.reply n c q next (.error e)
  | .lose n => s.waiting n fun c q next => (s.float n c q).reply n c q next (.error .other)
  | .abandon n => s.waiting n fun c q _ => { s.float n c q with calls := s.calls.set n { c with prog := .stop } }
  | .arrive k => match s.network[k]? with
    | some (n, token, q) =>
      { s.write (some (n, token)) (s.cluster.change E q) with network := s.network.eraseIdx k }
    | none => s
  | .other ch => s.write none (some ch)

def run (E : Env σ) (c : Cluster σ δ) (acts : List (Act σ δ)) : State σ δ := acts.foldl (step E) { cluster := c }

/-! ## What an accepted request changes -/

/-- every read of the history was true at some time -/
structure Known (c : Cluster σ δ) (h : List (Exchange σ δ)) : Prop where
  secrets : ∀ n v o, (⟨.getSecret n, .ok (v, o)⟩ : Exchange σ δ) ∈ h → ∃ past, past <:+ c.secrets ∧ find n past = some (v, o)
  deployments : ∀ n v d, (⟨.getDeployment n, .ok (v, d)⟩ : Exchange σ δ) ∈ h →
    ∃ past, past <:+ c.deployments ∧ find n past = some (v, d)

/-- a write of the Secret's type and data, or of the mark of the Deployment's template; all other fields are those of the
version that it replaces -/
def Touches (E : Env σ) (token : String) (s : KubernetesSecret) (before : Cluster σ δ) : Change σ δ → Prop
  | .secret n o => n = secretName s ∧ ((find n before.secrets = none ∧ o = some ⟨s.type, s.data, E.fresh⟩) ∨
      ∃ v current, find n before.secrets = some (v, current) ∧ o = some (current.enforced s))
  | .deployment n d => n = deploymentName s ∧ s.rolloutDeployment ≠ "" ∧
      ∃ v current, find n before.deployments = some (v, current) ∧ current.operation ≠ E.hash token ∧
        d = some ((current.marked (E.hash token)).counted current)

section Changes
variable {E : Env σ} {c : Cluster σ δ} {h : List (Exchange σ δ)} {token : String} {s : KubernetesSecret}

theorem change_touches {q : Request σ δ} {ch : Change σ δ} (hq : Permitted (E.hash token) s q h) (hh : Known c h)
    (hch : c.change E q = some ch) : Touches E token s c ch := by
  cases q with
  | getSecret n => cases hch
  | getDeployment n => cases hch
  | createSecret n type data =>
    obtain ⟨rfl, rfl, rfl⟩ := hq
    simp only [Cluster.change] at hch
    cases hf : find (secretName s) c.secrets with
    | none =>
      rw [hf] at hch
      cases hch
      exact ⟨rfl, .inl ⟨hf, rfl⟩⟩
    | some current => simp [hf] at hch
  | updateSecret n version o =>
    obtain ⟨rfl, read, hread, rfl⟩ := hq
    obtain ⟨past, hpast, hold⟩ := hh.secrets _ _ _ hread
    simp only [Cluster.change] at hch
    cases hf : find (secretName s) c.secrets with
    | none => simp [hf] at hch
    | some current =>
      obtain ⟨v, current⟩ := current
      simp only [hf] at hch
      split_ifs at hch with hv
      cases hch
      subst hv
      -- the current version is the one that was read
      obtain rfl := find_unique hpast hold hf
      exact ⟨rfl, .inr ⟨v, current, hf, rfl⟩⟩
  | updateDeployment n version d =>
    obtain ⟨rfl, hne, read, hread, hop, rfl⟩ := hq
    obtain ⟨past, hpast, hold⟩ := hh.deployments _ _ _ hread
    simp only [Cluster.change] at hch
    cases hf : find (deploymentName s) c.deployments with
    | none => simp [hf] at hch
    | some current =>
      obtain ⟨v, current⟩ := current
      simp only [hf] at hch
      split_ifs at hch with hv
      cases hch
      subst hv
      obtain rfl := find_unique hpast hold hf
      exact ⟨rfl, hne, v, current, hf, hop, rfl⟩

theorem suffix_apply_secrets (c : Cluster σ δ) (ch : Change σ δ) : c.secrets <:+ (c.apply ch).secrets := by
  cases ch with
  | secret n o => exact List.suffix_cons _ _
  | deployment n d => exact List.suffix_refl _

theorem suffix_apply_deployments (c : Cluster σ δ) (ch : Change σ δ) : c.deployments <:+ (c.apply ch).deployments := by
  cases ch with
  | secret n o => exact List.suffix_refl _
  | deployment n d => exact List.suffix_cons _ _

theorem Known.apply (hh : Known c h) (ch : Change σ δ) : Known (c.apply ch) h := by
  refine ⟨?_, ?_⟩
  · intro n v o ho
    obtain ⟨past, hpast, hold⟩ := hh.secrets n v o ho
    exact ⟨past, hpast.trans (suffix_apply_secrets c ch), hold⟩
  · intro n v d hd
    obtain ⟨past, hpast, hold⟩ := hh.deployments n v d hd
    exact ⟨past, hpast.trans (suffix_apply_deployments c ch), hold⟩

/-- an error teaches nothing -/
theorem Known.note_error (hh : Known c h) (q : Request σ δ) (e : ApiError) : Known c (note q (.error e) h) := by
  refine ⟨?_, ?_⟩
  · intro n v o ho
    rcases List.mem_append.mp ho with ho | ho
    · exact hh.secrets n v o ho
    · rw [List.mem_singleton, Sigma.mk.injEq] at ho
      obtain ⟨rfl, ho⟩ := ho
      cases ho
  · intro n v d hd
    rcases List.mem_append.mp hd with hd | hd
    · exact hh.deployments n v d hd
    · rw [List.mem_singleton, Sigma.mk.injEq] at hd
      obtain ⟨rfl, hd⟩ := hd
      cases hd

/-- the API answers with what it has -/
theorem Known.note_answer (hh : Known c h) (q : Request σ δ) : Known c (note q (c.answer q) h) := by
  refine ⟨?_, ?_⟩
  · intro n v o ho
    rcases List.mem_append.mp ho with ho | ho
    · exact hh.secrets n v o ho
    · rw [List.mem_singleton, Sigma.mk.injEq] at ho
      obtain ⟨rfl, ho⟩ := ho
      have hanswer := eq_of_heq ho
      refine ⟨c.secrets, List.suffix_refl _, ?_⟩
      simp only [Cluster.answer] at hanswer
      cases hf : find n c.secrets with
      | none => simp [hf] at hanswer
      | some current =>
        rw [hf] at hanswer
        exact congrArg some (Except.ok.inj hanswer).symm
  · intro n v d hd
    rcases List.mem_append.mp hd with hd | hd
    · exact hh.deployments n v d hd
    · rw [List.mem_singleton, Sigma.mk.injEq] at hd
      obtain ⟨rfl, hd⟩ := hd
      have hanswer := eq_of_heq hd
      refine ⟨c.deployments, List.suffix_refl _, ?_⟩
      simp only [Cluster.answer] at hanswer
      cases hf : find n c.deployments with
      | none => simp [hf] at hanswer
      | some current =>
        rw [hf] at hanswer
        exact congrArg some (Except.ok.inj hanswer).symm

end Changes

/-! ## The invariant -/

/-- a call goes on as its program says, and what it has read was true -/
structure CallOk (E : Env σ) (c : Cluster σ δ) (k : Call σ δ) : Prop where
  follows : ∀ s, k.spec.normalize = some s →
    Follows (E.hash k.token) s (Reports (E.hash k.token) s) k.prog k.history
  invalid : k.spec.normalize = none → (∀ q next, k.prog ≠ .ask q next) ∧ ∀ r, k.prog = .ret r → r.1 = unverified k.spec
  known : Known c k.history

/-- call `n` has this token and this valid Secret -/
def Calls (s : State σ δ) (n : ℕ) (token : String) (k : Call σ δ) (secret : KubernetesSecret) : Prop :=
  s.calls[n]? = some k ∧ k.token = token ∧ k.spec.normalize = some secret

structure EnforceInv (E : Env σ) (s : State σ δ) : Prop where
  calls : ∀ (n : ℕ) k, s.calls[n]? = some k → CallOk E s.cluster k
  network : ∀ n t q, (n, t, q) ∈ s.network → ∃ k secret, Calls s n t k secret ∧ Permitted (E.hash t) secret q k.history ∧
    ((⟨q, .error .other⟩ : Exchange σ δ) ∈ k.history ∨ k.prog = .stop)
  writes : ∀ w ∈ s.writes, ∀ n t, w.author = some (n, t) → ∃ k secret, Calls s n t k secret ∧ Touches E t secret w.before w.change

section Inv
variable {E : Env σ} {s : State σ δ} {n : ℕ} {k k' : Call σ δ}

theorem CallOk.apply {c : Cluster σ δ} (h : CallOk E c k) (ch : Change σ δ) : CallOk E (c.apply ch) k :=
  ⟨h.follows, h.invalid, h.known.apply ch⟩

/-- a call that waits for an answer has a valid Secret and a permitted request -/
theorem CallOk.pending {c : Cluster σ δ} (h : CallOk E c k) {q : Request σ δ}
    {next : q.Answer → Client σ δ (KubernetesResult × Option String)} (hp : k.prog = .ask q next) :
    ∃ secret, k.spec.normalize = some secret ∧ Permitted (E.hash k.token) secret q k.history ∧
      ∀ r, Follows (E.hash k.token) secret (Reports (E.hash k.token) secret) (next r) (note q r k.history) := by
  cases hspec : k.spec.normalize with
  | none => exact absurd hp ((h.invalid hspec).1 q next)
  | some secret =>
    have hfollows := h.follows secret hspec
    rw [hp] at hfollows
    exact ⟨secret, rfl, hfollows.1, fun r => hfollows.2 r trivial⟩

/-- a call that claims something had a valid Secret -/
theorem CallOk.reports {c : Cluster σ δ} (h : CallOk E c k) {r : KubernetesResult × Option String} (hret : k.prog = .ret r)
    (hr : r.1.secret = .verified ∨ r.1.rollout = .ready) :
    ∃ secret, k.spec.normalize = some secret ∧ Reports (E.hash k.token) secret r k.history := by
  cases hspec : k.spec.normalize with
  | none =>
    rw [(h.invalid hspec).2 r hret] at hr
    simp only [unverified, reduceCtorEq, false_or] at hr
    split_ifs at hr
  | some secret =>
    have hfollows := h.follows secret hspec
    rw [hret] at hfollows
    exact ⟨secret, rfl, hfollows⟩

/-- the call after an answer -/
theorem CallOk.answered {c : Cluster σ δ} (h : CallOk E c k) {q : Request σ δ}
    {next : q.Answer → Client σ δ (KubernetesResult × Option String)} (hp : k.prog = .ask q next) (r : q.Answer)
    {c' : Cluster σ δ} (hknown : Known c' (note q r k.history)) :
    CallOk E c' { k with prog := next r, history := note q r k.history } := by
  obtain ⟨secret, hspec, -, hnext⟩ := h.pending hp
  refine ⟨?_, ?_, hknown⟩
  · intro s hs
    obtain rfl := Option.some.inj (hspec.symm.trans hs)
    exact hnext r
  · intro hnone
    rw [hspec] at hnone
    cases hnone

/-- a change by `author` -/
theorem EnforceInv.write (h : EnforceInv E s) {author : Option (ℕ × String)} {o : Option (Change σ δ)}
    (hch : ∀ ch, o = some ch → ∀ n t, author = some (n, t) →
      ∃ k secret, Calls s n t k secret ∧ Touches E t secret s.cluster ch) : EnforceInv E (s.write author o) := by
  cases o with
  | none => exact h
  | some ch =>
    refine ⟨fun n k hk => (h.calls n k hk).apply ch, h.network, ?_⟩
    intro w hw
    rcases List.mem_cons.mp hw with rfl | hw
    · exact hch ch rfl
    · exact h.writes w hw

/-- one call goes on -/
theorem EnforceInv.update (h : EnforceInv E s) (hk : s.calls[n]? = some k) (hk' : CallOk E s.cluster k') (htoken : k'.token = k.token)
    (hspec : k'.spec = k.spec) (hhistory : k.history ⊆ k'.history) (hstop : k.prog = .stop → k'.prog = .stop) :
    EnforceInv E { s with calls := s.calls.set n k' } := by
  have hget : ∀ m, (s.calls.set n k')[m]? = if m = n then some k' else s.calls[m]? := by
    intro m
    have hlt : n < s.calls.length := (List.getElem?_eq_some_iff.mp hk).1
    rw [List.getElem?_set]
    split_ifs with h₁ h₂ h₂
    · rfl
    · exact absurd h₁.symm h₂
    · exact absurd h₂.symm h₁
    · rfl
  -- what holds of a call that was there still does
  have hcalls : ∀ {m t i secret}, Calls s m t i secret →
      ∃ i', Calls { s with calls := s.calls.set n k' } m t i' secret ∧ i.history ⊆ i'.history ∧
        (i.prog = .stop → i'.prog = .stop) := by
    rintro m t i secret ⟨hi, ht, hsecret⟩
    by_cases hm : m = n
    · subst hm
      obtain rfl := Option.some.inj (hi.symm.trans hk)
      exact ⟨k', ⟨by rw [hget, if_pos rfl], htoken.trans ht, by rw [hspec]; exact hsecret⟩, hhistory, hstop⟩
    · exact ⟨i, ⟨by rw [hget, if_neg hm]; exact hi, ht, hsecret⟩, fun _ he => he, id⟩
  refine ⟨?_, ?_, ?_⟩
  · intro m i hi
    rw [hget] at hi
    split_ifs at hi with hm
    · obtain rfl := Option.some.inj hi
      exact hk'
    · exact h.calls m i hi
  · intro m t q hq
    obtain ⟨i, secret, hi, hpermitted, hgone⟩ := h.network m t q hq
    obtain ⟨i', hi', hsub, hstop'⟩ := hcalls hi
    exact ⟨i', secret, hi', hpermitted.mono _ _ hsub, hgone.imp (fun he => hsub he) hstop'⟩
  · intro w hw m t hauthor
    obtain ⟨i, secret, hi, htouches⟩ := h.writes w hw m t hauthor
    obtain ⟨i', hi', -, -⟩ := hcalls hi
    exact ⟨i', secret, hi', htouches⟩

theorem EnforceInv.reply (h : EnforceInv E s) (hk : s.calls[n]? = some k) {q : Request σ δ}
    {next : q.Answer → Client σ δ (KubernetesResult × Option String)} (hp : k.prog = .ask q next) (r : q.Answer)
    (hknown : Known s.cluster (note q r k.history)) : EnforceInv E (s.reply n k q next r) := by
  apply h.update hk ((h.calls n k hk).answered hp r hknown) rfl rfl
  · exact fun e he => List.mem_append_left _ he
  · intro hstop
    rw [hp] at hstop
    cases hstop

/-- a request goes to the network -/
theorem EnforceInv.float (h : EnforceInv E s) (hk : s.calls[n]? = some k) {q : Request σ δ} {secret : KubernetesSecret}
    (hspec : k.spec.normalize = some secret) (hq : Permitted (E.hash k.token) secret q k.history)
    (hgone : (⟨q, .error .other⟩ : Exchange σ δ) ∈ k.history ∨ k.prog = .stop) :
    EnforceInv E { s with network := (n, k.token, q) :: s.network } := by
  refine ⟨h.calls, ?_, h.writes⟩
  intro m t q' hq'
  rcases List.mem_cons.mp hq' with heq | hq'
  · simp only [Prod.mk.injEq] at heq
    obtain ⟨rfl, rfl, rfl⟩ := heq
    exact ⟨k, secret, ⟨hk, rfl, hspec⟩, hq, hgone⟩
  · exact h.network m t q' hq'

theorem EnforceInv.carry (h : EnforceInv E s) {t : String} {secret : KubernetesSecret} (hk : Calls s n t k secret) {q : Request σ δ}
    (hq : Permitted (E.hash t) secret q k.history) : EnforceInv E (s.write (some (n, t)) (s.cluster.change E q)) := by
  apply h.write
  intro ch hch m t' hauthor
  simp only [Option.some.injEq, Prod.mk.injEq] at hauthor
  obtain ⟨rfl, rfl⟩ := hauthor
  exact ⟨k, secret, hk, change_touches hq (h.calls _ _ hk.1).known hch⟩

theorem State.write_calls (s : State σ δ) (author : Option (ℕ × String)) (o : Option (Change σ δ)) :
    (s.write author o).calls = s.calls := by
  cases o <;> rfl

theorem State.write_network (s : State σ δ) (author : Option (ℕ × String)) (o : Option (Change σ δ)) :
    (s.write author o).network = s.network := by
  cases o <;> rfl

theorem getElem?_set_call {calls : List (Call σ δ)} (hk : calls[n]? = some k) : (calls.set n k')[n]? = some k' := by
  rw [List.getElem?_set_self (List.getElem?_eq_some_iff.mp hk).1]

theorem waiting_cases {P : State σ δ → Prop} {f : (c : Call σ δ) → (q : Request σ δ) →
    (q.Answer → Client σ δ (KubernetesResult × Option String)) → State σ δ} (hs : P s)
    (hf : ∀ c q next, s.calls[n]? = some c → c.prog = .ask q next → P (f c q next)) : P (s.waiting n f) := by
  unfold State.waiting
  split
  · exact hs
  · rename_i c hc
    split
    · rename_i q next hp
      exact hf c q next hc hp
    · exact hs
    · exact hs

/-- a new call -/
theorem callOk_start (c : Cluster σ δ) (token : String) (spec : SecretSpec) (polls : ℕ) :
    CallOk E c ⟨token, spec, ensureSecret E.hash polls token spec, []⟩ := by
  refine ⟨?_, ?_, by simp, by simp⟩
  · intro s hs
    exact ensureSecret_follows polls hs
  · intro hnone
    have hprog : ensureSecret (σ := σ) (δ := δ) E.hash polls token spec = .ret (unverified spec, some "invalid Secret") := by
      unfold ensureSecret
      rw [hnone]
    refine ⟨?_, ?_⟩
    · intro q next hask
      rw [hprog] at hask
      cases hask
    · intro r hret
      rw [hprog] at hret
      cases hret
      rfl

theorem EnforceInv.call (h : EnforceInv E s) (token : String) (spec : SecretSpec) (polls : ℕ) :
    EnforceInv E (step E s (.call token spec polls)) := by
  have hold : ∀ {m t i secret}, Calls s m t i secret → Calls (step E s (.call token spec polls)) m t i secret := by
    rintro m t i secret ⟨hi, ht, hsecret⟩
    refine ⟨?_, ht, hsecret⟩
    rw [step, List.getElem?_append_left (List.getElem?_eq_some_iff.mp hi).1]
    exact hi
  refine ⟨?_, ?_, ?_⟩
  · intro m i hi
    rw [step, List.getElem?_append] at hi
    split_ifs at hi with hm
    · exact h.calls m i hi
    · rw [List.getElem?_singleton] at hi
      split_ifs at hi
      obtain rfl := Option.some.inj hi
      exact callOk_start s.cluster token spec polls
  · intro m t q hq
    obtain ⟨i, secret, hi, hrest⟩ := h.network m t q hq
    exact ⟨i, secret, hold hi, hrest⟩
  · intro w hw m t hauthor
    obtain ⟨i, secret, hi, htouches⟩ := h.writes w hw m t hauthor
    exact ⟨i, secret, hold hi, htouches⟩

/-- **One step keeps the invariant.** -/
theorem inv_step (h : EnforceInv E s) (a : Act σ δ) : EnforceInv E (step E s a) := by
  cases a with
  | call token spec polls => exact h.call token spec polls
  | serve n =>
    apply waiting_cases h
    intro k q next hk hp
    obtain ⟨secret, hspec, hq, -⟩ := (h.calls n k hk).pending hp
    have hwrite := h.carry ⟨hk, rfl, hspec⟩ hq
    have hknown : Known (s.write (some (n, k.token)) (s.cluster.change E q)).cluster
        (note q (s.cluster.answer q) k.history) := by
      have hanswer := (h.calls n k hk).known.note_answer q
      cases s.cluster.change E q with
      | none => exact hanswer
      | some ch => exact hanswer.apply ch
    exact hwrite.reply (by rw [State.write_calls]; exact hk) hp _ hknown
  | refuse n e =>
    apply waiting_cases h
    intro k q next hk hp
    exact h.reply hk hp _ ((h.calls n k hk).known.note_error q e)
  | lose n =>
    apply waiting_cases h
    intro k q next hk hp
    obtain ⟨secret, hspec, hq, -⟩ := (h.calls n k hk).pending hp
    have hreply := h.reply hk hp (.error .other) ((h.calls n k hk).known.note_error q .other)
    exact hreply.float (getElem?_set_call hk) hspec (hq.mono _ _ fun e he => List.mem_append_left _ he)
      (.inl (by simp [note]))
  | abandon n =>
    apply waiting_cases h
    intro k q next hk hp
    obtain ⟨secret, hspec, hq, -⟩ := (h.calls n k hk).pending hp
    have hstopped : CallOk E s.cluster { k with prog := .stop } :=
      ⟨fun _ _ => trivial, fun _ => ⟨by simp, by simp⟩, (h.calls n k hk).known⟩
    have hupdate := h.update hk hstopped rfl rfl (fun _ he => he) fun _ => rfl
    exact hupdate.float (getElem?_set_call hk) hspec hq (.inr rfl)
  | arrive i =>
    simp only [step]
    cases hi : s.network[i]? with
    | none => exact h
    | some m =>
      obtain ⟨n, t, q⟩ := m
      obtain ⟨k, secret, hk, hq, -⟩ := h.network n t q (List.mem_of_getElem? hi)
      have hwrite := h.carry hk hq
      refine ⟨hwrite.calls, ?_, hwrite.writes⟩
      intro m t' q' hq'
      refine hwrite.network m t' q' ?_
      rw [State.write_network]
      exact (List.eraseIdx_sublist _ _).subset hq'
  | other ch =>
    show EnforceInv E (s.write none (some ch))
    apply h.write
    intro _ _ n t hauthor
    cases hauthor

theorem inv_run (E : Env σ) (c : Cluster σ δ) (acts : List (Act σ δ)) : EnforceInv E (run E c acts) := by
  suffices h : ∀ s, EnforceInv E s → EnforceInv E (acts.foldl (step E) s) from h _ ⟨by simp, by simp, by simp⟩
  induction acts with
  | nil => exact fun _ h => h
  | cons a acts ih => exact fun s h => ih _ (inv_step h a)

end Inv

/-! ## Restarts -/

/-- the mark of a Deployment's template; empty if there is none -/
def operationAt (n : Name) (c : Cluster σ δ) : String := ((find n c.deployments).map fun x => x.2.operation).getD ""

/-- a write of the Deployment by a call with this token -/
def Write.restarts (token : String) (n : Name) (w : Write σ δ) : Bool :=
  (w.author.any fun a => a.2 = token) && match w.change with
    | .deployment m _ => m = n
    | .secret _ _ => false

/-- nobody else changes the mark -/
def OthersKeep (token : String) (n : Name) (writes : List (Write σ δ)) : Prop :=
  ∀ w ∈ writes, (∀ a, w.author = some a → a.2 ≠ token) → operationAt n (w.before.apply w.change) = operationAt n w.before

section Restarts
variable {E : Env σ} {s : State σ δ} {token : String} {n : Name}

theorem lookup_put {α : Type} (k : String) (v : α) (m : List (String × α)) :
    (Sequences.put k v m).lookup k = some v := by
  induction m with
  | nil => simp [Sequences.put]
  | cons p m ih =>
    obtain ⟨k', v'⟩ := p
    simp only [Sequences.put]
    split_ifs with hlt heq
    · simp
    · simp
    · have hne : (k == k') = false := by simpa using heq
      rw [List.lookup_cons, hne]
      exact ih

theorem operation_marked (d : Deployment δ) (operation : String) : (d.marked operation).operation = operation := by
  simp [Deployment.operation, Deployment.marked, lookup_put]

/-- a change of something else -/
theorem operationAt_apply {c : Cluster σ δ} {ch : Change σ δ} (h : ∀ d, ch ≠ .deployment n d) :
    operationAt n (c.apply ch) = operationAt n c := by
  cases ch with
  | secret m o => rfl
  | deployment m d =>
    have hne : m ≠ n := by
      rintro rfl
      exact h d rfl
    simp [operationAt, Cluster.apply, find_write_ne _ _ hne]

/-- at most one write: of a call within its limits, or of somebody else -/
def Writes (E : Env σ) (s s' : State σ δ) : Prop :=
  ∃ author o, s'.cluster = (s.write author o).cluster ∧ s'.writes = (s.write author o).writes ∧
    ∀ ch, o = some ch → ∀ m t, author = some (m, t) → ∃ secret, Touches E t secret s.cluster ch

theorem writes_refl (s : State σ δ) : Writes E s s := ⟨none, none, rfl, rfl, by simp⟩

theorem EnforceInv.carries (h : EnforceInv E s) {m : ℕ} {k : Call σ δ} {secret : KubernetesSecret}
    (hk : Calls s m token k secret) {q : Request σ δ} (hq : Permitted (E.hash token) secret q k.history) {s' : State σ δ}
    (hcluster : s'.cluster = (s.write (some (m, token)) (s.cluster.change E q)).cluster)
    (hwrites : s'.writes = (s.write (some (m, token)) (s.cluster.change E q)).writes) : Writes E s s' := by
  refine ⟨some (m, token), s.cluster.change E q, hcluster, hwrites, ?_⟩
  intro ch hch m' t' heq
  simp only [Option.some.injEq, Prod.mk.injEq] at heq
  obtain ⟨rfl, rfl⟩ := heq
  exact ⟨secret, change_touches hq (h.calls _ _ hk.1).known hch⟩

theorem step_writes (h : EnforceInv E s) (a : Act σ δ) : Writes E s (step E s a) := by
  cases a with
  | call t spec polls => exact writes_refl s
  | serve m =>
    apply waiting_cases (writes_refl s)
    intro k q next hk hp
    obtain ⟨secret, hspec, hq, -⟩ := (h.calls m k hk).pending hp
    exact h.carries ⟨hk, rfl, hspec⟩ hq rfl rfl
  | refuse m e => exact waiting_cases (writes_refl s) fun _ _ _ _ _ => writes_refl s
  | lose m => exact waiting_cases (writes_refl s) fun _ _ _ _ _ => writes_refl s
  | abandon m => exact waiting_cases (writes_refl s) fun _ _ _ _ _ => writes_refl s
  | arrive i =>
    simp only [step]
    cases hi : s.network[i]? with
    | none => exact writes_refl s
    | some x =>
      obtain ⟨m, t, q⟩ := x
      obtain ⟨k, secret, hk, hq, -⟩ := h.network m t q (List.mem_of_getElem? hi)
      exact h.carries hk hq rfl rfl
  | other ch => exact ⟨none, some ch, rfl, rfl, by simp⟩

theorem restarts_iff {w : Write σ δ} : w.restarts token n = true ↔
    ∃ m d, w.author = some (m, token) ∧ w.change = .deployment n d := by
  obtain ⟨author, before, change⟩ := w
  constructor
  · intro h
    simp only [Write.restarts, Bool.and_eq_true] at h
    obtain ⟨hauthor, hchange⟩ := h
    cases author with
    | none => simp at hauthor
    | some a =>
      cases change with
      | secret m o => cases hchange
      | deployment m d =>
        obtain rfl : m = n := by simpa using hchange
        obtain rfl : a.2 = token := by simpa using hauthor
        exact ⟨a.1, d, rfl, rfl⟩
  · rintro ⟨m, d, rfl, rfl⟩
    simp [Write.restarts]

/-- how often calls with this token have written the Deployment -/
def State.restarts (s : State σ δ) (token : String) (n : Name) : ℕ := (s.writes.filter (·.restarts token n)).length

/-- the template was marked at most once, and still carries the mark if it was -/
def Once (E : Env σ) (token : String) (n : Name) (s : State σ δ) : Prop :=
  s.restarts token n = 0 ∨ (s.restarts token n = 1 ∧ operationAt n s.cluster = E.hash token)

theorem Once.write (h : Once E token n s) {author : Option (ℕ × String)} {ch : Change σ δ}
    (hch : ∀ m t, author = some (m, t) → ∃ secret, Touches E t secret s.cluster ch)
    (hothers : OthersKeep token n (s.write author (some ch)).writes) : Once E token n (s.write author (some ch)) := by
  let w : Write σ δ := ⟨author, s.cluster, ch⟩
  have hcount : (s.write author (some ch)).restarts token n = s.restarts token n + if w.restarts token n then 1 else 0 := by
    simp only [State.restarts, State.write, List.filter_cons]
    split_ifs with hw
    · rw [List.length_cons]
    · rfl
  cases hw : w.restarts token n with
  | false =>
    -- the mark stays, because the write is about something else or by somebody else
    have hsame : operationAt n (s.cluster.apply ch) = operationAt n s.cluster := by
      by_cases hd : ∀ d, ch ≠ .deployment n d
      · exact operationAt_apply hd
      · push Not at hd
        obtain ⟨d, rfl⟩ := hd
        apply hothers w List.mem_cons_self
        rintro a ha rfl
        have hmarks : w.restarts a.2 n = true := restarts_iff.mpr ⟨a.1, d, ha, rfl⟩
        rw [hw] at hmarks
        cases hmarks
    rw [hw, if_neg (by simp), Nat.add_zero] at hcount
    rw [Once, hcount]
    exact h.imp_right fun h => ⟨h.1, hsame.trans h.2⟩
  | true =>
    obtain ⟨m, d, hauthor, rfl⟩ := restarts_iff.mp hw
    obtain ⟨secret, -, -, v, current, hfind, hop, rfl⟩ := hch m token hauthor
    have hbefore : operationAt n s.cluster = current.operation := by
      rw [operationAt, hfind]
      rfl
    rw [hw, if_pos rfl] at hcount
    -- a template that is marked now was not marked before
    rcases h with hzero | ⟨-, hmarked⟩
    · right
      refine ⟨by omega, ?_⟩
      show operationAt n (s.cluster.apply (.deployment n _)) = _
      rw [operationAt, Cluster.apply, find_write]
      exact operation_marked current (E.hash token)
    · exact absurd (hbefore.symm.trans hmarked) hop

theorem once_step (hi : EnforceInv E s) (h : Once E token n s) (a : Act σ δ)
    (hothers : OthersKeep token n (step E s a).writes) : Once E token n (step E s a) := by
  obtain ⟨author, o, hcluster, hwrites, htouches⟩ := step_writes hi a
  rw [hwrites] at hothers
  have hwrite : Once E token n (s.write author o) := by
    cases o with
    | none => exact h
    | some ch => exact h.write (htouches ch rfl) hothers
  rw [Once, State.restarts, hcluster, hwrites]
  exact hwrite

/-- a step only adds writes -/
theorem step_grows (hi : EnforceInv E s) (a : Act σ δ) : s.writes <:+ (step E s a).writes := by
  obtain ⟨author, o, -, hwrites, -⟩ := step_writes hi a
  rw [hwrites]
  cases o with
  | none => exact List.suffix_refl _
  | some ch => exact List.suffix_cons _ _

theorem once_run (E : Env σ) (c : Cluster σ δ) (acts : List (Act σ δ)) (token : String) (n : Name)
    (hothers : OthersKeep token n (run E c acts).writes) : Once E token n (run E c acts) := by
  induction acts using List.reverseRecOn with
  | nil => exact .inl rfl
  | append_singleton acts a ih =>
    have hinv := inv_run E c acts
    simp only [run, List.foldl_append, List.foldl_cons, List.foldl_nil] at hothers ⊢
    refine once_step hinv (ih ?_) a hothers
    intro w hw
    exact hothers w ((step_grows hinv a).subset hw)

end Restarts

/-- **Enforcing a Secret touches only what was asked and restarts at most once.** For every content of the cluster, every
interleaving of calls and other writers, and every pattern of refused, lost and late requests. -/
theorem secret_enforced (E : Env σ) (c : Cluster σ δ) (acts : List (Act σ δ)) :
    let s := run E c acts
    -- every write of a call changes the type and data of its Secret or the mark of its Deployment's template
    (∀ w ∈ s.writes, ∀ n t, w.author = some (n, t) →
      ∃ k secret, Calls s n t k secret ∧ Touches E t secret w.before w.change) ∧
    (∀ (n : ℕ) k r, s.calls[n]? = some k → k.prog = .ret r → Known s.cluster k.history ∧
      -- "verified" comes from a read after the last write of the Secret, and no such write is still under way
      (r.1.secret = .verified → ∃ secret, k.spec.normalize = some secret ∧ Verified secret k.history ∧
        ∀ t q, (n, t, q) ∈ s.network → q.writesSecret = false) ∧
      -- "ready" comes from a read of the Deployment with the mark of this token
      (r.1.rollout = .ready → ∃ secret, k.spec.normalize = some secret ∧ Ready (E.hash k.token) secret k.history)) ∧
    -- if nobody else changes the mark, all calls with one token write the Deployment at most once
    ∀ token n, OthersKeep token n s.writes → s.restarts token n ≤ 1 := by
  intro s
  have hinv : EnforceInv E s := inv_run E c acts
  refine ⟨hinv.writes, ?_, ?_⟩
  · intro n k r hk hret
    have hok := hinv.calls n k hk
    refine ⟨hok.known, ?_, ?_⟩
    · intro hverified
      obtain ⟨secret, hspec, hreports⟩ := hok.reports hret (.inl hverified)
      obtain ⟨hread, hsettled⟩ := hreports.verified hverified
      refine ⟨secret, hspec, hread, ?_⟩
      intro t q hq
      obtain ⟨k', -, ⟨hk', -⟩, -, hgone⟩ := hinv.network n t q hq
      obtain rfl := Option.some.inj (hk.symm.trans hk')
      rcases hgone with hlost | hstop
      · by_contra hw
        exact hsettled _ hlost (by simpa using hw) rfl
      · rw [hret] at hstop
        cases hstop
    · intro hready
      obtain ⟨secret, hspec, hreports⟩ := hok.reports hret (.inr hready)
      exact ⟨secret, hspec, hreports.ready hready⟩
  · intro token n hothers
    have honce : Once E token n s := once_run E c acts token n hothers
    rcases honce with hzero | ⟨hone, -⟩ <;> omega

namespace Sample

def env : Env Unit := ⟨id, ()⟩

def spec : SecretSpec := ⟨"default", "config", "Opaque", [], [], "collector"⟩

def cluster : Cluster Unit Unit :=
  ⟨[], [(("default", "collector"), some ⟨"uid", 1, [], some 1, 2, 1, 1, 1, [], ()⟩)]⟩

/-- creates and verifies the Secret, and reads the Deployment; the answer to the update is lost -/
def lost : List (Act Unit Unit) := [.call "op" spec 1, .serve 0, .serve 0, .serve 0, .serve 0, .lose 0]

/-- a retry that is answered five times -/
def retry : List (Act Unit Unit) := [.call "op" spec 1, .serve 1, .serve 1, .serve 1, .serve 1, .serve 1]

-- the lost update arrives before the retry, which finds the mark, or after it, and is refused
example : (run env cluster (lost ++ .arrive 0 :: retry)).restarts "op" ("default", "collector") = 1 ∧
    (run env cluster (lost ++ retry ++ [.arrive 0])).restarts "op" ("default", "collector") = 1 := by
  decide +kernel

end Sample

end Crane.Subd.Kubernetes
