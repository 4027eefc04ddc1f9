/-
Cluster joins that are refused (`internal/subd/cluster_join.go`).

The handler binds the request in memory before it knows whether the host can join at all, and it lowers the outcome to
"applying" before the progress is stored. A request that is refused on either way leaves a memory that no file has: it
blocks other operations, or hides a membership, until the agent restarts. `Refusal` is a way through the handler without
a call of JoinCluster; `Mirrors` says that memory is what a restart would load, which holds as long as the host can join
and its join state is stored.
-/
import Crane.Subd.Joins

namespace Crane.Subd

variable {H : Type} {x : Env H}

deriving instance DecidableEq for Memory

/-! ## Refusals -/

/-- answers on the way to a refusal: JoinCluster is not called, and progress fails to be stored before the rename -/
def Effect.refuses : (q : Effect H) → q.Answer → Prop
  | .joinCluster _, _ => False
  | .persistJoin _, r => r = .failed
  | _, _ => True

/-- the join state is stored; where it says "applied" the write may fail before the rename -/
def Effect.storesJoin : (q : Effect H) → q.Answer → Prop
  | .persistJoin j, r => r = .synced ∨ (j.outcome = .applied ∧ r = .failed)
  | _, _ => True

/-- a request that is answered before JoinCluster was called -/
def Refusal [DecidableEq H] (x : Env H) (ok : (q : Effect H) → q.Answer → Prop) (r : Option ClusterJoinRequest)
    (m : Memory H) (w : World H) (m' : Memory H) (w' : World H) : Prop :=
  (handle x m (.clusterJoin r)).Path (fun q a => q.refuses a ∧ ok q a) perform w m' w'

/-! ## Memory and disk -/

/-- the join file has one version, which a restart accepts -/
structure Stored (x : Env H) (w : World H) : Prop where
  single : w.join.replaced = []
  valid : ∀ j, w.join.current = some j → validateJoinState x j = true

/-- memory is what a restart would load -/
structure Mirrors (x : Env H) (join : Option (ClusterJoinState H)) (w : World H) : Prop extends Stored x w where
  loads : loadJoin x w.join.current = some join

section Mirrors
variable {w : World H} {join : Option (ClusterJoinState H)} {j : ClusterJoinState H} {r : ClusterJoinRequest}

theorem Stored.of_join {v : World H} (h : Stored x w) (hj : v.join = w.join) : Stored x v := by
  refine ⟨?_, ?_⟩
  · rw [hj]
    exact h.single
  · rw [hj]
    exact h.valid

theorem Mirrors.of_join {v : World H} (h : Mirrors x join w) (hj : v.join = w.join) : Mirrors x join v := by
  refine ⟨h.toStored.of_join hj, ?_⟩
  rw [hj]
  exact h.loads

/-- whatever a crash leaves of a write is a version that a restart accepts -/
theorem Stored.recover (h : Stored x w) (hj : validateJoinState x j = true) (a : Write) (k : ℕ) :
    Stored x { w with join := (w.join.write j a).recover k } := by
  refine ⟨rfl, ?_⟩
  intro j' hj'
  have hmem : some j' ∈ ((w.join.write j a).recover k).versions := hj' ▸ List.mem_cons_self
  have hall := File.forall_write (P := fun v => ∀ i, v = some i → validateJoinState x i = true) (f := w.join) (a := j)
    (by rintro i ⟨⟩; exact hj) (by
      intro v hv i hi
      rw [File.versions, h.single, List.mem_singleton] at hv
      exact h.valid i (hv ▸ hi)) a
  exact hall (some j') (File.mem_versions_recover hmem) j' rfl

theorem Stored.recover_same (h : Stored x w) (k : ℕ) : (w.join.recover k) = w.join := by
  have hsingle := h.single
  cases hw : w.join with
  | mk current replaced =>
    rw [hw] at hsingle
    subst hsingle
    cases k <;> simp [File.recover, File.versions]

/-- a stored state is what a restart loads, with an outcome that was in progress interrupted -/
theorem Mirrors.synced (w : World H) (hj : validateJoinState x j = true) :
    Mirrors x (some { j with outcome := j.outcome.resumed }) { w with join := w.join.write j .synced } := by
  refine ⟨⟨rfl, ?_⟩, ?_⟩
  · rintro j' ⟨⟩
    exact hj
  · simp [File.write, loadJoin, ClusterJoinState.load, hj]

/-- another fence and outcome -/
theorem validate_relabel {f : ℤ} {o : Outcome} (hj : validateJoinState x j = true) (hf : 0 < f) (ho : o ≠ .unconfigured) :
    validateJoinState x { j with fence := f, outcome := o } = true := by
  simp only [validateJoinState, Bool.and_eq_true, decide_eq_true_eq] at hj ⊢
  obtain ⟨⟨⟨⟨⟨hreg, -⟩, hop⟩, hend⟩, hca⟩, -⟩ := hj
  exact ⟨⟨⟨⟨⟨hreg, hf⟩, hop⟩, hend⟩, hca⟩, ho⟩

/-- the contract of an accepted request -/
theorem validate_bound (hurl : x.validEndpoint "" = false) (hr : validateClusterJoin x r = true) :
    validateJoinState x (bound x r) = true := by
  simp only [validateClusterJoin, validateJoinState, bound, Bool.and_eq_true, decide_eq_true_eq] at hr ⊢
  obtain ⟨⟨⟨⟨⟨hreg, hfence⟩, hop⟩, -⟩, hca⟩, hend⟩ := hr
  refine ⟨⟨⟨⟨⟨hreg, decide_eq_true hfence⟩, hop⟩, decide_eq_true ?_⟩, hca⟩, decide_eq_true (by simp)⟩
  intro hempty
  rw [hempty, hurl] at hend
  cases hend

theorem Mirrors.valid_memory (h : Mirrors x (some j) w) : validateJoinState x j = true := by
  have hloads := h.loads
  cases hc : w.join.current with
  | none => simp [hc, loadJoin] at hloads
  | some i =>
    have hi := h.valid i hc
    obtain rfl : { i with outcome := i.outcome.resumed } = j := by
      simpa [hc, loadJoin, ClusterJoinState.load, hi] using hloads
    have hfence : 0 < i.fence := by
      simp only [validateJoinState, Bool.and_eq_true, decide_eq_true_eq] at hi
      exact hi.1.1.1.1.2
    apply validate_relabel (f := i.fence) hi hfence
    simp only [validateJoinState, Bool.and_eq_true, decide_eq_true_eq] at hi
    intro ho
    cases hout : i.outcome <;> simp_all [Outcome.resumed]

end Mirrors

/-! ## The handlers -/

variable [DecidableEq H]

/-- the agent, where the join state is stored -/
abbrev storing (x : Env H) := (service x).restrict Effect.storesJoin

abbrev Storing {α : Type} (x : Env H) (post : α → World H → Prop) (p : Handler H α) (w : World H) : Prop :=
  (storing x).Maintains (Stored x) (Stored x) post (p.restrict Effect.storesJoin) w

section Handlers
variable {w : World H} {α : Type} {post : α → World H → Prop} {join : Option (ClusterJoinState H)}
  {j : ClusterJoinState H} {r : ClusterJoinRequest}

omit [DecidableEq H] in
theorem Stored.crash (h : Stored x w) (k : Crash) : Stored x (Subd.crash k none w) :=
  h.of_join (h.recover_same k.join)

/-- an effect that does not touch the join file -/
theorem Stored.guard {q : Effect H} (h : Stored x w) (hq : (begin q w).join = w.join) :
    (storing x).Guard (Stored x) (Stored x) q w := by
  refine ⟨h, ?_⟩
  intro k
  have hbegun := h.of_join hq
  cases hk : k.begun with
  | true => simpa [storing, Service.restrict, service, Subd.crash, hk] using hbegun.crash k
  | false => simpa [storing, Service.restrict, service, Subd.crash, hk] using h.crash k

theorem Stored.guard_persist (h : Stored x w) (hj : validateJoinState x j = true) :
    (storing x).Guard (Stored x) (Stored x) (.persistJoin j) w := by
  refine ⟨h, ?_⟩
  intro k
  cases hk : k.begun with
  | true =>
    have hrecover := h.recover hj .renamed k.join
    exact ⟨by simpa [storing, Service.restrict, service, Subd.crash, hk, begin] using hrecover.single,
      by simpa [storing, Service.restrict, service, Subd.crash, hk, begin] using hrecover.valid⟩
  | false => simpa [storing, Service.restrict, service, Subd.crash, hk] using h.crash k

/-- the answer to a join request, which changes nothing -/
theorem storing_respond {code : ℕ} (h : Mirrors x join w) :
    Storing x (Mirrors x) (ask (.respond (.join r code)) >>= fun _ => .ret join) w :=
  ⟨h.toStored.guard rfl, fun _ => h.of_join rfl⟩

theorem joinContract_storing (hjoins : x.joins = true) (h : Stored x w) (hj : validateJoinState x j = true)
    (hf : 0 < r.fence) : Storing x (Mirrors x) (joinContract x j r) w := by
  have hvalid : ∀ o, o ≠ .unconfigured → validateJoinState x { j with fence := r.fence, outcome := o } = true :=
    fun o ho => validate_relabel hj hf ho
  unfold joinContract
  rw [if_pos hjoins]
  refine ⟨h.guard_persist (hvalid .applying (by simp)), ?_⟩
  rintro ⟨a, ha⟩
  obtain rfl : a = .synced := by simpa [Effect.storesJoin] using ha
  have hprogress := Mirrors.synced w (hvalid .applying (by simp))
  refine ⟨hprogress.toStored.guard rfl, ?_⟩
  rintro ⟨ok, -⟩
  cases ok with
  | false =>
    have hfailing := hprogress.of_join (v := perform (.joinCluster r) false
      (perform (.persistJoin { j with fence := r.fence, outcome := .applying }) .synced w)) rfl
    refine ⟨hfailing.toStored.guard_persist (hvalid .failed (by simp)), ?_⟩
    rintro ⟨a, ha⟩
    obtain rfl : a = .synced := by simpa [Effect.storesJoin] using ha
    exact storing_respond (Mirrors.synced _ (hvalid .failed (by simp)))
  | true =>
    have hjoined := hprogress.of_join (v := perform (.joinCluster r) true
      (perform (.persistJoin { j with fence := r.fence, outcome := .applying }) .synced w)) rfl
    refine ⟨hjoined.toStored.guard_persist (hvalid .applied (by simp)), ?_⟩
    rintro ⟨a, ha⟩
    cases a with
    | synced => exact storing_respond (Mirrors.synced _ (hvalid .applied (by simp)))
    | failed => exact storing_respond (hjoined.of_join rfl)
    | renamed => simp [Effect.storesJoin] at ha

theorem clusterJoin_storing (hjoins : x.joins = true) (hurl : x.validEndpoint "" = false) (h : Mirrors x join w)
    (r : Option ClusterJoinRequest) : Storing x (Mirrors x) (clusterJoin x join r) w := by
  unfold clusterJoin
  split
  · exact ⟨h.toStored.guard rfl, fun _ => h.of_join rfl⟩
  · rename_i r' hr'
    obtain ⟨-, hvalid⟩ := Option.filter_eq_some_iff.mp hr'
    have hfence : 0 < r'.fence := by
      simp only [validateClusterJoin, Bool.and_eq_true, decide_eq_true_eq] at hvalid
      exact hvalid.1.1.1.1.2
    split
    · exact joinContract_storing hjoins h.toStored (validate_bound hurl hvalid) hfence
    · rename_i j'
      split_ifs
      · exact storing_respond h
      · exact joinContract_storing hjoins h.toStored h.valid_memory hfence

/-- every other effect leaves the join file alone -/
theorem Mirrors.plain {q : Effect H} (hq : ∀ j, q ≠ .persistJoin j) (h : Mirrors x join w) :
    (storing x).Guard (Stored x) (Stored x) q w ∧ ∀ a, Mirrors x join ((storing x).perform q a w) := by
  cases q with
  | persistJoin j => exact absurd rfl (hq j)
  | _ => exact ⟨h.toStored.guard rfl, fun _ => h.of_join rfl⟩

theorem boot_storing (h : Stored x w) : Storing x (fun m w => Mirrors x m.join w) (boot x w) w := by
  unfold boot
  cases hm : newServer x w with
  | none => exact h
  | some m =>
    have hmirrors : Mirrors x m.join w := by
      unfold newServer at hm
      obtain ⟨saved, -, hm⟩ := Option.bind_eq_some_iff.mp hm
      obtain ⟨join, hjoin, hm⟩ := Option.bind_eq_some_iff.mp hm
      obtain rfl : (⟨saved, join⟩ : Memory H) = m := Option.some.inj hm
      exact ⟨h, hjoin⟩
    refine ⟨h.guard rfl, ?_⟩
    rintro ⟨published, -⟩
    cases published with
    | true => exact hmirrors.of_join rfl
    | false => exact h.of_join rfl

omit [DecidableEq H] in
theorem clusterMembership_apart (join : Option (ClusterJoinState H)) (challenge : Option String) :
    (clusterMembership x join challenge).Goes fun q => ∀ j, q ≠ .persistJoin j := by
  unfold clusterMembership
  split
  · exact ⟨by simp, fun _ => trivial⟩
  · split
    · exact ⟨by simp, fun _ => trivial⟩
    · refine ⟨by simp, ?_⟩
      intro ok
      cases ok <;> exact ⟨by simp, fun _ => trivial⟩

theorem storing_keeps (hjoins : x.joins = true) (hurl : x.validEndpoint "" = false) :
    (storing x).Keeps (Stored x) (Stored x) fun m w => Mirrors x m.join w where
  down h := ⟨h, h.crash⟩
  ready h := ⟨h.toStored, h.toStored.crash⟩
  boot := boot_storing
  handle {m w} c h := by
    show (storing x).Maintains _ _ _ ((handle x m c).restrict _) w
    cases c with
    | update u =>
      simp only [handle, Prog.bind_eq, Prog.restrict_bind]
      apply Service.Maintains.bind
      refine Service.maintains_of_asks (updateState_plain m.saved u).restrict ?_ (fun _ _ h => h) h
      intro q w hq hw
      refine hw.plain ?_
      rintro j rfl
      exact hq
    | clusterJoin r =>
      simp only [handle, Prog.bind_eq, Prog.restrict_bind]
      exact Service.Maintains.bind (Service.Maintains.mono (fun _ _ h => h) (clusterJoin_storing hjoins hurl h r))
    | clusterMembership challenge =>
      simp only [handle, Prog.bind_eq, Prog.restrict_bind]
      apply Service.Maintains.bind
      refine Service.maintains_of_asks (clusterMembership_apart m.join challenge).restrict ?_ (fun _ _ h => h) h
      intro q w hq hw
      exact hw.plain hq

end Handlers

/-! ## Refused requests -/

section Refused
variable {w w' : World H} {join join' : Option (ClusterJoinState H)}

omit [DecidableEq H] in
/-- the way of an answer -/
theorem refused_respond {p : Reply H}
    (h : (ask (.respond p) >>= fun _ => .ret join).Path (fun q a => q.refuses a ∧ q.storesJoin a) perform w join' w') :
    join' = join ∧ w'.join = w.join := by
  cases h with
  | ask r hr h =>
    cases h
    exact ⟨rfl, rfl⟩

omit [DecidableEq H] in
/-- a host that can join refuses no request that belongs to its contract, if the progress can be stored -/
theorem joinContract_not_refused {j : ClusterJoinState H} {r : ClusterJoinRequest} (hjoins : x.joins = true) :
    ¬(joinContract x j r).Path (fun q a => q.refuses a ∧ q.storesJoin a) perform w join' w' := by
  unfold joinContract
  rw [if_pos hjoins]
  intro h
  cases h with
  | ask a ha h =>
    obtain ⟨hfailed, hstored⟩ := ha
    simp only [Effect.refuses, Effect.storesJoin] at hfailed hstored
    rcases hstored with hsynced | ⟨happlied, -⟩
    · simp [hsynced] at hfailed
    · simp at happlied

theorem clusterJoin_refused {r : Option ClusterJoinRequest} (hjoins : x.joins = true)
    (h : (clusterJoin x join r).Path (fun q a => q.refuses a ∧ q.storesJoin a) perform w join' w') :
    join' = join ∧ w'.join = w.join := by
  unfold clusterJoin at h
  split at h
  · exact refused_respond h
  · split at h
    · exact absurd h (joinContract_not_refused hjoins)
    · split_ifs at h
      · exact refused_respond h
      · exact absurd h (joinContract_not_refused hjoins)

/-! What the handler does with a valid request -/

variable {m : Memory H} {r : ClusterJoinRequest} {j : ClusterJoinState H}

theorem handle_binds (hvalid : validateClusterJoin x r = true) (hm : m.join = none) : handle x m (.clusterJoin (some r)) =
    (joinContract x (bound x r) r).bind fun join => .ret { m with join := join } := by
  simp [handle, clusterJoin, Option.filter, hvalid, hm]

theorem handle_retries (hvalid : validateClusterJoin x r = true) (hm : m.join = some j)
    (hj : j.operationId = r.operationId ∧ j.contractHash = x.fingerprint r ∧ j.fence ≤ r.fence) :
    handle x m (.clusterJoin (some r)) = (joinContract x j r).bind fun join => .ret { m with join := join } := by
  simp [handle, clusterJoin, Option.filter, hvalid, hm, hj.1, hj.2.1, not_lt.mpr hj.2.2]

theorem handle_refuses (hvalid : validateClusterJoin x r = true) (hm : m.join = some j)
    (hj : j.contractHash ≠ x.fingerprint r) : handle x m (.clusterJoin (some r)) =
      .ask (.respond (.join r 409)) fun _ => .ret m := by
  obtain ⟨saved, join⟩ := m
  obtain rfl : join = some j := hm
  simp [handle, clusterJoin, Option.filter, hvalid, hj, ask]

end Refused

omit [DecidableEq H] in
theorem stored_init : Stored x ({} : World H) := ⟨rfl, by simp⟩

/-- **A refused join leaves the binding untouched** on a host that can join, if the join state is stored whenever it is
written: memory and the join file are what they were, and what every restart would load. -/
theorem refused_join_kept (x : Env H) (hurl : x.validEndpoint "" = false) (hjoins : x.joins = true) {acts : List (Act H)}
    (hacts : ∀ a ∈ acts, a.Allowed Effect.storesJoin) {m : Memory H} {w : World H} (hrun : run x acts = ⟨w, .ready m⟩)
    {r : Option ClusterJoinRequest} {m' : Memory H} {w' : World H} (h : Refusal x Effect.storesJoin r m w m' w') :
    m'.join = m.join ∧ w'.join = w.join ∧ ∀ v ∈ w'.join.versions, loadJoin x v = some m'.join := by
  have hmirrors : Mirrors x m.join w := (storing_keeps hjoins hurl).run_ready stored_init hacts hrun
  obtain ⟨join, t, hpath, hret⟩ := Prog.path_bind h
  obtain ⟨rfl, hjoin⟩ := clusterJoin_refused hjoins hpath
  cases hret
  refine ⟨rfl, hjoin, ?_⟩
  intro v hv
  rw [hjoin, File.versions, hmirrors.single, List.mem_singleton] at hv
  rw [hv]
  exact hmirrors.loads

namespace Sample

/-- a host whose endpoints are not empty -/
def listening : Env Digest := { env with validEndpoint := (· ≠ "") }

/-- the agent has joined the cluster -/
def joined : List (Act Digest) :=
  [.start, .answer (.publish {}) true, .call (.clusterJoin (some (contract "c"))),
    .answer (.persistJoin (bound listening (contract "c"))) .synced, .answer (.joinCluster (contract "c")) true,
    .answer (.persistJoin { bound listening (contract "c") with outcome := .applied }) .synced,
    .answer (.respond (.join (contract "c") 200)) ()]

def member : Memory Digest := { join := some { bound listening (contract "c") with outcome := .applied } }

def memberWorld : World Digest where
  join := ⟨some { bound listening (contract "c") with outcome := .applied }, []⟩
  log := [.joined (contract "c"), .joining (contract "c"), .reported {}]

theorem joined_member : run listening joined = ⟨memberWorld, .ready member⟩ := by
  have hrun : (run listening joined).world = memberWorld ∧ (run listening joined).process.memory = some member := by
    decide +kernel
  exact Service.State.eq_ready hrun

theorem valid_contract : validateClusterJoin listening (contract "c") = true := by decide +kernel

theorem valid_other : validateClusterJoin listening (contract "d") = true := by decide +kernel

theorem contract_other : listening.fingerprint (contract "c") ≠ listening.fingerprint (contract "d") := by
  intro h
  have hregistration := (listening.contract_injective h).2.2
  simp [contract] at hregistration

theorem refusal_other : Refusal listening Effect.storesJoin (some (contract "d")) member memberWorld member memberWorld := by
  have hhandle : handle listening member (.clusterJoin (some (contract "d"))) =
      .ask (.respond (.join (contract "d") 409)) fun _ => .ret member := handle_refuses valid_other rfl contract_other
  rw [Refusal, hhandle]
  exact .ask () ⟨trivial, trivial⟩ (.ret _ _)

theorem refused_join_kept_member : member.join = member.join ∧ memberWorld.join = memberWorld.join ∧
    ∀ v ∈ memberWorld.join.versions, loadJoin listening v = some member.join :=
  refused_join_kept listening rfl rfl (by simp [joined, Service.Act.Allowed, Effect.storesJoin]) joined_member
    refusal_other

/-- a retry whose progress is not stored -/
theorem refusal_retry (join : Option (ClusterJoinState Digest)) (w : World Digest)
    (hj : ∀ j, join = some j → j.operationId = (contract "c").operationId ∧
      j.contractHash = listening.fingerprint (contract "c") ∧ j.fence ≤ (contract "c").fence) :
    Refusal listening (fun _ _ => True) (some (contract "c")) { join := join } w
      { join := some { join.getD (bound listening (contract "c")) with fence := 1, outcome := .applying } } w := by
  have hhandle : handle listening { join := join } (.clusterJoin (some (contract "c"))) =
      (joinContract listening (join.getD (bound listening (contract "c"))) (contract "c")).bind fun join =>
        .ret { join := join } := by
    cases join with
    | none => exact handle_binds valid_contract rfl
    | some j => exact handle_retries valid_contract rfl (hj j rfl)
  rw [Refusal, hhandle]
  exact .ask .failed ⟨rfl, trivial⟩ (.ask () ⟨trivial, trivial⟩ (.ret _ _))

/-- the progress of a join is not stored, and the request is refused. A first request stays in memory, so that another
operation is refused that a restarted agent would accept; a retry hides a membership that is on the disk -/
theorem refused_join_binds :
    run listening [.start, .answer (.publish {}) true] = ⟨{ log := [.reported {}] }, .ready {}⟩ ∧
    Refusal listening (fun _ _ => True) (some (contract "c")) {} { log := [.reported {}] }
      { join := some (bound listening (contract "c")) } { log := [.reported {}] } ∧
    loadJoin listening none = some none ∧
    (handle listening { join := some (bound listening (contract "c")) } (.clusterJoin (some (contract "d")))).process.pending =
      some (.respond (.join (contract "d") 409)) ∧
    (handle listening {} (.clusterJoin (some (contract "d")))).process.pending =
      some (.persistJoin (bound listening (contract "d"))) ∧
    run listening joined = ⟨memberWorld, .ready member⟩ ∧
    Refusal listening (fun _ _ => True) (some (contract "c")) member memberWorld
      { join := some (bound listening (contract "c")) } memberWorld ∧
    loadJoin listening memberWorld.join.current = some member.join ∧
    (handle listening { join := some (bound listening (contract "c")) } (.clusterMembership (some "challenge"))).process.pending =
      some (.respond (.membership 503)) := by
  have hmirrors : Mirrors listening member.join memberWorld :=
    (storing_keeps rfl rfl).run_ready stored_init (by simp [joined, Service.Act.Allowed, Effect.storesJoin]) joined_member
  refine ⟨rfl, refusal_retry none _ (by simp), rfl, ?_, ?_, joined_member,
    refusal_retry member.join _ (by simp [member, bound]), hmirrors.loads, rfl⟩
  · have hhandle : handle listening { join := some (bound listening (contract "c")) } (.clusterJoin (some (contract "d"))) =
        .ask (.respond (.join (contract "d") 409)) fun _ => .ret { join := some (bound listening (contract "c")) } :=
      handle_refuses valid_other rfl contract_other
    rw [hhandle]
    rfl
  · have hhandle : handle listening {} (.clusterJoin (some (contract "d"))) =
        (joinContract listening (bound listening (contract "d")) (contract "d")).bind fun join => .ret { join := join } :=
      handle_binds valid_other rfl
    rw [hhandle]
    rfl

end Sample

end Crane.Subd
