/-
A host joins one cluster contract in its life.

The contract is bound in memory before it is stored, and every accepted retry overwrites the fence, so memory and the
versions of the join file may differ. `JoinFits` relates one copy to the log: once JoinCluster was called, every copy
carries the operation and the fingerprint of that call and a fence that is no lower. A JoinCluster call comes after a
synced write, so no crash can bring back a copy without it.
-/
import Crane.Subd.Server

namespace Crane.Subd

variable {H : Type} (x : Env H)

/-! ## The log -/

/-- the fingerprint a challenge is answered for -/
def Env.proof (m : Membership) : H := x.contract m.endpoint m.caCertHash m.registration

/-- which calls of JoinCluster and answers to challenges may follow `past` -/
def JoinAllowed (past : List (Event H)) : Event H → Prop
  | .joining r => (∀ r', .joining r' ∈ past → r'.operationId = r.operationId ∧ x.fingerprint r' = x.fingerprint r ∧
      r'.fence ≤ r.fence) ∧ ∀ m, .proving m ∈ past → x.proof m = x.fingerprint r
  | .proving m => (∃ r, .joining r ∈ past) ∧ ∀ r, .joining r ∈ past → x.proof m = x.fingerprint r
  | _ => True

def JoinSound : List (Event H) → Prop
  | [] => True
  | e :: past => JoinAllowed x past e ∧ JoinSound past

variable {x}

/-! ## Copies of the join state -/

/-- a copy that agrees with every call of JoinCluster so far -/
structure JoinFits (x : Env H) (v : Option (ClusterJoinState H)) (log : List (Event H)) : Prop where
  joining : ∀ r, .joining r ∈ log → ∃ j, v = some j ∧ j.operationId = r.operationId ∧
    j.contractHash = x.fingerprint r ∧ r.fence ≤ j.fence
  contract : ∀ j, v = some j → j.contractHash = x.contract j.endpoint j.caCertHash j.registration
  applied : ∀ j, v = some j → j.outcome = .applied → ∃ r, .joining r ∈ log
  proving : ∀ m, .proving m ∈ log → ∃ j, v = some j ∧ j.contractHash = x.proof m

section JoinFits
variable {v : Option (ClusterJoinState H)} {j : ClusterJoinState H} {log : List (Event H)}

/-- one more event -/
theorem JoinFits.cons (h : JoinFits x v log) {a : Event H}
    (hj : ∀ r, a = .joining r → ∃ j, v = some j ∧ j.operationId = r.operationId ∧ j.contractHash = x.fingerprint r ∧
      r.fence ≤ j.fence)
    (hp : ∀ m, a = .proving m → ∃ j, v = some j ∧ j.contractHash = x.proof m) : JoinFits x v (a :: log) where
  joining r hr := (List.mem_cons.mp hr).elim (fun e => hj r e.symm) (h.joining r)
  contract := h.contract
  applied j hv ho := (h.applied j hv ho).imp fun _ => List.mem_cons_of_mem _
  proving m hm := (List.mem_cons.mp hm).elim (fun e => hp m e.symm) (h.proving m)

/-- the same contract with another outcome and a fence that is no lower -/
theorem JoinFits.relabel (h : JoinFits x (some j) log) {o : Outcome} {f : ℤ} (hf : j.fence ≤ f)
    (ho : o = .applied → ∃ r, .joining r ∈ log) : JoinFits x (some { j with fence := f, outcome := o }) log where
  joining r hr := by
    obtain ⟨j', hj', hop, hc, hle⟩ := h.joining r hr
    obtain rfl := Option.some.inj hj'
    exact ⟨_, rfl, hop, hc, hle.trans hf⟩
  contract j' hj' := by
    obtain rfl := Option.some.inj hj'
    exact h.contract j rfl
  applied j' hj' ho' := by
    obtain rfl := Option.some.inj hj'
    exact ho ho'
  proving m hm := by
    obtain ⟨j', hj', hc⟩ := h.proving m hm
    obtain rfl := Option.some.inj hj'
    exact ⟨_, rfl, hc⟩

/-- a copy without a contract: nothing was joined -/
theorem JoinFits.bound (h : JoinFits x none log) (r : ClusterJoinRequest) : JoinFits x (some (bound x r)) log where
  joining r' hr' := by
    obtain ⟨_, hj, -⟩ := h.joining r' hr'
    cases hj
  contract j hj := by
    obtain rfl := Option.some.inj hj
    rfl
  applied j hj ho := by
    obtain rfl := Option.some.inj hj
    cases ho
  proving m hm := by
    obtain ⟨_, hj, -⟩ := h.proving m hm
    cases hj

theorem JoinFits.load {v' : Option (ClusterJoinState H)} (h : JoinFits x v log)
    (hl : loadJoin x v = some v') : JoinFits x v' log := by
  cases v with
  | none =>
    obtain rfl : none = v' := by simpa [loadJoin] using hl
    exact h
  | some j =>
    simp only [loadJoin, ClusterJoinState.load] at hl
    split_ifs at hl with hvalid
    swap
    · cases hl
    obtain rfl : some { j with outcome := j.outcome.resumed } = v' := by simpa using hl
    refine h.relabel (f := j.fence) (o := j.outcome.resumed) le_rfl fun ho => h.applied j rfl ?_
    cases hj : j.outcome <;> simp_all [Outcome.resumed]

end JoinFits

/-! ## The invariant -/

structure JoinInv (x : Env H) (w : World H) : Prop where
  versions : ∀ v ∈ w.join.versions, JoinFits x v w.log
  sound : JoinSound x w.log

structure JoinMem (x : Env H) (join : Option (ClusterJoinState H)) (w : World H) : Prop extends JoinInv x w where
  fits : JoinFits x join w.log

section Steps
variable {w : World H} {join : Option (ClusterJoinState H)} {j : ClusterJoinState H} {r : ClusterJoinRequest}

theorem JoinInv.write (h : JoinInv x w) (hj : JoinFits x (some j) w.log) (a : Write) :
    JoinInv x { w with join := w.join.write j a } :=
  ⟨File.forall_write (P := fun v => JoinFits x v w.log) hj h.versions a, h.sound⟩

/-- an event that is neither a join nor an answer to a challenge -/
theorem JoinMem.cons (h : JoinMem x join w) {a : Event H} (hj : ∀ r, a ≠ .joining r) (hp : ∀ m, a ≠ .proving m) :
    JoinMem x join { w with log := a :: w.log } where
  versions v hv := (h.versions v hv).cons (fun r e => absurd e (hj r)) fun m e => absurd e (hp m)
  sound := ⟨by cases a <;> first | trivial | exact absurd rfl (hj _) | exact absurd rfl (hp _), h.sound⟩
  fits := h.fits.cons (fun r e => absurd e (hj r)) fun m e => absurd e (hp m)

/-- JoinCluster is called for the contract that is on the disk -/
theorem JoinInv.joins (h : JoinInv x w) (hone : ∀ v ∈ w.join.versions, v = some j) (hj : JoinFits x (some j) w.log)
    (hop : j.operationId = r.operationId) (hc : j.contractHash = x.fingerprint r) (hf : r.fence = j.fence) :
    JoinMem x (some j) { w with log := .joining r :: w.log } := by
  have hfits : JoinFits x (some j) (.joining r :: w.log) := by
    refine hj.cons (fun r' e => ?_) nofun
    obtain rfl := Event.joining.inj e
    exact ⟨j, rfl, hop, hc, hf.le⟩
  refine ⟨⟨fun v hv => hone v hv ▸ hfits, ⟨fun r' hr' => ?_, fun m hm => ?_⟩, h.sound⟩, hfits⟩
  · obtain ⟨j', hj', hop', hc', hle⟩ := hj.joining r' hr'
    obtain rfl := Option.some.inj hj'
    exact ⟨hop'.symm.trans hop, hc'.symm.trans hc, hle.trans hf.ge⟩
  · obtain ⟨j', hj', hp⟩ := hj.proving m hm
    obtain rfl := Option.some.inj hj'
    exact hp.symm.trans hc

/-- storing the outcome `o`, and going on with `p` -/
theorem JoinMem.persist (h : JoinMem x (some j) w) (o p : Outcome) (ho : o = .applied → ∃ r, .joining r ∈ w.log)
    (hp : p = .applied → ∃ r, .joining r ∈ w.log) (a : Write) :
    JoinMem x (some { j with outcome := p }) (perform (.persistJoin { j with outcome := o }) a w) :=
  ⟨h.toJoinInv.write (h.fits.relabel le_rfl ho) a, h.fits.relabel le_rfl hp⟩

/-- a challenge is answered for the contract in memory once that is joined -/
theorem JoinMem.prove (h : JoinMem x (some j) w) (ho : j.outcome = .applied) :
    JoinMem x (some j) { w with log := .proving ⟨j.endpoint, j.caCertHash, j.registration⟩ :: w.log } := by
  obtain ⟨r, hr⟩ := h.fits.applied j rfl ho
  have hcontract : j.contractHash = x.proof ⟨j.endpoint, j.caCertHash, j.registration⟩ := h.fits.contract j rfl
  have hjoined : ∀ r', .joining r' ∈ w.log → j.contractHash = x.fingerprint r' := fun r' hr' => by
    obtain ⟨j', hj', -, hc, -⟩ := h.fits.joining r' hr'
    obtain rfl := Option.some.inj hj'
    exact hc
  refine ⟨⟨fun v hv => (h.versions v hv).cons nofun fun m e => ?_, ⟨⟨r, hr⟩, fun r' hr' => ?_⟩, h.sound⟩,
    h.fits.cons nofun fun m e => ?_⟩
  · -- every version carries the contract of the call in the log
    obtain rfl := Event.proving.inj e
    obtain ⟨j', hv', -, hc, -⟩ := (h.versions v hv).joining r hr
    exact ⟨j', hv', hc.trans ((hjoined r hr).symm.trans hcontract)⟩
  · exact hcontract.symm.trans (hjoined r' hr')
  · obtain rfl := Event.proving.inj e
    exact ⟨j, rfl, hcontract⟩

end Steps

/-! ## The handlers -/

variable [DecidableEq H]

abbrev Joins {α : Type} (x : Env H) (post : α → World H → Prop) (p : Handler H α) (w : World H) : Prop :=
  (service x).Maintains (JoinInv x) (JoinInv x) post p w

section Handlers
variable {w : World H} {α : Type} {post : α → World H → Prop} {join : Option (ClusterJoinState H)}
  {j : ClusterJoinState H} {r : ClusterJoinRequest}

theorem JoinInv.crash (h : JoinInv x w) (k : Crash) : JoinInv x ((service x).crash k none w) :=
  ⟨fun v hv => h.versions v (File.mem_versions_recover hv), h.sound⟩

theorem JoinInv.guard {q : Effect H} (h : JoinInv x w) (hb : JoinInv x (begin q w)) :
    (service x).Guard (JoinInv x) (JoinInv x) q w := by
  refine ⟨h, fun k => ?_⟩
  cases hk : k.begun with
  | true => simpa [service, Subd.crash, hk] using hb.crash k
  | false => simpa [service, Subd.crash, hk] using h.crash k

theorem joins_ask {q : Effect H} {k : q.Answer → Handler H α} (h : JoinInv x w) (hb : JoinInv x (begin q w))
    (hk : ∀ a, Joins x post (k a) (perform q a w)) : Joins x post (.ask q k) w :=
  ⟨h.guard hb, hk⟩

theorem joins_respond {code : ℕ} (h : JoinMem x join w) :
    Joins x (JoinMem x) (ask (.respond (.join r code)) >>= fun _ => .ret join) w :=
  joins_ask h.toJoinInv h.toJoinInv fun _ => h

theorem joinContract_joins (h : JoinInv x w) (hj : JoinFits x (some j) w.log) (hop : j.operationId = r.operationId)
    (hc : j.contractHash = x.fingerprint r) (hf : j.fence ≤ r.fence) : Joins x (JoinMem x) (joinContract x j r) w := by
  unfold joinContract
  split_ifs
  · have hstored : JoinFits x (some { j with fence := r.fence, outcome := .applying }) w.log := hj.relabel hf nofun
    refine joins_ask h (h.write hstored .renamed) fun a => ?_
    cases a with
    | failed => exact joins_respond ⟨h.write hstored .failed, hstored⟩
    | renamed => exact joins_respond ⟨h.write hstored .renamed, hstored⟩
    | synced =>
      have hjoining := (h.write hstored .synced).joins (fun v hv => by simpa using hv) hstored hop hc rfl
      refine joins_ask (h.write hstored .synced) hjoining.toJoinInv fun ok => ?_
      cases ok with
      | false =>
        refine joins_ask hjoining.toJoinInv (hjoining.persist .failed .failed nofun nofun .renamed).toJoinInv fun a => ?_
        exact joins_respond (hjoining.persist .failed .failed nofun nofun a)
      | true =>
        have hjoined := hjoining.cons (a := .joined r) nofun nofun
        have hcalled : ∃ r', .joining r' ∈ (.joined r :: .joining r :: w.log) :=
          ⟨r, List.mem_cons_of_mem _ List.mem_cons_self⟩
        refine joins_ask hjoined.toJoinInv (hjoined.persist .applied .failed (fun _ => hcalled) nofun .renamed).toJoinInv
          fun a => ?_
        cases a with
        | synced => exact joins_respond (hjoined.persist .applied .applied (fun _ => hcalled) (fun _ => hcalled) .synced)
        | failed => exact joins_respond (hjoined.persist .applied .interrupted (fun _ => hcalled) nofun .failed)
        | renamed => exact joins_respond (hjoined.persist .applied .interrupted (fun _ => hcalled) nofun .renamed)
  · exact joins_respond ⟨h, hj⟩

theorem clusterJoin_joins (h : JoinMem x join w) (r : Option ClusterJoinRequest) :
    Joins x (JoinMem x) (clusterJoin x join r) w := by
  unfold clusterJoin
  split
  · exact joins_ask h.toJoinInv h.toJoinInv fun _ => h
  · rename_i r' _
    split
    · exact joinContract_joins h.toJoinInv (h.fits.bound r') rfl rfl le_rfl
    · rename_i j'
      split_ifs with hconflict
      · exact joins_respond h
      · rw [not_or, not_or, not_not, not_not, not_lt] at hconflict
        exact joinContract_joins h.toJoinInv h.fits hconflict.1 hconflict.2.1 hconflict.2.2

theorem clusterMembership_joins (h : JoinMem x join w) (challenge : Option String) :
    Joins x (fun _ w => JoinMem x join w) (clusterMembership x join challenge) w := by
  unfold clusterMembership
  split
  · exact joins_ask h.toJoinInv h.toJoinInv fun _ => h
  · split
    · exact joins_ask h.toJoinInv h.toJoinInv fun _ => h
    · rename_i j' hj'
      obtain ⟨rfl, happlied⟩ := Option.filter_eq_some_iff.mp hj'
      have ho : j'.outcome = .applied := by simpa using (Bool.and_eq_true_iff.mp happlied).2
      have hproving := h.prove ho
      refine joins_ask h.toJoinInv hproving.toJoinInv fun ok => ?_
      cases ok <;> exact joins_ask hproving.toJoinInv hproving.toJoinInv fun _ => hproving

/-- the effects of expected-state updates -/
def Effect.plain : Effect H → Prop
  | .persistJoin _ | .joinCluster _ | .clusterMembership _ _ => False
  | _ => True

omit [DecidableEq H] in
theorem JoinMem.append (h : JoinMem x join w) {l : List (Event H)}
    (hl : ∀ a ∈ l, (∀ r, a ≠ .joining r) ∧ ∀ m, a ≠ .proving m) : JoinMem x join { w with log := l ++ w.log } := by
  induction l with
  | nil => exact h
  | cons a l ih =>
    have ha := hl a List.mem_cons_self
    exact (ih fun b hb => hl b (List.mem_cons_of_mem _ hb)).cons ha.1 ha.2

theorem JoinMem.plain {q : Effect H} (hq : q.plain) (h : JoinMem x join w) :
    (service x).Guard (JoinInv x) (JoinInv x) q w ∧ ∀ a, JoinMem x join ((service x).perform q a w) := by
  cases q with
  | context => exact ⟨h.guard h.toJoinInv, fun _ => h⟩
  | persist s =>
    refine ⟨h.guard ⟨h.versions, h.sound⟩, fun a => ?_⟩
    have hnext := h.append (l := if a.ok then [.persisted s] else []) (by split_ifs <;> simp)
    exact ⟨⟨hnext.versions, hnext.sound⟩, hnext.fits⟩
  | publish s =>
    have hnext := h.cons (a := .reported s) nofun nofun
    exact ⟨h.guard hnext.toJoinInv, fun _ => hnext⟩
  | apply e =>
    have hnext := h.cons (a := .invoked e) nofun nofun
    refine ⟨h.guard hnext.toJoinInv, fun ok => ?_⟩
    cases ok with
    | false => exact hnext
    | true => exact hnext.cons nofun nofun
  | ensureSecret t s =>
    refine ⟨h.guard h.toJoinInv, fun r => ?_⟩
    cases r with
    | error k => exact h
    | ok u => exact h.cons nofun nofun
  | respond r =>
    refine ⟨h.guard h.toJoinInv, fun _ => h.append ?_⟩
    cases r with
    | update e code body => cases body <;> simp [Reply.events]
    | join r c => simp [Reply.events]
    | membership c => simp [Reply.events]
    | badRequest => simp [Reply.events]
  | persistJoin j => exact hq.elim
  | joinCluster r => exact hq.elim
  | clusterMembership m c => exact hq.elim

theorem updateState_plain (s : SavedState H) (u : Option HostStateUpdate) :
    (updateState x s u).Goes Effect.plain := by
  unfold updateState
  split
  · exact ⟨trivial, fun _ => trivial⟩
  · rename_i e _
    refine ⟨trivial, fun cancelled => ?_⟩
    cases cancelled with
    | true => exact ⟨trivial, fun _ => trivial⟩
    | false =>
      show Prog.Goes Effect.plain (if _ then _ else if _ then _ else _)
      split_ifs
      · exact ⟨trivial, fun _ => trivial⟩
      · exact ⟨trivial, fun _ => trivial⟩
      · refine (carryOut_carries x s e).mono fun q hq => ?_
        cases q <;> trivial

theorem boot_joins (h : JoinInv x w) : Joins x (fun m w => JoinMem x m.join w) (boot x w) w := by
  unfold boot
  cases hm : newServer x w with
  | none => exact h
  | some m =>
    have hfits : JoinFits x m.join w.log := by
      unfold newServer at hm
      obtain ⟨saved, -, hm⟩ := Option.bind_eq_some_iff.mp hm
      obtain ⟨join, hjoin, hm⟩ := Option.bind_eq_some_iff.mp hm
      obtain rfl : (⟨saved, join⟩ : Memory H) = m := Option.some.inj hm
      exact (h.versions _ List.mem_cons_self).load hjoin
    have hmem := JoinMem.cons ⟨h, hfits⟩ (a := .reported m.saved) nofun nofun
    refine joins_ask h hmem.toJoinInv fun published => ?_
    cases published with
    | true => exact hmem
    | false => exact hmem.toJoinInv

theorem join_keeps : (service x).Keeps (JoinInv x) (JoinInv x) fun m w => JoinMem x m.join w where
  down h := ⟨h, h.crash⟩
  ready h := ⟨h.toJoinInv, h.toJoinInv.crash⟩
  boot := boot_joins
  handle c h := by
    cases c with
    | update u =>
      refine Service.Maintains.bind ?_
      exact Service.maintains_of_asks (updateState_plain _ u) (fun q w hq hw => hw.plain hq) (fun _ _ h => h) h
    | clusterJoin r => exact Service.Maintains.bind (Service.Maintains.mono (fun _ _ h => h) (clusterJoin_joins h r))
    | clusterMembership c =>
      exact Service.Maintains.bind (Service.Maintains.mono (fun _ _ h => h) (clusterMembership_joins h c))

end Handlers

/-! ## One contract -/

/-- what the log of an agent guarantees; newer events stand before older ones -/
structure OneContract (x : Env H) (log : List (Event H)) : Prop where
  /-- all calls of JoinCluster carry one operation ID and one fingerprint -/
  contract : ∀ r r', .joining r ∈ log → .joining r' ∈ log →
    r.operationId = r'.operationId ∧ x.fingerprint r = x.fingerprint r'
  /-- their fences never decrease -/
  fences : log.Pairwise fun later earlier => ∀ r r', later = .joining r → earlier = .joining r' → r'.fence ≤ r.fence
  /-- a challenge is answered for the registration that was joined -/
  membership : ∀ m, .proving m ∈ log → (∃ r, .joining r ∈ log) ∧ ∀ r, .joining r ∈ log →
    m.registration = r.registration ∧ x.proof m = x.fingerprint r

section OneContract
variable {log : List (Event H)}

omit [DecidableEq H] in
theorem JoinSound.contract (h : JoinSound x log) {r r' : ClusterJoinRequest} (hr : .joining r ∈ log)
    (hr' : .joining r' ∈ log) : r.operationId = r'.operationId ∧ x.fingerprint r = x.fingerprint r' := by
  induction log with
  | nil => cases hr
  | cons a log ih =>
    rcases List.mem_cons.mp hr with rfl | hold
    · rcases List.mem_cons.mp hr' with heq | hold'
      · obtain rfl := Event.joining.inj heq
        exact ⟨rfl, rfl⟩
      · obtain ⟨hop, hc, -⟩ := h.1.1 r' hold'
        exact ⟨hop.symm, hc.symm⟩
    · rcases List.mem_cons.mp hr' with rfl | hold'
      · obtain ⟨hop, hc, -⟩ := h.1.1 r hold
        exact ⟨hop, hc⟩
      · exact ih h.2 hold hold'

omit [DecidableEq H] in
theorem JoinSound.fences (h : JoinSound x log) :
    log.Pairwise fun later earlier => ∀ r r', later = .joining r → earlier = .joining r' → r'.fence ≤ r.fence := by
  induction log with
  | nil => exact .nil
  | cons a log ih =>
    refine .cons (fun b hb r r' ha hb' => ?_) (ih h.2)
    subst ha hb'
    exact (h.1.1 r' hb).2.2

omit [DecidableEq H] in
theorem JoinSound.proof (h : JoinSound x log) {m : Membership} (hm : .proving m ∈ log) :
    (∃ r, .joining r ∈ log) ∧ ∀ r, .joining r ∈ log → x.proof m = x.fingerprint r := by
  induction log with
  | nil => cases hm
  | cons a log ih =>
    rcases List.mem_cons.mp hm with rfl | hold
    · obtain ⟨⟨r, hr⟩, hall⟩ := h.1
      refine ⟨⟨r, List.mem_cons_of_mem _ hr⟩, fun r' hr' => ?_⟩
      rcases List.mem_cons.mp hr' with heq | hr'
      · cases heq
      · exact hall r' hr'
    · obtain ⟨⟨r, hr⟩, hall⟩ := ih h.2 hold
      refine ⟨⟨r, List.mem_cons_of_mem _ hr⟩, fun r' hr' => ?_⟩
      rcases List.mem_cons.mp hr' with rfl | hr'
      · exact h.1.2 m hold
      · exact hall r' hr'

end OneContract

omit [DecidableEq H] in
theorem join_init : JoinInv x ({} : World H) := by
  refine ⟨fun v hv => ?_, trivial⟩
  obtain rfl : v = none := by simpa [File.versions] using hv
  constructor <;> simp

/-- **A host joins only one cluster contract in its life.** For every sequence of joins, challenges and updates, every
answer of the host and of the files, every crash and restart. -/
theorem one_join_contract (x : Env H) (acts : List (Act H)) : OneContract x (run x acts).world.log := by
  have hsound := (join_keeps.world (join_keeps.run (join_init (x := x)) acts)).sound
  refine ⟨fun r r' => hsound.contract, hsound.fences, fun m hm => ?_⟩
  obtain ⟨hex, hall⟩ := hsound.proof hm
  exact ⟨hex, fun r hr => ⟨(x.contract_injective (hall r hr)).2.2, hall r hr⟩⟩

namespace Sample

def contract (cluster : String) : ClusterJoinRequest where
  registration := ⟨cluster, "h1", "g", "p", "t1", "h1", "i-1", ⟨"m5", "amd64", "r", "r-a", [], []⟩⟩
  fence := 1
  operationId := "00000000-0000-0000-0000-000000000001"
  apiServerEndpoint := "https://api"
  token := "abcdef.0123456789abcdef"
  caCertHash := "sha256:" ++ String.ofList (List.replicate 64 'a')

/-- a first contract is bound in memory, but its write fails before the rename -/
def unstored : List (Act Digest) :=
  [.start, .answer (.publish {}) true, .call (.clusterJoin (some (contract "c"))),
    .answer (.persistJoin (bound env (contract "c"))) .failed, .answer (.respond (.join (contract "c") 503)) ()]

end Sample

-- another contract is refused until the agent restarts
example : (run Sample.env (Sample.unstored ++ [.call (.clusterJoin (some (Sample.contract "d")))])).process.pending =
    some (.respond (.join (Sample.contract "d") 409)) := by
  decide +kernel

end Crane.Subd
