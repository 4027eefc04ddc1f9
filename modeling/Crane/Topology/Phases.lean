/-
The phases of a bootstrap over whole runs of the store.

`BootStep` lists what a step can do to an operation that creates a cluster and to its bootstrap: nothing, a claim, a
renewal, a release, or one phase. From it follow the agreement of phase and operation state (`Rows`) and that a lease
which ran out under a fence is not revived under that fence.
-/
import Crane.Topology.Runs
import Crane.Capacity.ClusterOperations

namespace Crane.Topology

open Capacity Tx

/-! ## One bootstrap under one step -/

/-- the operation after phase `next`: a terminal phase ends it and its lease -/
def endedBy (next : ZoneBootstrapPhase) (now : ℕ) (o : OperationRow) : OperationRow :=
  if next.terminal then
    { o with state := if next = .ready then .succeeded else .failed, lease := none, updatedAt := now }
  else o

/-- what a step at time `now` does to an operation and its bootstrap -/
inductive BootStep (now : ℕ) : Act → OperationRow → Bootstrap → OperationRow → Bootstrap → Prop
  | same (a : Act) (o : OperationRow) (b : Bootstrap) : BootStep now a o b o b
  | claim (o : OperationRow) (b : Bootstrap) (d : DB) (z : String) (k : OperationKind) (owner : String) (t : Duration)
      (l : String → Bool) (ans : Operation → Bool) (hc : o.claimableAt now) :
      BootStep now (.call (.claimBootstrap z k owner t l) ans) o b (o.claimed d owner t) b
  | renew (o : OperationRow) (b : Bootstrap) (op : Operation) (t : Duration) (ans : Operation → Bool)
      (hh : o.heldBy op now = true) (ha : OperationState.active o.state = true) :
      BootStep now (.call (.renew op t) ans) o b
        { o with lease := some ⟨op.leaseOwner, now + t.micros⟩, updatedAt := now } b
  | release (o : OperationRow) (b : Bootstrap) (op : Operation) (hh : o.heldBy op now = true)
      (ha : OperationState.active o.state = true) :
      BootStep now (.controller op .releaseBootstrapLease) o b { o with state := .pending, lease := none, updatedAt := now } b
  | phase (o : OperationRow) (b : Bootstrap) (op : Operation) (next : ZoneBootstrapPhase) (v : Bool)
      (hi : op.id = o.id) (hh : o.heldBy op now = true) (ha : OperationState.active o.state = true)
      (hn : next = .failed ∨ b.phase.next = some next) (hv : next = .ready → v = true) :
      BootStep now (.controller op (.bootstrapPhase next v)) o b (endedBy next now o) { b with phase := next }

/-- the state of an operation that fits the phase of its bootstrap -/
def ZoneBootstrapPhase.agrees (p : ZoneBootstrapPhase) (state : OperationState) : Bool :=
  match p with
  | .ready => state = .succeeded
  | .failed => state = .failed
  | _ => state = .pending || OperationState.active state

theorem agrees_of_active {p : ZoneBootstrapPhase} {state : OperationState} (h : p.agrees state = true)
    (ha : OperationState.active state = true) : p.terminal = false := by
  cases p <;> cases state <;> simp_all [ZoneBootstrapPhase.agrees, ZoneBootstrapPhase.terminal, OperationState.active]

/-- a phase that a step enters from an active one -/
theorem agrees_of_open {p : ZoneBootstrapPhase} {state : OperationState} (ht : p.terminal = false)
    (h : state = .pending ∨ OperationState.active state = true) : p.agrees state = true := by
  cases p <;> cases state <;> simp_all [ZoneBootstrapPhase.agrees, ZoneBootstrapPhase.terminal, OperationState.active]

theorem agrees_endedBy (next : ZoneBootstrapPhase) (now : ℕ) {o : OperationRow}
    (ha : OperationState.active o.state = true) : next.agrees (endedBy next now o).state = true := by
  cases next <;> simp [endedBy, ZoneBootstrapPhase.terminal, ZoneBootstrapPhase.agrees, ha]

section BootStep
variable {now : ℕ} {a : Act} {o o' : OperationRow} {b b' : Bootstrap}

theorem endedBy_intent (next : ZoneBootstrapPhase) (now : ℕ) (o : OperationRow) :
    (endedBy next now o).intent = o.intent ∧ (endedBy next now o).fence = o.fence ∧ (endedBy next now o).id = o.id := by
  unfold endedBy
  split_ifs <;> exact ⟨rfl, rfl, rfl⟩

theorem BootStep.intent (h : BootStep now a o b o' b') : o'.intent = o.intent := by
  cases h with
  | phase => exact (endedBy_intent _ _ _).1
  | _ => rfl

/-- the identity of a bootstrap -/
theorem BootStep.ids (h : BootStep now a o b o' b') :
    b'.zoneId = b.zoneId ∧ b'.clusterId = b.clusterId ∧ b'.requestId = b.requestId := by
  cases h <;> exact ⟨rfl, rfl, rfl⟩

theorem BootStep.fence_le (h : BootStep now a o b o' b') : o.fence ≤ o'.fence := by
  cases h with
  | claim => exact Nat.le_succ _
  | phase => exact (endedBy_intent _ _ _).2.1.ge
  | _ => exact le_rfl

theorem claimed_state (o : OperationRow) (d : DB) (owner : String) (t : Duration) :
    OperationState.active (o.claimed d owner t).state = true := by
  unfold OperationRow.claimed
  dsimp only
  split_ifs <;> rfl

theorem BootStep.agrees (h : BootStep now a o b o' b') (hb : b.phase.agrees o.state = true) :
    b'.phase.agrees o'.state = true := by
  cases h with
  | same => exact hb
  | claim _ _ d z k owner t l ans hc =>
    refine agrees_of_open ?_ (.inr (claimed_state o d owner t))
    rcases hc with hp | ⟨ha, -⟩
    · cases hphase : b.phase <;> simp_all [ZoneBootstrapPhase.agrees, ZoneBootstrapPhase.terminal]
    · exact agrees_of_active hb ha
  | renew _ _ op t ans hh ha => exact agrees_of_open (agrees_of_active hb ha) (.inr ha)
  | release _ _ op hh ha => exact agrees_of_open (agrees_of_active hb ha) (.inl rfl)
  | phase _ _ op next v hi hh ha hn hv => exact agrees_endedBy next now ha

/-- a lease that has run out: a higher fence, or no time left under this one -/
def Lapsed (fence : ℕ) (now : ℕ) (o : OperationRow) : Prop :=
  fence < o.fence ∨ (o.fence = fence ∧ ∀ l, o.lease = some l → l.expires ≤ now)

theorem Lapsed.not_held {op : Operation} (h : Lapsed op.fence now o) : o.heldBy op now = false := by
  rcases h with hlt | ⟨-, hl⟩
  · simp [OperationRow.heldBy, hlt.ne']
  · cases hlease : o.lease with
    | none => simp [OperationRow.heldBy, hlease]
    | some l =>
      have := hl l hlease
      simp [OperationRow.heldBy, hlease, this.not_gt]

/-- **A lease that has run out is not revived under its fence.** -/
theorem BootStep.lapsed {fence : ℕ} (h : BootStep now a o b o' b') (hl : Lapsed fence now o) : Lapsed fence now o' := by
  rcases hl with hlt | ⟨rfl, hexp⟩
  · exact .inl (hlt.trans_le h.fence_le)
  · have hno : ∀ op : Operation, ¬o.heldBy op now = true := by
      intro op hh
      simp only [OperationRow.heldBy, Bool.and_eq_true, Option.any_eq_true, decide_eq_true_eq] at hh
      obtain ⟨-, l, hl, -, hlt⟩ := hh
      exact absurd (hexp l hl) hlt.not_ge
    cases h with
    | same => exact .inr ⟨rfl, hexp⟩
    | claim => exact .inl (Nat.lt_succ_self _)
    | renew _ _ op t ans hh => exact absurd hh (hno op)
    | release _ _ op hh => exact absurd hh (hno op)
    | phase _ _ op next v hi hh => exact absurd hh (hno op)

end BootStep

/-! ## The rows of bootstraps -/

/-- a bootstrap has an operation of its own in a state that fits its phase, and a controller's copy is one of them -/
structure Rows (w : World) : Prop where
  ops : ∀ i b, w.site.bootstraps.find i = some b → ∃ o, w.site.db.operations.find i = some o ∧ o.Bootstraps ∧
    o.zoneId = b.zoneId ∧ b.phase.agrees o.state = true
  boots : ∀ i o, w.site.db.operations.find i = some o → o.kind = .createCluster →
    (w.site.bootstraps.find i).isSome = true
  held : ∀ op ∈ w.held, op.kind = .createCluster → ∃ o, w.site.db.operations.find op.id = some o ∧
    o.kind = .createCluster ∧ o.zoneId = op.zoneId ∧ op.fence ≤ o.fence

theorem heldBootstrap_eq_some {s : Site} {op : Operation} {o : OperationRow} {b : Bootstrap}
    (h : heldBootstrap s op = some (o, b)) : s.db.operations.find op.id = some o ∧ o.heldBy op s.db.clock = true ∧
      OperationState.active o.state = true ∧ s.bootstraps.find op.id = some b := by
  simp only [heldBootstrap, Option.bind_eq_bind, Option.bind_eq_some_iff, Option.some.injEq, Prod.mk.injEq] at h
  obtain ⟨o', ho', b', hb', rfl, rfl⟩ := h
  obtain ⟨hf, hh, ha⟩ := heldRow_eq_some.mp ho'
  rw [Table.key_of_find hf] at hb'
  exact ⟨hf, hh, ha, hb'⟩

/-- the tables a bootstrap is stored in are the same -/
structure SameBoots (s s' : Site) : Prop where
  ops : s'.db.operations = s.db.operations
  boots : s'.bootstraps = s.bootstraps

theorem SameBoots.refl (s : Site) : SameBoots s s := ⟨rfl, rfl⟩

theorem Grows.sameBoots {s s' : Site} (h : Grows s s') : SameBoots s s' := by
  have hops : s'.runtime.db.operations = s.runtime.db.operations := by rw [h.runtime]
  have hboots : s'.runtime.bootstraps = s.runtime.bootstraps := by rw [h.runtime]
  exact ⟨hops, hboots⟩

/-- what is stored for bootstrap `i` after a step, and how it came about -/
def Steps (w : World) (a : Act) (s' : Site) : Prop :=
  ∀ i o b, w.site.db.operations.find i = some o → w.site.bootstraps.find i = some b →
    ∃ o' b', s'.db.operations.find i = some o' ∧ s'.bootstraps.find i = some b' ∧
      BootStep w.site.db.clock a o b o' b'

theorem SameBoots.steps {w : World} {a : Act} {s' : Site} (h : SameBoots w.site s') : Steps w a s' := by
  intro i o b ho hb
  exact ⟨o, b, by rw [h.ops]; exact ho, by rw [h.boots]; exact hb, .same a o b⟩

/-- an UPDATE of one operation row, found under `j` -/
theorem steps_put_operation {w : World} {a : Act} {j : String} {o₁ : OperationRow} (o₂ : OperationRow)
    (hj : w.site.db.operations.find j = some o₁) (hid : o₂.id = o₁.id)
    (h : ∀ b, w.site.bootstraps.find j = some b → BootStep w.site.db.clock a o₁ b o₂ b) :
    Steps w a (w.site.put (.operation o₂)) := by
  intro i o b ho hb
  by_cases hij : i = j
  · subst hij
    obtain rfl := Option.some.inj (hj.symm.trans ho)
    exact ⟨o₂, b, Table.find_update o₂ hj hid, hb, h b hb⟩
  · exact ⟨o, b, (Table.find_update_ne o₂ hj hid hij).trans ho, hb, .same a o b⟩

theorem advance_operations (o : OperationRow) (b : Bootstrap) (next : ZoneBootstrapPhase) (s : Site) :
    (advance o b next s).bootstraps = s.bootstraps.put { b with phase := next } ∧
      (advance o b next s).db.operations =
        if next.terminal then s.db.operations.put (endedBy next s.db.clock o) else s.db.operations := by
  unfold advance endedBy
  dsimp only
  by_cases ht : next.terminal = true
  · simp only [ht, if_true]
    exact ⟨rfl, rfl⟩
  · simp only [ht]
    exact ⟨rfl, rfl⟩

theorem clusterReady_sameBoots (id : String) (s : Site) : SameBoots s (clusterReady id s) ∧
    (clusterReady id s).db.clock = s.db.clock := by
  unfold clusterReady
  split
  · split_ifs <;> exact ⟨⟨rfl, rfl⟩, rfl⟩
  · exact ⟨⟨rfl, rfl⟩, rfl⟩

theorem zoneReady_sameBoots (id : String) (s : Site) : SameBoots s (zoneReady id s) ∧
    (zoneReady id s).db.clock = s.db.clock := by
  unfold zoneReady
  split
  · split_ifs <;> exact ⟨⟨rfl, rfl⟩, rfl⟩
  · exact ⟨⟨rfl, rfl⟩, rfl⟩

theorem membershipReady_sameBoots {c z : String} {s s' : Site} (h : membershipReady c z s = some s') :
    SameBoots s s' ∧ s'.db.clock = s.db.clock := by
  unfold membershipReady at h
  split at h
  · split_ifs at h
    rw [← Option.some.inj h]
    exact ⟨⟨rfl, rfl⟩, rfl⟩
  · simp at h

/-- the state in which a committed phase call stores its phase -/
theorem enterPhase_advance {op : Operation} {next : ZoneBootstrapPhase} {v : Bool} {o : OperationRow} {b : Bootstrap}
    {s s' : Site} (h : enterPhase op next v o b s = (s', .ok ())) :
    ∃ s₁, SameBoots s s₁ ∧ s₁.db.clock = s.db.clock ∧ s' = advance o b next s₁ := by
  obtain ⟨-, -, ⟨-, rfl⟩ | ⟨-, s₁, hm, rfl⟩⟩ := enterPhase_ok h
  · exact ⟨s, .refl s, rfl, rfl⟩
  · obtain ⟨hc, hcc⟩ := clusterReady_sameBoots b.clusterId s
    obtain ⟨hz, hzc⟩ := zoneReady_sameBoots op.zoneId (clusterReady b.clusterId s)
    obtain ⟨hm, hmc⟩ := membershipReady_sameBoots hm
    exact ⟨s₁, ⟨hm.ops.trans (hz.ops.trans hc.ops), hm.boots.trans (hz.boots.trans hc.boots)⟩,
      hmc.trans (hzc.trans hcc), rfl⟩

theorem steps_phase {w : World} {op : Operation} {next : ZoneBootstrapPhase} {v : Bool} {s' : Site}
    (h : bootstrapPhase op next v w.site = (s', .ok ())) : Steps w (.controller op (.bootstrapPhase next v)) s' := by
  obtain ⟨-, o₁, b₁, hheld, he⟩ := bootstrapPhase_ok h
  obtain ⟨hf, hh, ha, hb₁⟩ := heldBootstrap_eq_some hheld
  obtain ⟨hn, hv, -⟩ := enterPhase_ok he
  obtain ⟨s₁, hsame, hclock, rfl⟩ := enterPhase_advance he
  obtain ⟨hboots, hops⟩ := advance_operations o₁ b₁ next s₁
  have hbid : b₁.operationId = op.id := Table.key_of_find hb₁
  have hoid : o₁.id = op.id := Table.key_of_find hf
  intro i o b ho hb
  by_cases hi : op.id = i
  · subst hi
    obtain rfl := Option.some.inj (hf.symm.trans ho)
    obtain rfl := Option.some.inj (hb₁.symm.trans hb)
    refine ⟨endedBy next w.site.db.clock o₁, { b₁ with phase := next }, ?_, ?_, .phase o₁ b₁ op next v hoid.symm hh ha hn hv⟩
    · rw [hops, hsame.ops, hclock]
      by_cases ht : next.terminal = true
      · rw [if_pos ht, Table.find_put, if_pos ((endedBy_intent next _ o₁).2.2.trans hoid)]
      · rw [if_neg ht, endedBy, if_neg ht]
        exact hf
    · rw [hboots, Table.find_put, if_pos hbid]
  · refine ⟨o, b, ?_, ?_, .same _ o b⟩
    · rw [hops, hsame.ops]
      by_cases ht : next.terminal = true
      · rw [if_pos ht, Table.find_put, if_neg]
        · exact ho
        · rw [(endedBy_intent next _ o₁).2.2, hoid]
          exact hi
      · rw [if_neg ht]
        exact ho
    · rw [hboots, Table.find_put, if_neg (show ¬b₁.operationId = i by rw [hbid]; exact hi), hsame.boots]
      exact hb

theorem steps_controller {w : World} {op : Operation} {c : ControllerCall} {s' : Site}
    (h : c.run op w.site = (s', .ok ())) : Steps w (.controller op c) s' := by
  cases c with
  | setClusterDiscovery r =>
    obtain ⟨c, -, rfl⟩ := setClusterDiscovery_ok h
    exact SameBoots.steps ⟨rfl, rfl⟩
  | recordBootstrapHost r =>
    rcases recordBootstrapHost_ok h with rfl | ⟨-, rfl⟩ | ⟨k, -, -, -, -, rfl⟩ <;> exact SameBoots.steps ⟨rfl, rfl⟩
  | setDominatorRoute r =>
    obtain ⟨-, b, -, -, rfl | ⟨-, rfl⟩⟩ := setDominatorRoute_ok h <;> exact SameBoots.steps ⟨rfl, rfl⟩
  | bootstrapPhase next v => exact steps_phase h
  | releaseBootstrapLease =>
    obtain ⟨o, ho, rfl⟩ := releaseBootstrapLease_ok h
    obtain ⟨hf, hh, ha⟩ := heldRow_eq_some.mp ho
    exact steps_put_operation _ hf rfl fun b _ => .release o b op hh ha

theorem steps_call {E : Env} {w : World} (hr : Rows w) {c : Call} {ans : Operation → Bool} {y : Reply × DB}
    (h : (code E.externals c).run ans w.site.db = .ok y) : Steps w (.call c ans) { w.site with db := y.2 } := by
  intro i o b ho hb
  obtain ⟨o₁, ho₁, hboot, -⟩ := hr.ops i b hb
  obtain rfl := Option.some.inj (ho₁.symm.trans ho)
  by_cases hc : c.leases = true
  · cases c <;> simp [Call.leases] at hc
    case claimBootstrap z k owner t l =>
      simp only [code, bind_eq, run_bind_ok, pure_eq, run_done, Except.ok.injEq] at h
      obtain ⟨p, hp, rfl⟩ := h
      obtain ⟨o₂, hf, -, hcl, rfl⟩ := claimBootstrap_ok hp
      exact steps_put_operation (o₂.claimed w.site.db owner t) hf rfl
        (fun b _ => .claim o₂ b w.site.db z k owner t l ans hcl) i o₁ b ho hb
    case renew op t =>
      simp only [code, bind_eq, run_bind_ok, pure_eq, run_done, Except.ok.injEq] at h
      obtain ⟨p, hp, rfl⟩ := h
      obtain ⟨o₂, hf, hh, ha, hq⟩ := renew_ok hp
      have hst := steps_put_operation
        { o₂ with lease := some ⟨op.leaseOwner, w.site.db.clock + t.micros⟩, updatedAt := w.site.db.clock } hf rfl
        (fun b _ => .renew o₂ b op t ans hh ha) i o₁ b ho hb
      rw [hq]
      exact hst
  · exact ⟨o₁, b, code_keeps_bootstrap (by simpa using hc) hboot ho₁ h, hb, .same _ o₁ b⟩

/-- **What a step can do to a bootstrap and its operation.** -/
theorem step_boots (E : Env) {w : World} (hw : Whole w.site) (hr : Rows w) (a : Act) : Steps w a (step E w a).site := by
  have hst := step_cases E hw a
  generalize (step E w a).site = s' at hst ⊢
  cases hst with
  | grows _ hg _ => exact hg.sameBoots.steps
  | call _ h => exact steps_call hr h
  | controller _ h => exact steps_controller h
  | @finish r u s₁ _ hg _ _ htaken =>
    simp only [bootstrapTaken, Bool.or_eq_false_iff, Option.isSome_eq_false_iff, Option.isNone_iff_eq_none] at htaken
    obtain ⟨⟨⟨hop, -⟩, -⟩, -⟩ := htaken
    intro j o b ho hb
    rw [← hg.sameBoots.ops] at ho
    rw [← hg.sameBoots.boots] at hb
    have hne : ¬u 0 = j := by
      rintro rfl
      simp [hop] at ho
    refine ⟨o, b, ?_, ?_, .same _ o b⟩
    · show (s₁.db.operations.put (bootstrapOperation r u s₁.db.clock)).find j = some o
      rw [Table.find_put, if_neg (show ¬(bootstrapOperation r u s₁.db.clock).id = j from hne)]
      exact ho
    · show (s₁.bootstraps.put ⟨u 0, r.zoneId, r.clusterId, r.requestId, .requested⟩).find j = some b
      rw [Table.find_put, if_neg hne]
      exact hb
  | tick n => exact SameBoots.steps ⟨rfl, rfl⟩

/-! ## Rows over runs -/

/-- a committed bootstrap request inserts an operation and its bootstrap -/
structure Inserts (w : World) (r : BootstrapRequest) (u : Uuids) (s₁ s' : Site) : Prop where
  opening : r ∈ w.opening
  same : SameBoots w.site s₁
  ready : initializing r s₁ = true
  taken : bootstrapTaken r u s₁ = false
  eq : s' = { s₁.put (.operation (bootstrapOperation r u s₁.db.clock)) with
    bootstraps := s₁.bootstraps.put ⟨u 0, r.zoneId, r.clusterId, r.requestId, .requested⟩ }

/-- a bootstrap that a step stores was there, or the step inserted it -/
def FromBoots (w : World) (a : Act) (s' : Site) : Prop :=
  (∀ i b', s'.bootstraps.find i = some b' → (w.site.bootstraps.find i).isSome = true ∨
    ∃ r u s₁, a = .finish r u ∧ Inserts w r u s₁ s' ∧ i = u 0) ∧
  ∀ i o', s'.db.operations.find i = some o' → o'.kind = .createCluster →
    (∃ o, w.site.db.operations.find i = some o ∧ o.kind = .createCluster) ∨
      ∃ r u s₁, a = .finish r u ∧ Inserts w r u s₁ s' ∧ i = u 0

theorem SameBoots.fromBoots {w : World} {a : Act} {s' : Site} (h : SameBoots w.site s') : FromBoots w a s' :=
  ⟨fun i b' hb' => .inl (Option.isSome_iff_exists.mpr ⟨b', by rw [← h.boots]; exact hb'⟩),
    fun i o' ho' hk => .inl ⟨o', by rw [← h.ops]; exact ho', hk⟩⟩

/-- an UPDATE of one operation that keeps its kind -/
theorem kind_put_operation {t : Table OperationRow.id} {j : String} {o₁ o₂ : OperationRow} (hj : t.find j = some o₁)
    (hid : o₂.id = o₁.id) (hk : o₂.kind = o₁.kind) {i : String} {o' : OperationRow} (h : (t.put o₂).find i = some o') :
    ∃ o, t.find i = some o ∧ o.kind = o'.kind := by
  rw [Table.find_put, hid, Table.key_of_find hj] at h
  split_ifs at h with hi
  · rw [← Option.some.inj h]
    exact ⟨o₁, hi ▸ hj, hk.symm⟩
  · exact ⟨o', h, rfl⟩

theorem fromBoots_controller {w : World} {op : Operation} {c : ControllerCall} {s' : Site}
    (h : c.run op w.site = (s', .ok ())) : FromBoots w (.controller op c) s' := by
  cases c with
  | setClusterDiscovery r =>
    obtain ⟨c, -, rfl⟩ := setClusterDiscovery_ok h
    exact SameBoots.fromBoots ⟨rfl, rfl⟩
  | recordBootstrapHost r =>
    rcases recordBootstrapHost_ok h with rfl | ⟨-, rfl⟩ | ⟨k, -, -, -, -, rfl⟩ <;> exact SameBoots.fromBoots ⟨rfl, rfl⟩
  | setDominatorRoute r =>
    obtain ⟨-, b, -, -, rfl | ⟨-, rfl⟩⟩ := setDominatorRoute_ok h <;> exact SameBoots.fromBoots ⟨rfl, rfl⟩
  | bootstrapPhase next v =>
    obtain ⟨-, o, b, hheld, he⟩ := bootstrapPhase_ok h
    obtain ⟨hf, -, -, hb⟩ := heldBootstrap_eq_some hheld
    obtain ⟨s₁, hsame, -, rfl⟩ := enterPhase_advance he
    obtain ⟨hboots, hops⟩ := advance_operations o b next s₁
    refine ⟨fun i b' hb' => .inl ?_, fun i o' ho' hk => .inl ?_⟩
    · rw [hboots, Table.find_put, hsame.boots] at hb'
      split_ifs at hb' with hi
      · have hid : b.operationId = op.id := Table.key_of_find hb
        have hi : op.id = i := hid.symm.trans hi
        rw [← hi, hb]
        rfl
      · rw [hb']
        rfl
    · rw [hops, hsame.ops] at ho'
      split_ifs at ho'
      · obtain ⟨o₁, ho₁, hk₁⟩ := kind_put_operation hf (endedBy_intent next _ o).2.2
          (congrArg Prod.fst (endedBy_intent next _ o).1) ho'
        exact ⟨o₁, ho₁, hk₁.trans hk⟩
      · exact ⟨o', ho', hk⟩
  | releaseBootstrapLease =>
    obtain ⟨o, ho, rfl⟩ := releaseBootstrapLease_ok h
    obtain ⟨hf, -, -⟩ := heldRow_eq_some.mp ho
    refine ⟨fun i b' hb' => .inl (Option.isSome_iff_exists.mpr ⟨b', hb'⟩), fun i o' ho' hk => .inl ?_⟩
    have ho' : (w.site.db.operations.put
      { o with state := .pending, lease := none, updatedAt := w.site.db.clock }).find i = some o' := ho'
    obtain ⟨o₁, ho₁, hk₁⟩ := kind_put_operation hf (by rfl) (by rfl) ho'
    exact ⟨o₁, ho₁, hk₁.trans hk⟩

theorem Inserts.fromBoots {w : World} {r : BootstrapRequest} {u : Uuids} {s₁ s' : Site} (h : Inserts w r u s₁ s') :
    FromBoots w (.finish r u) s' := by
  refine ⟨fun i b' hb' => ?_, fun i o' ho' hk => ?_⟩
  · by_cases hi : u 0 = i
    · exact .inr ⟨r, u, s₁, rfl, h, hi.symm⟩
    · rw [h.eq] at hb'
      have hb' : (s₁.bootstraps.put ⟨u 0, r.zoneId, r.clusterId, r.requestId, .requested⟩).find i = some b' := hb'
      rw [Table.find_put, if_neg hi, h.same.boots] at hb'
      exact .inl (Option.isSome_iff_exists.mpr ⟨b', hb'⟩)
  · by_cases hi : u 0 = i
    · exact .inr ⟨r, u, s₁, rfl, h, hi.symm⟩
    · rw [h.eq] at ho'
      have ho' : (s₁.db.operations.put (bootstrapOperation r u s₁.db.clock)).find i = some o' := ho'
      rw [Table.find_put, if_neg (show ¬(bootstrapOperation r u s₁.db.clock).id = i from hi), h.same.ops] at ho'
      exact .inl ⟨o', ho', hk⟩

/-- **Only a bootstrap request inserts a bootstrap or its operation.** -/
theorem step_fromBoots (E : Env) {w : World} (hw : Whole w.site) (a : Act) : FromBoots w a (step E w a).site := by
  have hst := step_cases E hw a
  generalize (step E w a).site = s' at hst ⊢
  cases hst with
  | grows _ hg _ => exact hg.sameBoots.fromBoots
  | call _ h =>
    refine ⟨fun i b' hb' => .inl (Option.isSome_iff_exists.mpr ⟨b', hb'⟩), fun i o' ho' hk => .inl ?_⟩
    obtain ⟨o, ho, hi⟩ := code_inserts_no_bootstrap h ho' hk
    exact ⟨o, ho, (congrArg Prod.fst hi).trans hk⟩
  | controller _ h => exact fromBoots_controller h
  | finish hr hg _ hi ht => exact Inserts.fromBoots ⟨hr, hg.sameBoots, hi, ht, rfl⟩
  | tick n => exact SameBoots.fromBoots ⟨rfl, rfl⟩

/-- the rows that a committed bootstrap request leaves -/
theorem Inserts.rows {w : World} {r : BootstrapRequest} {u : Uuids} {s₁ s' : Site} (h : Inserts w r u s₁ s') :
    s'.bootstraps.find (u 0) = some ⟨u 0, r.zoneId, r.clusterId, r.requestId, .requested⟩ ∧
      s'.db.operations.find (u 0) = some (bootstrapOperation r u s₁.db.clock) := by
  rw [h.eq]
  exact ⟨Table.find_put_self s₁.bootstraps ⟨u 0, r.zoneId, r.clusterId, r.requestId, .requested⟩,
    Table.find_put_self s₁.db.operations (bootstrapOperation r u s₁.db.clock)⟩

/-- the copy a claim hands out names a row of its kind, zone and fence -/
theorem claimed_row {E : Env} {c : Call} {ans : Operation → Bool} {d : DB} {y : Reply × DB}
    (h : (code E.externals c).run ans d = .ok y) {op : Operation} (hop : op ∈ Reply.claimed y.1)
    (hk : op.kind = .createCluster) : ∃ o, y.2.operations.find op.id = some o ∧ o.kind = .createCluster ∧
      o.zoneId = op.zoneId ∧ op.fence ≤ o.fence := by
  cases c <;> simp only [code, bind_eq, run_bind_ok, pure_eq, run_done, Except.ok.injEq] at h <;>
    obtain ⟨p, hp, rfl⟩ := h <;> simp [Reply.claimed] at hop
  case claimBootstrap z k owner t l =>
    subst hop
    obtain ⟨o, hf, hko, -, rfl⟩ := claimBootstrap_ok hp
    exact ⟨o.claimed d owner t, Table.find_put_self d.operations (o.claimed d owner t), hko, rfl, le_rfl⟩
  case claimDominator z k owner t l =>
    subst hop
    simp only [claimDominator, bind_eq, run_require_bind] at hp
    obtain ⟨hkind, hp⟩ := hp
    obtain ⟨o, hc, -, rfl⟩ := claim_ok hp
    obtain ⟨-, hko, -⟩ := claimCandidate_spec hc
    have hk : o.kind = .createCluster := hk
    rcases hkind with rfl | rfl <;> simp [hk] at hko

theorem step_rows (E : Env) {w : World} (hw : Whole w.site) (hr : Rows w) (a : Act) : Rows (step E w a) := by
  have hsteps := step_boots E hw hr a
  have hfrom := step_fromBoots E hw a
  have hboots : ∀ i o', (step E w a).site.db.operations.find i = some o' → o'.kind = .createCluster →
      ((step E w a).site.bootstraps.find i).isSome = true := by
    intro i o' ho' hk
    rcases hfrom.2 i o' ho' hk with ⟨o, ho, hko⟩ | ⟨r, u, s₁, -, hins, rfl⟩
    · obtain ⟨b, hb⟩ := Option.isSome_iff_exists.mp (hr.boots i o ho hko)
      obtain ⟨-, b', -, hb', -⟩ := hsteps i o b ho hb
      rw [hb']
      rfl
    · rw [hins.rows.1]
      rfl
  -- a row that a copy names is still there, with its kind, zone and a fence that has not gone back
  have hkeep : ∀ op : Operation, (∃ o, w.site.db.operations.find op.id = some o ∧ o.kind = .createCluster ∧
      o.zoneId = op.zoneId ∧ op.fence ≤ o.fence) → ∃ o, (step E w a).site.db.operations.find op.id = some o ∧
      o.kind = .createCluster ∧ o.zoneId = op.zoneId ∧ op.fence ≤ o.fence := by
    rintro op ⟨o, ho, hk, hz, hf⟩
    obtain ⟨b, hb⟩ := Option.isSome_iff_exists.mp (hr.boots op.id o ho hk)
    obtain ⟨o', b', ho', hb', hs⟩ := hsteps op.id o b ho hb
    have hi := hs.intent
    simp only [OperationRow.intent, Prod.mk.injEq] at hi
    exact ⟨o', ho', hi.1.trans hk, hi.2.1.trans hz, hf.trans hs.fence_le⟩
  refine ⟨fun i b' hb' => ?_, hboots, fun op hop hk => ?_⟩
  · rcases hfrom.1 i b' hb' with hsome | ⟨r, u, s₁, -, hins, rfl⟩
    · obtain ⟨b, hb⟩ := Option.isSome_iff_exists.mp hsome
      obtain ⟨o, ho, hboot, hz, hagree⟩ := hr.ops i b hb
      obtain ⟨o', b'', ho', hb'', hs⟩ := hsteps i o b ho hb
      obtain rfl := Option.some.inj (hb''.symm.trans hb')
      have hi := hs.intent
      simp only [OperationRow.intent, Prod.mk.injEq] at hi
      exact ⟨o', ho', ⟨hi.1.trans hboot.kind, hi.2.2.1.trans hboot.group⟩, hi.2.1.trans (hz.trans hs.ids.1.symm),
        hs.agrees hagree⟩
    · obtain ⟨hb, ho⟩ := hins.rows
      obtain rfl := Option.some.inj (hb.symm.trans hb')
      exact ⟨_, ho, ⟨rfl, rfl⟩, rfl, rfl⟩
  · cases a with
    | call c ans =>
      simp only [step] at hop hkeep ⊢
      split_ifs at hop hkeep ⊢
      · exact hr.held op hop hk
      · split at hop
        · rename_i reply d h
          simp only [h] at hkeep ⊢
          rcases List.mem_append.mp hop with hnew | hold
          · exact claimed_row h hnew hk
          · exact hkeep op (hr.held op hold hk)
        · rename_i h
          simp only [h] at hkeep ⊢
          exact hr.held op hop hk
    | controller op' c =>
      refine hkeep op (hr.held op ?_ hk)
      simp only [step] at hop
      split_ifs at hop <;> exact hop
    | «open» i =>
      refine hkeep op (hr.held op ?_ hk)
      simp only [step] at hop
      split_ifs at hop
      · exact hop
      · split at hop <;> exact hop
    | finish i u =>
      refine hkeep op (hr.held op ?_ hk)
      simp only [step] at hop
      split_ifs at hop <;> exact hop
    | _ => exact hkeep op (hr.held op hop hk)

theorem start_rows (clock : ℕ) (hosts : Table Host.id) : Rows (start clock hosts) :=
  ⟨fun _ _ h => by simp [start, empty] at h, fun _ _ h => by simp [start, empty] at h, fun _ h => by simp [start] at h⟩

theorem run_rows (E : Env) {w : World} (hw : Whole w.site) (hr : Rows w) (acts : List Act) :
    Whole (run E w acts).site ∧ Rows (run E w acts) := by
  induction acts generalizing w with
  | nil => exact ⟨hw, hr⟩
  | cons a acts ih => exact ih (step_kept E hw a).2 (step_rows E hw hr a)

/-! ## Superseded controllers -/

/-- the lease of the caller's copy has expired, or the operation was claimed again with a higher fence -/
def superseded (op : Operation) (s : Site) : Bool :=
  (s.db.operations.find op.id).any fun o => o.kind = .createCluster &&
    (op.fence < o.fence || (o.fence = op.fence && o.lease.all fun l => l.expires ≤ s.db.clock))

theorem superseded_iff {op : Operation} {s : Site} : superseded op s = true ↔
    ∃ o, s.db.operations.find op.id = some o ∧ o.kind = .createCluster ∧ Lapsed op.fence s.db.clock o := by
  simp [superseded, Option.any_eq_true, Lapsed, Option.all_eq_true]

theorem superseded_fenced {op : Operation} {s : Site} (h : superseded op s = true) (p : OperationRow → Bool) :
    heldRow s.db op p = none := by
  obtain ⟨o, ho, -, hl⟩ := superseded_iff.mp h
  cases hr : heldRow s.db op p with
  | none => rfl
  | some o' =>
    obtain ⟨ho', hh, -⟩ := heldRow_eq_some.mp hr
    obtain rfl := Option.some.inj (ho.symm.trans ho')
    simp [hl.not_held] at hh

theorem advance_clock (o : OperationRow) (b : Bootstrap) (next : ZoneBootstrapPhase) (s : Site) :
    (advance o b next s).db.clock = s.db.clock := by
  unfold advance
  dsimp only
  by_cases ht : next.terminal = true
  · rw [if_pos ht]
    rfl
  · rw [if_neg ht]

theorem controller_clock {op : Operation} {c : ControllerCall} {s s' : Site} (h : c.run op s = (s', .ok ())) :
    s'.db.clock = s.db.clock := by
  cases c with
  | setClusterDiscovery r =>
    obtain ⟨c, -, rfl⟩ := setClusterDiscovery_ok h
    rfl
  | recordBootstrapHost r =>
    rcases recordBootstrapHost_ok h with rfl | ⟨-, rfl⟩ | ⟨k, -, -, -, -, rfl⟩ <;> rfl
  | setDominatorRoute r =>
    obtain ⟨-, b, -, -, rfl | ⟨-, rfl⟩⟩ := setDominatorRoute_ok h <;> rfl
  | bootstrapPhase next v =>
    obtain ⟨-, o, b, -, he⟩ := bootstrapPhase_ok h
    obtain ⟨s₁, -, hclock, rfl⟩ := enterPhase_advance he
    exact (advance_clock o b next s₁).trans hclock
  | releaseBootstrapLease =>
    obtain ⟨o, -, rfl⟩ := releaseBootstrapLease_ok h
    rfl

theorem Grows.clock {s s' : Site} (h : Grows s s') : s'.db.clock = s.db.clock := by
  have hc : s'.runtime.db.clock = s.runtime.db.clock := by rw [h.runtime]
  exact hc

theorem step_clock (E : Env) {w : World} (hw : Whole w.site) (a : Act) :
    w.site.db.clock ≤ (step E w a).site.db.clock := by
  have hst := step_cases E hw a
  generalize (step E w a).site = s' at hst ⊢
  cases hst with
  | grows _ hg _ => exact hg.clock.ge
  | call _ h => exact (code_clock h).ge
  | controller _ h => exact (controller_clock h).ge
  | finish _ hg _ _ _ => exact hg.clock.ge
  | tick n => exact Nat.le_add_right _ _

/-- **Once superseded, a controller stays superseded.** -/
theorem superseded_run (E : Env) {w : World} (hw : Whole w.site) (hr : Rows w) {op : Operation}
    (h : superseded op w.site = true) (acts : List Act) : superseded op (run E w acts).site = true := by
  induction acts generalizing w with
  | nil => exact h
  | cons a acts ih =>
    refine ih (step_kept E hw a).2 (step_rows E hw hr a) ?_
    obtain ⟨o, ho, hk, hl⟩ := superseded_iff.mp h
    obtain ⟨b, hb⟩ := Option.isSome_iff_exists.mp (hr.boots op.id o ho hk)
    obtain ⟨o', b', ho', -, hs⟩ := step_boots E hw hr a op.id o b ho hb
    have hi := hs.intent
    simp only [OperationRow.intent, Prod.mk.injEq] at hi
    refine superseded_iff.mpr ⟨o', ho', hi.1.trans hk, (hs.lapsed hl).imp_right ?_⟩
    rintro ⟨hf, hexp⟩
    exact ⟨hf, fun l hlease => (hexp l hlease).trans (step_clock E hw a)⟩

/-- every row of every table is as it was -/
structure Unchanged (s s' : Site) : Prop where
  rows : ∀ k, s'.db.look k = s.db.look k
  bootstraps : s'.bootstraps = s.bootstraps
  topology : s'.regions = s.regions ∧ s'.software = s.software ∧ s'.names = s.names

theorem Unchanged.refl (s : Site) : Unchanged s s := ⟨fun _ => rfl, rfl, rfl, rfl, rfl⟩

/-- a call that does not record a host, or repeats what is recorded, or names another instance than the recorded one -/
def ControllerCall.repeats (op : Operation) (s : Site) : ControllerCall → Bool
  | .recordBootstrapHost r => (s.db.hosts.find (bootstrapHostId op)).any fun k =>
      k.providerId ≠ some r.providerHostId || k = Host.rerecorded k (bootstrapHost op r s.db.clock)
  | _ => true

theorem superseded_call {op : Operation} {s : Site} (h : superseded op s = true) {c : ControllerCall}
    (hc : c.repeats op s = true) : Unchanged s (c.run op s).1 := by
  have hheld : heldBootstrap s op = none := by simp [heldBootstrap, superseded_fenced h]
  rcases controller_rollsBack op c s with ⟨s', hrun⟩ | ⟨e, hrun⟩
  · rw [hrun]
    cases c with
    | setClusterDiscovery r =>
      obtain ⟨c, hd, -⟩ := setClusterDiscovery_ok hrun
      obtain ⟨o, b, hh, -⟩ := discoverable_eq_some hd
      simp [hheld] at hh
    | recordBootstrapHost r =>
      simp only [ControllerCall.repeats, Option.any_eq_true, Bool.or_eq_true, decide_eq_true_eq] at hc
      obtain ⟨k, hk, hsame⟩ := hc
      rcases recordBootstrapHost_ok hrun with rfl | ⟨hn, -⟩ | ⟨k', hk', -, -, hp, rfl⟩
      · exact .refl _
      · simp [hk] at hn
      · obtain rfl := Option.some.inj (hk.symm.trans hk')
        have heq := hsame.resolve_left fun hne => hne hp
        rw [← heq]
        refine ⟨fun key => ?_, rfl, rfl, rfl, rfl⟩
        by_cases hkey : (Row.host k).key = key
        · subst hkey
          have hid : s.db.hosts.find k.id = some k := Table.find_mem (Table.mem_of_find hk)
          exact (DB.look_put_self (.host k) s.db).trans (by simp [DB.look, Row.key, hid])
        · exact DB.look_put_ne (.host k) s.db key hkey
    | setDominatorRoute r =>
      obtain ⟨o, b, hh, -⟩ := setDominatorRoute_ok hrun
      simp [hheld] at hh
    | bootstrapPhase next v =>
      obtain ⟨-, o, b, hh, -⟩ := bootstrapPhase_ok hrun
      simp [hheld] at hh
    | releaseBootstrapLease =>
      obtain ⟨o, ho, -⟩ := releaseBootstrapLease_ok hrun
      simp [superseded_fenced h] at ho
  · rw [hrun]
    exact .refl s

theorem superseded_renew {op : Operation} {s : Site} (h : superseded op s = true) (t : Duration) (ans : Operation → Bool) :
    (renew op t).after ans s.db = s.db := by
  rcases after_cases ans (renew op t) s.db with hsame | ⟨u, hrun⟩
  · exact hsame
  · obtain ⟨o, ho, hh, -⟩ := renew_ok hrun
    obtain ⟨o', ho', -, hl⟩ := superseded_iff.mp h
    obtain rfl := Option.some.inj (ho.symm.trans ho')
    simp [hl.not_held] at hh

/-- **A superseded controller changes nothing**, now or later, unless it records a host that is not recorded as such. -/
theorem superseded_changes_nothing (E : Env) (clock : ℕ) (hosts : Table Host.id) (acts later : List Act) (op : Operation)
    (hs : superseded op (run E (start clock hosts) acts).site = true) :
    let s := (run E (run E (start clock hosts) acts) later).site
    (∀ c : ControllerCall, c.repeats op s = true → Unchanged s (c.run op s).1) ∧
      ∀ t ans, (renew op t).after ans s.db = s.db := by
  intro s
  obtain ⟨hw, hr⟩ := run_rows E (start_whole clock hosts) (start_rows clock hosts) acts
  have hlater : superseded op s = true := superseded_run E hw hr hs later
  exact ⟨fun c hc => superseded_call hlater hc, superseded_renew hlater⟩

namespace Sample

def env : Env := ⟨id, fun _ => some firstZone⟩

def request : BootstrapRequest := ⟨"create_cluster", "request", "c", "z", some (.obj [])⟩

def claimBy (owner : String) : Act :=
  .call (.claimBootstrap "z" .createCluster owner 1000000000 fun _ => false) fun _ => false

/-- controller A holds the new bootstrap -/
def claimedByA : World :=
  run env (start 0 .empty) [.open request, .finish request fun n => if n = 0 then "op" else "token", claimBy "A"]

/-- the copy of controller A -/
def copyA : Operation := claimedByA.held.headD {}

def recorded (image : String) : ControllerCall :=
  .recordBootstrapHost { providerHostId := "i-1", hostPrivateIp := ⟨"10.0.0.1", true⟩, imageId := image }

/-- A has recorded the host, its lease runs out, and B claims the operation -/
def takenOver : List Act := [.controller copyA (recorded "image"), .tick 2000000, claimBy "B"]

/-- the recorded image of the bootstrap's host -/
def image (s : Site) : Option String := (s.db.hosts.find "bootstrap/op").map Host.imageId

/-- a superseded controller replaces the image of the protected host -/
theorem superseded_records_image : superseded copyA (run env claimedByA takenOver).site = true ∧
    image (run env claimedByA takenOver).site = some "image" ∧
    image ((recorded "other").run copyA (run env claimedByA takenOver).site).1 = some "other" := by
  decide +kernel

/-- after B's claim, A can record what is recorded and nothing else -/
theorem superseded_changes_nothing_taken :
    let acts := [.open request, .finish request fun n => if n = 0 then "op" else "token", claimBy "A"] ++ takenOver
    let s := (run env (run env (start 0 .empty) acts) []).site
    superseded copyA (run env (start 0 .empty) acts).site = true ∧ (recorded "image").repeats copyA s = true ∧
      Unchanged s ((recorded "image").run copyA s).1 := by
  intro acts s
  have hs : superseded copyA (run env (start 0 .empty) acts).site = true := by decide +kernel
  have hrep : (recorded "image").repeats copyA s = true := by decide +kernel
  exact ⟨hs, hrep, (superseded_changes_nothing env 0 .empty acts [] copyA hs).1 (recorded "image") hrep⟩

end Sample

end Crane.Topology
