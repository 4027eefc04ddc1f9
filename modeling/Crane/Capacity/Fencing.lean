/-
Fencing (leases and fence counters of `internal/capacity/store.go` and `provision_handoff.go`).

A history is any sequence of committed or refused calls by any callers, with the clock moving between them. `holder`
reads off the history who made the latest claim of an operation that has not been released, completed or cancelled
since. The row of an operation always agrees with it (`Inv`), so a fenced call takes effect only for that holder and
before its lease runs out, the fences of claims only grow, and what an operation was admitted with never changes.
-/
import Crane.Capacity.Effects
import Mathlib

namespace Crane.Capacity.Fencing

open Tx

variable {ans : Operation → Bool} {ext : Externals}

/-! ## The operation row under one call -/

/-- calls that give the lease back when they succeed -/
def endsLease : Call → Bool
  | .finalizeProvision _ _ | .completeProvision _ | .releaseProvisionLease _ => true
  | _ => false

/-- a fenced call found the caller holding the lease; it keeps fence and admitted columns of the operation, and either
keeps the owner or ends the lease -/
structure FencedRow (d : DB) (c : Call) (op : Operation) (o o' : OperationRow) : Prop where
  row : d.operations.find op.id = some o
  held : o.heldBy op d.clock = true
  active : OperationState.active o.state = true
  intent : o'.intent = o.intent
  fence : o'.fence = o.fence
  state : o'.state ≠ .cancelled
  lease : if endsLease c then o'.lease = none else ∃ l, o'.lease = some l ∧ l.owner = op.leaseOwner

/-- only the named operation's row is rewritten -/
def Rewrites (d d' : DB) (i : String) (o' : OperationRow) : Prop :=
  ∀ j, d'.operations.find j = if i = j then some o' else d.operations.find j

theorem rewrites_put {d : DB} {o : OperationRow} {i : String} (o' : OperationRow) (ho : d.operations.find i = some o)
    (hid : o'.id = o.id) : Rewrites d (d.put (.operation o')) i o' := by
  obtain rfl : o.id = i := Table.key_of_find ho
  intro j
  simp only [DB.put, Table.find_put, hid]

/-- the operations table is as it was -/
theorem rewrites_same {d d' : DB} {o : OperationRow} {i : String} (ho : d.operations.find i = some o)
    (he : d'.operations = d.operations) : Rewrites d d' i o := by
  intro j
  rw [he]
  split_ifs with hj
  · rw [← hj, ho]
  · rfl

/-- the holder found by `heldBy` -/
theorem lease_of_held {o : OperationRow} {op : Operation} {now : ℕ} (h : o.heldBy op now = true) :
    o.fence = op.fence ∧ ∃ l, o.lease = some l ∧ l.owner = op.leaseOwner ∧ now < l.expires := by
  simpa [OperationRow.heldBy, Option.any_eq_true] using h

/-- the lease of a held row that a call leaves alone -/
theorem kept_lease {o : OperationRow} {op : Operation} {now : ℕ} (h : o.heldBy op now = true) :
    ∃ l, o.lease = some l ∧ l.owner = op.leaseOwner := by
  obtain ⟨-, l, hl, ho, -⟩ := lease_of_held h
  exact ⟨l, hl, ho⟩

theorem active_launching {o : OperationRow} (h : o.state = .launching) : OperationState.active o.state = true := by
  rw [h]
  rfl

theorem active_not_cancelled {s : OperationState} (h : OperationState.active s = true) : s ≠ .cancelled := by
  rintro rfl
  simp [OperationState.active] at h

/-- a fenced call that does not write the operation row -/
theorem FencedRow.unchanged {d : DB} {c : Call} {op : Operation} {o : OperationRow}
    (hf : d.operations.find op.id = some o) (hh : o.heldBy op d.clock = true) (ha : OperationState.active o.state = true)
    (hc : endsLease c = false) : FencedRow d c op o o :=
  ⟨hf, hh, ha, rfl, rfl, active_not_cancelled ha, by simpa [hc] using kept_lease hh⟩

/-- a fenced UPDATE of the operation row -/
theorem fencedRow_operation (c : Call) {d : DB} {op : Operation} {p : DB → OperationRow → Bool}
    {f : DB → OperationRow → OperationRow} {x : Unit × DB}
    (h : (fencedUpdate fun d => (heldRow d op (p d)).map fun o => .operation (f d o)).run ans d = .ok x)
    (hf : ∀ o, (f d o).id = o.id ∧ (f d o).intent = o.intent ∧ (f d o).fence = o.fence)
    (ha : ∀ o, p d o = true → OperationState.active o.state = true)
    (hs : ∀ o, o.state ≠ .cancelled → (f d o).state ≠ .cancelled)
    (hl : ∀ o, (∃ l, o.lease = some l ∧ l.owner = op.leaseOwner) →
      if endsLease c then (f d o).lease = none else ∃ l, (f d o).lease = some l ∧ l.owner = op.leaseOwner) :
    ∃ o o', FencedRow d c op o o' ∧ Rewrites d x.2 op.id o' := by
  obtain ⟨o, ho, hh, hp, hx⟩ := fenced_operation h
  refine ⟨o, f d o, ⟨ho, hh, ha o hp, (hf o).2.1, (hf o).2.2, hs o (active_not_cancelled (ha o hp)), ?_⟩, ?_⟩
  · exact hl o (kept_lease hh)
  · rw [hx]
    exact rewrites_put _ ho (hf o).1

/-- **One row lemma for all fenced calls.** -/
theorem fenced_row {c : Call} {op : Operation} (hc : c.fenced = some op) {d : DB} {x : Reply × DB}
    (h : (code ext c).run ans d = .ok x) : ∃ o o', FencedRow d c op o o' ∧ Rewrites d x.2 op.id o' := by
  cases c <;> simp only [Call.fenced, Option.some.injEq, reduceCtorEq] at hc <;> subst hc <;>
    simp only [code, bind_eq, run_bind_ok, pure_eq, run_done, Except.ok.injEq] at h <;> obtain ⟨y, hy, rfl⟩ := h
  case renew op duration =>
    simp only [renew, bind_eq, run_require_bind] at hy
    refine fencedRow_operation _ hy.2 (fun _ => ⟨rfl, rfl, rfl⟩) (fun o hp => ?_) (fun _ h => h) fun _ _ => ⟨_, rfl, rfl⟩
    simp only [Bool.and_eq_true] at hp
    exact hp.1
  case beginLaunch op =>
    refine fencedRow_operation _ hy (fun _ => ⟨rfl, rfl, rfl⟩) (fun o hp => ?_) (fun _ _ => by simp) fun _ h => h
    simp only [Bool.and_eq_true] at hp
    exact hp.1
  case recordLaunchWithAddress op p ip np =>
    simp only [recordLaunchWithAddress, fencedUpdate, bind_eq, run_require_bind, updateOne_bind, run_update_bind, pure_eq,
      run_done] at hy
    obtain ⟨-, r, hr, -, r', hr', hx⟩ := hy
    obtain ⟨o, ho, rfl⟩ := Option.map_eq_some_iff.mp hr
    obtain ⟨h', -, rfl⟩ := Option.map_eq_some_iff.mp hr'
    obtain ⟨hf, hh, -, -, hl⟩ := launchingRow_eq_some.mp ho
    obtain rfl := Except.ok.inj hx
    refine ⟨o, { o with updatedAt := d.clock }, ⟨hf, hh, active_launching hl, rfl, rfl, by simp [hl],
      by simpa [endsLease] using kept_lease hh⟩, ?_⟩
    rw [putAll_reservations]
    exact rewrites_put { o with updatedAt := d.clock } hf rfl
  case setProvisionDesiredVersion op v =>
    simp only [setProvisionDesiredVersion, bind_eq, run_require_bind] at hy
    obtain ⟨o, k, hf, hh, -, hl, -, -, -, hx⟩ := fenced_host hy.2
    exact ⟨o, o, .unchanged hf hh (active_launching hl) rfl, rewrites_same hf (by rw [hx]; rfl)⟩
  case setProvisionState op e n =>
    simp only [setProvisionState, bind_eq, run_require_bind] at hy
    obtain ⟨o, k, hf, hh, -, hl, -, -, -, hx⟩ := fenced_host hy.2
    exact ⟨o, o, .unchanged hf hh (active_launching hl) rfl, rewrites_same hf (by rw [hx]; rfl)⟩
  case bindProvisionNode op n =>
    obtain ⟨-, b, hb, hx⟩ := bindProvisionNode_ok hy
    obtain ⟨o, ho, -⟩ := bindRow_spec hb
    obtain ⟨hf, hh, -, -, hl⟩ := launchingRow_eq_some.mp ho
    exact ⟨o, o, .unchanged hf hh (active_launching hl) rfl, rewrites_same hf (by rw [hx]; rfl)⟩
  case pinProvisionExpectedState op e =>
    obtain ⟨o, k, b, ht, -, -, -, -, -, -, hx⟩ := pinProvisionExpectedState_ok hy
    obtain ⟨hf, hh, -, hl, -⟩ := pinTarget_eq_some ht
    exact ⟨o, o, .unchanged hf hh (active_launching hl) rfl, rewrites_same hf (by rw [hx]; rfl)⟩
  case prepareProvisionRelease op v =>
    obtain ⟨r, hr, hx⟩ := updateOne_ok.mp hy
    obtain ⟨b, hb, rfl⟩ := Option.map_eq_some_iff.mp hr
    obtain ⟨o, k, hf, hh, hl, -⟩ := prepareRow_spec hb
    exact ⟨o, o, .unchanged hf hh (active_launching hl) rfl, rewrites_same hf (by rw [hx]; rfl)⟩
  case finalizeProvision op v =>
    simp only [finalizeProvision, fencedUpdate, bind_eq, run_selectForUpdate_bind, run_orFail_bind, run_external_bind,
      run_require_bind, updateOne_bind, updateOne_ok] at hy
    obtain ⟨t, ht, -, r, hr, r', hr', hx⟩ := hy
    have hs := finalizeTarget_spec ht
    obtain ⟨k, -, rfl⟩ := Option.map_eq_some_iff.mp hr
    obtain ⟨o', ho', rfl⟩ := Option.map_eq_some_iff.mp hr'
    have hf' := (Option.filter_eq_some_iff.mp ho').1
    obtain rfl : t.op = o' := Option.some.inj (hs.row.symm.trans hf')
    refine ⟨t.op, { t.op with state := .succeeded, lease := none, updatedAt := d.clock },
      ⟨hs.row, hs.heldNow, active_launching hs.launching, rfl, rfl, by simp, rfl⟩, ?_⟩
    rw [hx]
    exact rewrites_put _ hs.row rfl
  case completeProvision op =>
    obtain ⟨r, hr, hx⟩ := updateOne_ok.mp hy
    obtain ⟨o, ho, rfl⟩ := Option.map_eq_some_iff.mp hr
    obtain ⟨hf, hh, -, -, hl⟩ := launchingRow_eq_some.mp (Option.filter_eq_some_iff.mp ho).1
    refine ⟨o, { o with state := .succeeded, lease := none, updatedAt := d.clock },
      ⟨hf, hh, active_launching hl, rfl, rfl, by simp, rfl⟩, ?_⟩
    rw [hx]
    exact rewrites_put _ hf rfl
  case recordProvisionFailure op category =>
    simp only [recordProvisionFailure, bind_eq, run_require_bind] at hy
    refine fencedRow_operation (p := fun _ o => o.kind = .provision && OperationState.active o.state) _ hy.2
      (fun _ => ⟨rfl, rfl, rfl⟩) (fun o hp => ?_) (fun _ h => h) fun _ h => h
    simp only [Bool.and_eq_true] at hp
    exact hp.2
  case releaseProvisionLease op =>
    refine fencedRow_operation (p := fun _ o => o.kind = .provision && OperationState.active o.state) _ hy
      (fun _ => ⟨rfl, rfl, rfl⟩) (fun o hp => ?_) (fun o _ => ?_) fun _ _ => rfl
    · simp only [Bool.and_eq_true] at hp
      exact hp.2
    · dsimp only
      split_ifs <;> simp

/-- what a committed call `c` with reply `r` can do to the row of an existing operation -/
inductive RowChange (d : DB) (c : Call) (r : Reply) : OperationRow → OperationRow → Prop
  | same (o : OperationRow) : RowChange d c r o o
  | fenced {o o' : OperationRow} (op : Operation) (hc : c.fenced = some op) (hf : FencedRow d c op o o') :
      RowChange d c r o o'
  | claim (o : OperationRow) (owner : String) (duration : Duration) (hc : c.isClaim = true)
      (hr : r = .operation (o.claimed d owner duration).toOperation) :
      RowChange d c r o (o.claimed d owner duration)
  | cancel (o : OperationRow) (hp : o.state = .pending) (hl : o.lease = none) :
      RowChange d c r o (o.cancelled d.clock)

/-- the operations after a committed call: each existing one by its `RowChange`, and fresh ones; the operation that a
claim returned or a fenced call named is one of the existing ones -/
structure RowsAfter (d : DB) (c : Call) (x : Reply × DB) : Prop where
  old : ∀ i o, d.operations.find i = some o → ∃ o', x.2.operations.find i = some o' ∧ RowChange d c x.1 o o'
  new : ∀ i o', d.operations.find i = none → x.2.operations.find i = some o' → o'.Fresh
  claimed : c.isClaim = true → ∃ o owner duration, d.operations.find o.id = some o ∧
    x.2.operations.find o.id = some (o.claimed d owner duration) ∧
    x.1 = .operation (o.claimed d owner duration).toOperation
  fenced : ∀ op, c.fenced = some op → ∃ o o', FencedRow d c op o o' ∧ x.2.operations.find op.id = some o'

/-- rewriting one row is its `RowChange` and leaves the others -/
theorem Rewrites.rows {d : DB} {c : Call} {r : Reply} {d' : DB} {i : String} {o o' : OperationRow}
    (hr : Rewrites d d' i o') (ho : d.operations.find i = some o) (hc : RowChange d c r o o') :
    (∀ i o, d.operations.find i = some o → ∃ o', d'.operations.find i = some o' ∧ RowChange d c r o o') ∧
    ∀ i o', d.operations.find i = none → d'.operations.find i = some o' → o'.Fresh := by
  refine ⟨fun j p hp => ?_, fun j p hn hp => ?_⟩
  · rw [hr j]
    split_ifs with hj
    · obtain rfl : o = p := Option.some.inj (ho.symm.trans (hj ▸ hp))
      exact ⟨o', rfl, hc⟩
    · exact ⟨p, hp, .same p⟩
  · rw [hr j] at hp
    split_ifs at hp with hj
    · simp [← hj, ho] at hn
    · simp [hn] at hp

theorem claim_rows {c : Call} (hc : c.isClaim = true) (hf : c.fenced = none) {zoneId : String} {kind : OperationKind}
    {owner : String} {duration : Duration} {authorize : Bool} {locked : String → Bool} {d : DB} {y : Operation × DB}
    (h : (claim zoneId kind owner duration authorize locked).run ans d = .ok y) :
    RowsAfter d c (.operation y.1, y.2) := by
  obtain ⟨o, hcand, -, rfl⟩ := claim_ok h
  obtain ⟨ho, -, -⟩ := claimCandidate_spec hcand
  have hr : Rewrites d (d.put (.operation (o.claimed d owner duration))) o.id (o.claimed d owner duration) :=
    rewrites_put _ ho rfl
  obtain ⟨hold, hnew⟩ := hr.rows ho (.claim o owner duration hc rfl)
  exact ⟨hold, hnew, fun _ => ⟨o, owner, duration, ho, by simp [hr o.id], rfl⟩, fun op h => by simp [hf] at h⟩

theorem code_rows {c : Call} {d : DB} (hw : d.WF) {x : Reply × DB} (h : (code ext c).run ans d = .ok x) :
    RowsAfter d c x := by
  cases hc : c.fenced with
  | some op =>
    obtain ⟨o, o', hf, hr⟩ := fenced_row hc h
    obtain ⟨hold, hnew⟩ := hr.rows (r := x.1) hf.row (.fenced op hc hf)
    refine ⟨hold, hnew, fun hcl => ?_, fun op' ho' => ?_⟩
    · cases c <;> simp [Call.isClaim, Call.fenced] at hcl hc
    · obtain rfl : op = op' := Option.some.inj (hc.symm.trans ho')
      exact ⟨o, o', hf, by simp [hr op.id]⟩
  | none =>
    have hno : ∀ op, c.fenced = some op → ∃ o o', FencedRow d c op o o' ∧ x.2.operations.find op.id = some o' :=
      fun op h => by simp [hc] at h
    cases code_outcome hw h with
    | fenced op hf _ => simp [hf] at hc
    | admits hca ha =>
      refine ⟨fun i o ho => ⟨o, ha.ops i o ho, .same o⟩, fun i o' hn ho' => ?_, fun hcl => by simp [hca.2] at hcl, hno⟩
      rcases ha.fresh i o' ho' with ho | ⟨-, hf⟩
      · simp [hn] at ho
      · exact hf
    | decrease g _ _ hd =>
      refine ⟨fun i o ho => ?_, fun i o' hn ho' => ?_, fun hcl => by simp [Call.isClaim] at hcl, hno⟩
      · rcases hd.ops i o ho with ho' | ⟨hp, hl, ho'⟩
        · exact ⟨o, ho', .same o⟩
        · exact ⟨_, ho', .cancel o hp hl⟩
      · obtain ⟨o, ho, -⟩ := exists_of_map_eq (hd.refs.ops i) ho'
        simp [hn] at ho
    | claim =>
      simp only [code, bind_eq, run_bind_ok, pure_eq, run_done, Except.ok.injEq] at h
      obtain ⟨y, hy, rfl⟩ := h
      simp only [claimDominator, bind_eq, run_require_bind] at hy
      exact claim_rows rfl rfl hy.2
    | bootstrap =>
      simp only [code, bind_eq, run_bind_ok, pure_eq, run_done, Except.ok.injEq] at h
      obtain ⟨y, hy, rfl⟩ := h
      simp only [claimBootstrap, bind_eq, run_require_bind] at hy
      exact claim_rows rfl rfl hy.2

/-! ## Histories -/

/-- a committed call -/
structure Event where
  call : Call
  reply : Reply
  before : DB
  after : DB

structure History where
  db : DB
  log : List Event -- newest first

inductive Act where
  | call (c : Call) (released : Bool) -- `released`: what the release callback of this call answers
  | tick (n : ℕ)

def step (ext : Externals) (s : History) : Act → History
  | .call c released => match (code ext c).run (fun _ => released) s.db with
    | .ok (r, d) => ⟨d, ⟨c, r, s.db, d⟩ :: s.log⟩
    | .error _ => s
  | .tick n => { s with db := s.db.tick n }

def run (ext : Externals) (s : History) (acts : List Act) : History := acts.foldl (step ext) s

def start (c : Catalog) : History := ⟨c.db, []⟩

/-- the operation a claim returned -/
def Event.claimed (e : Event) : Option Operation :=
  match e.reply with
  | .operation op => if e.call.isClaim then some op else none
  | _ => none

/-- the operation, with owner and fence, in whose name the call took effect -/
def Event.effect (e : Event) : Option Operation := e.claimed.or e.call.fenced

/-- the event gave back, completed or cancelled the lease of operation `i` -/
def Event.ends (e : Event) (i : String) : Bool :=
  (endsLease e.call && e.call.fenced.any fun op => op.id = i) ||
    ((e.after.operations.find i).any fun o => o.state = .cancelled) &&
      !(e.before.operations.find i).any fun o => o.state = .cancelled

/-- owner and fence of the latest claim of `i`, unless it was released, completed or cancelled since -/
def holder (i : String) : List Event → Option (String × ℕ)
  | [] => none
  | e :: log => match e.claimed with
    | some op => if op.id = i then some (op.leaseOwner, op.fence) else if e.ends i then none else holder i log
    | none => if e.ends i then none else holder i log

/-! ## The invariant -/

/-- the later of two effects on one operation has no smaller fence, a claim a greater one -/
def Ordered (later earlier : Event) : Prop :=
  ∀ op op', later.effect = some op → earlier.effect = some op' → op.id = op'.id →
    op'.fence ≤ op.fence ∧ (later.claimed.isSome → op'.fence < op.fence)

structure Inv (s : History) : Prop where
  wf : s.db.WF
  lease : ∀ i o l, s.db.operations.find i = some o → o.lease = some l → holder i s.log = some (l.owner, o.fence)
  bound : ∀ e ∈ s.log, ∀ op, e.effect = some op → ∃ o, s.db.operations.find op.id = some o ∧ op.fence ≤ o.fence
  ordered : s.log.Pairwise Ordered

theorem inv_start (c : Catalog) : Inv (start c) where
  wf := c.wf
  lease i o l h := by simp [start, Catalog.db] at h
  bound e he := by simp [start] at he
  ordered := List.Pairwise.nil

/-- fences never go down, admitted columns never change -/
theorem RowChange.mono {d : DB} {c : Call} {r : Reply} {o o' : OperationRow} (h : RowChange d c r o o') :
    o.fence ≤ o'.fence ∧ o'.intent = o.intent := by
  cases h with
  | same => exact ⟨le_rfl, rfl⟩
  | fenced op hc hf => exact ⟨hf.fence.ge, hf.intent⟩
  | claim => exact ⟨Nat.le_succ _, rfl⟩
  | cancel => exact ⟨Nat.le_succ _, rfl⟩

/-- an event that neither claims nor ends the lease of `i` keeps its holder -/
theorem holder_cons {e : Event} {i : String} (hc : ∀ op, e.claimed = some op → op.id ≠ i) (he : e.ends i = false)
    (log : List Event) : holder i (e :: log) = holder i log := by
  cases h : e.claimed with
  | none => simp [holder, h, he]
  | some op => simp [holder, h, he, hc op h]

section Step
variable {s : History} {c : Call} {r : Reply} {d : DB}

/-- the row before an event that took effect in the name of `op` -/
theorem effect_row (hr : RowsAfter s.db c (r, d)) {op : Operation} (he : (⟨c, r, s.db, d⟩ : Event).effect = some op) :
    ∃ o o', s.db.operations.find op.id = some o ∧ d.operations.find op.id = some o' ∧ o'.fence = op.fence ∧
      o.fence ≤ op.fence ∧ ((⟨c, r, s.db, d⟩ : Event).claimed.isSome → o.fence < op.fence) := by
  cases hcl : (⟨c, r, s.db, d⟩ : Event).claimed with
  | some op' =>
    obtain rfl : op' = op := by simpa [Event.effect, hcl] using he
    have hc : c.isClaim = true ∧ r = .operation op' := by
      simp only [Event.claimed] at hcl
      split at hcl
      · simpa [and_comm] using hcl
      · simp at hcl
    obtain ⟨o, owner, duration, ho, ho', hx⟩ := hr.claimed hc.1
    obtain rfl := Reply.operation.inj (hc.2.symm.trans hx)
    exact ⟨o, _, ho, ho', rfl, Nat.le_succ _, fun _ => Nat.lt_succ_self _⟩
  | none =>
    have hc : c.fenced = some op := by simpa [Event.effect, hcl] using he
    obtain ⟨o, o', hf, ho'⟩ := hr.fenced op hc
    have hfe := (lease_of_held hf.held).1
    exact ⟨o, o', hf.row, ho', hf.fence.trans hfe, hfe.le, by simp⟩

theorem claimed_ne_of_same (hr : RowsAfter s.db c (r, d)) {i : String} {o : OperationRow}
    (ho : s.db.operations.find i = some o) (ho' : d.operations.find i = some o) {op : Operation}
    (hcl : (⟨c, r, s.db, d⟩ : Event).claimed = some op) : op.id ≠ i := by
  rintro rfl
  obtain ⟨p, p', hp, hp', hf, -, hlt⟩ := effect_row hr
    (show (⟨c, r, s.db, d⟩ : Event).effect = some op by simp [Event.effect, hcl])
  obtain rfl : o = p := Option.some.inj (ho.symm.trans hp)
  obtain rfl : o = p' := Option.some.inj (ho'.symm.trans hp')
  exact absurd hf (hlt (by simp [hcl])).ne

/-- a row that a call does not change keeps its holder -/
theorem holder_same (hr : RowsAfter s.db c (r, d)) {i : String} {o : OperationRow} {l : Lease}
    (ho : s.db.operations.find i = some o) (ho' : d.operations.find i = some o) (hl : o.lease = some l) :
    holder i (⟨c, r, s.db, d⟩ :: s.log) = holder i s.log := by
  refine holder_cons (fun op hcl => claimed_ne_of_same hr ho ho' hcl) ?_ _
  have hend : (endsLease c && c.fenced.any fun op => op.id = i) = false := by
    rw [Bool.eq_false_iff]
    intro he
    simp only [Bool.and_eq_true, Option.any_eq_true, decide_eq_true_eq] at he
    obtain ⟨he, op, hop, rfl⟩ := he
    obtain ⟨p, p', hf, hp'⟩ := hr.fenced op hop
    have hlease := hf.lease
    rw [if_pos he, ← Option.some.inj (ho'.symm.trans hp'), hl] at hlease
    simp at hlease
  simp [Event.ends, ho, ho', hend]

theorem lease_step (hi : Inv s) (hr : RowsAfter s.db c (r, d)) {i : String} {o' : OperationRow} {l : Lease}
    (ho' : d.operations.find i = some o') (hl : o'.lease = some l) :
    holder i (⟨c, r, s.db, d⟩ :: s.log) = some (l.owner, o'.fence) := by
  cases ho : s.db.operations.find i with
  | none =>
    rw [(hr.new i o' ho ho').lease] at hl
    simp at hl
  | some o =>
    obtain ⟨_, h', hch⟩ := hr.old i o ho
    obtain rfl := Option.some.inj (ho'.symm.trans h')
    cases hch with
    | same =>
      rw [holder_same hr ho ho' hl]
      exact hi.lease i _ l ho hl
    | cancel hp hn => simp [OperationRow.cancelled, hn] at hl
    | claim owner duration hc hrep =>
      have hid : o.id = i := Table.key_of_find ho
      have hcl : (⟨c, r, s.db, d⟩ : Event).claimed = some (o.claimed s.db owner duration).toOperation := by
        simp only at hrep
        simp [Event.claimed, hrep, hc]
      obtain rfl : _ = l := Option.some.inj hl
      have : (o.claimed s.db owner duration).toOperation.id = i := hid
      simp [holder, hcl, this]
      exact ⟨rfl, rfl⟩
    | fenced op hc hf =>
      obtain rfl : op.id = i := (Table.key_of_find hf.row).symm.trans (Table.key_of_find ho)
      obtain ⟨hfe, l₀, hl₀, hown, -⟩ := lease_of_held hf.held
      have hlease := hf.lease
      have hend : endsLease c = false := by
        cases he : endsLease c with
        | false => rfl
        | true => simp [he, hl] at hlease
      simp only [hend, Bool.false_eq_true, if_false, hl, Option.some.injEq, exists_eq_left'] at hlease
      have hcl : (⟨c, r, s.db, d⟩ : Event).claimed = none := by
        cases c <;> simp [Call.fenced] at hc <;> cases r <;> rfl
      rw [holder_cons (by simp [hcl]) (by simp [Event.ends, hend, ho', hf.state]), hi.lease _ o l₀ ho hl₀, hown, hf.fence,
        hlease]

theorem bound_step (hi : Inv s) (hr : RowsAfter s.db c (r, d)) {e : Event} (he : e ∈ ⟨c, r, s.db, d⟩ :: s.log)
    {op : Operation} (hop : e.effect = some op) : ∃ o, d.operations.find op.id = some o ∧ op.fence ≤ o.fence := by
  rcases List.mem_cons.mp he with rfl | he
  · obtain ⟨o, o', -, ho', hf, -⟩ := effect_row hr hop
    exact ⟨o', ho', hf.ge⟩
  · obtain ⟨o, ho, hle⟩ := hi.bound e he op hop
    obtain ⟨o', ho', hch⟩ := hr.old _ o ho
    exact ⟨o', ho', hle.trans hch.mono.1⟩

theorem ordered_step (hi : Inv s) (hr : RowsAfter s.db c (r, d)) :
    (⟨c, r, s.db, d⟩ :: s.log : List Event).Pairwise Ordered := by
  refine List.pairwise_cons.mpr ⟨fun e he op op' hop hop' hid => ?_, hi.ordered⟩
  obtain ⟨o, o', ho, -, -, hle, hlt⟩ := effect_row hr hop
  obtain ⟨p, hp, hpf⟩ := hi.bound e he op' hop'
  obtain rfl : o = p := Option.some.inj (ho.symm.trans (hid ▸ hp))
  exact ⟨hpf.trans hle, fun hcl => hpf.trans_lt (hlt hcl)⟩

end Step

theorem step_inv (s : History) (a : Act) (hi : Inv s) : Inv (step ext s a) := by
  cases a with
  | tick n => exact ⟨hi.wf.of_sameRefs ⟨fun _ => rfl, fun _ => rfl, fun _ => rfl, fun _ b hb => .inl ⟨b, hb, rfl⟩⟩,
      hi.lease, hi.bound, hi.ordered⟩
  | call c released =>
    simp only [step]
    cases hrun : (code ext c).run (fun _ => released) s.db with
    | error e => exact hi
    | ok x =>
      have hr : RowsAfter s.db c (x.1, x.2) := code_rows hi.wf hrun
      exact ⟨code_wf hi.wf hrun, fun _ _ _ ho hl => lease_step hi hr ho hl, fun _ he _ hop => bound_step hi hr he hop,
        ordered_step hi hr⟩

theorem run_inv (s : History) (acts : List Act) (hi : Inv s) : Inv (run ext s acts) := by
  induction acts generalizing s with
  | nil => exact hi
  | cons a acts ih => exact ih _ (step_inv s a hi)

/-! ## Results -/

theorem step_intent (s : History) (a : Act) (hi : Inv s) {i : String} {o : OperationRow}
    (ho : s.db.operations.find i = some o) :
    ∃ o', (step ext s a).db.operations.find i = some o' ∧ o'.intent = o.intent := by
  cases a with
  | tick n => exact ⟨o, ho, rfl⟩
  | call c released =>
    simp only [step]
    cases hrun : (code ext c).run (fun _ => released) s.db with
    | error e => exact ⟨o, ho, rfl⟩
    | ok x =>
      obtain ⟨o', ho', hch⟩ := (code_rows hi.wf hrun).old i o ho
      exact ⟨o', ho', hch.mono.2⟩

theorem run_intent (s : History) (acts : List Act) (hi : Inv s) {i : String} {o : OperationRow}
    (ho : s.db.operations.find i = some o) :
    ∃ o', (run ext s acts).db.operations.find i = some o' ∧ o'.intent = o.intent := by
  induction acts generalizing s o with
  | nil => exact ⟨o, ho, rfl⟩
  | cons a acts ih =>
    obtain ⟨o', ho', he⟩ := step_intent s a hi ho
    obtain ⟨o'', ho'', he'⟩ := ih _ (step_inv s a hi) ho'
    exact ⟨o'', ho'', he'.trans he⟩

/-- a fenced call that changes anything is the holder's, in time -/
theorem effect_held (s : History) (hi : Inv s) {c : Call} {released : Bool} {op : Operation} (hc : c.fenced = some op)
    (hne : (step ext s (.call c released)).db ≠ s.db) :
    holder op.id s.log = some (op.leaseOwner, op.fence) ∧
      ∃ o l, s.db.operations.find op.id = some o ∧ o.lease = some l ∧ s.db.clock < l.expires := by
  simp only [step] at hne
  cases hrun : (code ext c).run (fun _ => released) s.db with
  | error e => simp [hrun] at hne
  | ok x =>
    obtain ⟨o, o', hf, -⟩ := fenced_row hc hrun
    obtain ⟨hfe, l, hl, hown, hlt⟩ := lease_of_held hf.held
    exact ⟨by rw [hi.lease _ o l hf.row hl, hown, hfe], o, l, hf.row, hl, hlt⟩

/-- **A fenced-off controller cannot change provisioning state.** In every history of calls by any callers: no two
claims of an operation return the same fence; a fenced call changes a row only for the owner and fence of the latest
claim that was not released, completed or cancelled, before its lease runs out; effects on one operation come in the
order of their fences; and the columns an operation was admitted with never change. -/
theorem fenced_off (ext : Externals) (cat : Catalog) (acts : List Act) :
    (run ext (start cat) acts).log.Pairwise (fun e e' => ∀ op op', e.claimed = some op → e'.claimed = some op' →
      op.id = op'.id → op.fence ≠ op'.fence) ∧
    (∀ c released op, c.fenced = some op →
      (step ext (run ext (start cat) acts) (.call c released)).db ≠ (run ext (start cat) acts).db →
      holder op.id (run ext (start cat) acts).log = some (op.leaseOwner, op.fence) ∧
      ∃ o l, (run ext (start cat) acts).db.operations.find op.id = some o ∧ o.lease = some l ∧
        (run ext (start cat) acts).db.clock < l.expires) ∧
    (run ext (start cat) acts).log.Pairwise (fun e e' => ∀ op op', e.effect = some op → e'.effect = some op' →
      op.id = op'.id → op'.fence ≤ op.fence) ∧
    ∀ more i o, (run ext (start cat) acts).db.operations.find i = some o →
      ∃ o', (run ext (start cat) (acts ++ more)).db.operations.find i = some o' ∧ o'.kind = o.kind ∧
        o'.zoneId = o.zoneId ∧ o'.groupId = o.groupId ∧ o'.hostId = o.hostId ∧
        o'.capacityRequestId = o.capacityRequestId ∧ o'.providerToken = o.providerToken ∧ o'.parameters = o.parameters := by
  have hi : Inv (run ext (start cat) acts) := run_inv _ acts (inv_start cat)
  refine ⟨hi.ordered.imp ?_, fun c released op hc hne => effect_held _ hi hc hne, hi.ordered.imp ?_, fun more i o ho => ?_⟩
  · intro e e' hord op op' hop hop' hid
    exact ((hord op op' (by simp [Event.effect, hop]) (by simp [Event.effect, hop']) hid).2 (by simp [hop])).ne'
  · exact fun hord op op' hop hop' hid => (hord op op' hop hop' hid).1
  · obtain ⟨o', ho', he⟩ : ∃ o', (run ext (run ext (start cat) acts) more).db.operations.find i = some o' ∧
        o'.intent = o.intent := run_intent _ more hi ho
    simp only [OperationRow.intent, Prod.mk.injEq] at he
    rw [run, List.foldl_append]
    exact ⟨o', ho', he.1, he.2.1, he.2.2.1, he.2.2.2.1, he.2.2.2.2.1, he.2.2.2.2.2.2.1, he.2.2.2.2.2.2.2⟩

end Crane.Capacity.Fencing
