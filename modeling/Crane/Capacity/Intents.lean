/-
What an admission does to provision operations.

An accepted increase adds operations, each with a fresh host and reservation in their first states, and changes no
existing one (`Admits`). An accepted decrease only cancels pending, unleased operations whose host is not past the
launch boundary and marks further hosts as excess (`Decrease`). Both keep referential integrity.
-/
import Crane.Capacity.Lifecycle
import Mathlib.Logic.Relation

namespace Crane.Capacity

open Tx

variable {ans : Operation → Bool}

/-! ## Increases -/

/-- nobody has claimed the operation yet -/
structure OperationRow.Fresh (o : OperationRow) : Prop where
  state : o.state = .pending
  lease : o.lease = none
  fence : o.fence = 0

/-- the states an admitted operation starts in -/
structure View.Initial (v : View) : Prop where
  op : v.op.Fresh
  host : v.host.state = .requested ∧ v.host.providerId = none ∧ v.host.kubernetesProviderId = "" ∧
    v.host.excessCapacity = false
  res : v.res.state = .reserved

/-- operations, hosts and reservations are only added, in their first states -/
structure Admits (d d' : DB) : Prop where
  clock : d'.clock = d.clock
  bindings : d'.provisioning = d.provisioning
  ops : ∀ i o, d.operations.find i = some o → d'.operations.find i = some o
  fresh : ∀ i o, d'.operations.find i = some o → d.operations.find i = some o ∨
    (d.operations.find i = none ∧ o.Fresh)
  hosts : ∀ i h, d.hosts.find i = some h → d'.hosts.find i = some h
  wf : d.WF → d'.WF
  view : d.WF → ∀ v, d'.IsView v → d.IsView v ∨ (d.operations.find v.op.id = none ∧ v.Initial)

theorem Admits.refl (d : DB) : Admits d d :=
  ⟨rfl, rfl, fun _ _ h => h, fun _ _ h => .inl h, fun _ _ h => h, id, fun _ _ h => .inl h⟩

theorem Admits.trans {d d' d'' : DB} (h : Admits d d') (h' : Admits d' d'') : Admits d d'' where
  clock := h'.clock.trans h.clock
  bindings := h'.bindings.trans h.bindings
  ops i o ho := h'.ops i o (h.ops i o ho)
  fresh i o ho := by
    rcases h'.fresh i o ho with ho' | ⟨hn, hf⟩
    · exact h.fresh i o ho'
    · refine .inr ⟨?_, hf⟩
      cases ho : d.operations.find i with
      | none => rfl
      | some o => simp [h.ops _ _ ho] at hn
  hosts i k hk := h'.hosts i k (h.hosts i k hk)
  wf hw := h'.wf (h.wf hw)
  view hw v hv := by
    rcases h'.view (h.wf hw) v hv with hv' | ⟨hn, hi⟩
    · exact h.view hw v hv'
    · refine .inr ⟨?_, hi⟩
      cases ho : d.operations.find v.op.id with
      | none => rfl
      | some o => simp [h.ops _ _ ho] at hn

/-- a state that differs only outside operations, hosts, reservations and bindings -/
theorem Admits.of_eq {d d' : DB} (hc : d'.clock = d.clock) (ho : d'.operations = d.operations) (hh : d'.hosts = d.hosts)
    (hr : d'.reservations = d.reservations) (hb : d'.provisioning = d.provisioning) : Admits d d' where
  clock := hc
  bindings := hb
  ops _ _ h := ho ▸ h
  fresh _ _ h := .inl (ho ▸ h)
  hosts _ _ h := hh ▸ h
  wf hw := hw.of_sameRefs ⟨fun _ => by rw [ho], fun _ => by rw [hh], fun _ => by rw [hr],
    fun _ b h => .inl ⟨b, hb ▸ h, rfl⟩⟩
  view _ v hv := .inl ⟨ho ▸ hv.op, hv.kind, hv.hostId, hh ▸ hv.host, hr ▸ hv.res, hv.resHost⟩

/-- a row that belongs to no provision operation -/
def Row.isSide : Row → Bool
  | .operation _ | .host _ | .provisioning _ | .reservation _ => false
  | _ => true

theorem admits_put_side (d : DB) {r : Row} (h : r.isSide = true) : Admits d (d.put r) := by
  cases r <;> first | exact .of_eq rfl rfl rfl rfl rfl | simp [Row.isSide] at h

/-- the three rows of one intent, with unused keys -/
structure Intent (p : Policy) (requestId : String) (revision : ℤ) (u : Uuids) (d d' : DB) : Prop where
  op : d.operations.find (u 1) = none
  token : ∀ i o, d.operations.find i = some o → o.providerToken ≠ u 2
  host : d.hosts.find (u 0) = none
  res : d.reservations.find (u 3) = none
  resHost : ∀ i r, d.reservations.find i = some r → r.hostId ≠ u 0
  eq : d' = ((d.put (.operation (intentOperation p requestId revision u d))).put (.host (intentHost p u d))).put
    (.reservation (intentReservation p requestId u))

theorem insertOperation_bind {γ : Type} {f : Unit → StoreTx γ} {o : DB → OperationRow} {d : DB} {x : γ × DB} :
    ((insertOperation o).bind f).run ans d = .ok x ↔ d.operations.find (o d).id = none ∧
      (∀ i o', d.operations.find i = some o' → o'.providerToken ≠ (o d).providerToken) ∧
      (f ()).run ans (d.put (.operation (o d))) = .ok x := by
  simp only [insertOperation, run_execute_bind]
  constructor
  · rintro ⟨rows, hr, hf⟩
    split_ifs at hr with hc
    simp only [Bool.or_eq_true, not_or, Bool.not_eq_true, Option.isSome_eq_false_iff, Option.isNone_iff_eq_none,
      List.any_eq_false, decide_eq_true_eq] at hc
    obtain rfl := Except.ok.inj hr
    exact ⟨hc.1, fun i o' ho' => hc.2 o' (Table.mem_of_find ho'), hf⟩
  · rintro ⟨hn, ht, hf⟩
    refine ⟨[.operation (o d)], ?_, hf⟩
    rw [if_neg]
    simp only [hn, Option.isSome_none, Bool.false_or, List.any_eq_true, decide_eq_true_eq, not_exists, not_and]
    exact fun o' ho' => ht _ o' (Table.find_mem ho')

theorem provisionIntent_ok {p : Policy} {requestId : String} {revision : ℤ} {u : Uuids} {d : DB} {x : Unit × DB}
    (h : (provisionIntent p requestId revision u).run ans d = .ok x) : Intent p requestId revision u d x.2 := by
  simp only [provisionIntent, bind_eq, insertOperation_bind, run_execute_bind, run_execute] at h
  obtain ⟨ho, ht, rows, hrows, rows', hrows', hx⟩ := h
  split_ifs at hrows with hh
  split_ifs at hrows' with hr
  obtain rfl := Except.ok.inj hrows
  obtain rfl := Except.ok.inj hrows'
  simp only [RowStore.putAll_cons, RowStore.putAll_nil, put_eq, DB.put, Bool.or_eq_true, not_or, Bool.not_eq_true,
    Option.isSome_eq_false_iff, Option.isNone_iff_eq_none, List.any_eq_false, decide_eq_true_eq] at hh hr hx
  exact ⟨ho, ht, hh, hr.1, fun i r hi => hr.2 r (Table.mem_of_find hi), hx⟩

section
variable {p : Policy} {requestId : String} {revision : ℤ} {u : Uuids} {d d' : DB}

theorem Intent.find_op (h : Intent p requestId revision u d d') (i : String) :
    d'.operations.find i = if u 1 = i then some (intentOperation p requestId revision u d) else d.operations.find i := by
  rw [h.eq]
  exact Table.find_put _ _ _

theorem Intent.find_host (h : Intent p requestId revision u d d') (i : String) :
    d'.hosts.find i = if u 0 = i then some (intentHost p u d) else d.hosts.find i := by
  rw [h.eq]
  exact Table.find_put _ _ _

theorem Intent.find_res (h : Intent p requestId revision u d d') (i : String) :
    d'.reservations.find i = if u 3 = i then some (intentReservation p requestId u) else d.reservations.find i := by
  rw [h.eq]
  exact Table.find_put _ _ _

theorem Intent.provisioning (h : Intent p requestId revision u d d') : d'.provisioning = d.provisioning := by
  rw [h.eq]
  rfl

/-- an operation other than the new one -/
theorem Intent.op_old (h : Intent p requestId revision u d d') {i : String} {o : OperationRow}
    (ho : d'.operations.find i = some o) : (u 1 = i ∧ o = intentOperation p requestId revision u d) ∨
      (u 1 ≠ i ∧ d.operations.find i = some o) := by
  rw [h.find_op] at ho
  split_ifs at ho with hi
  · exact .inl ⟨hi, (Option.some.inj ho).symm⟩
  · exact .inr ⟨hi, ho⟩

theorem Intent.ops (h : Intent p requestId revision u d d') {i : String} {o : OperationRow}
    (ho : d.operations.find i = some o) : d'.operations.find i = some o := by
  rw [h.find_op, if_neg, ho]
  rintro rfl
  simp [h.op] at ho

theorem Intent.hosts (h : Intent p requestId revision u d d') {i : String} {k : Host} (hk : d.hosts.find i = some k) :
    d'.hosts.find i = some k := by
  rw [h.find_host, if_neg, hk]
  rintro rfl
  simp [h.host] at hk

theorem Intent.reservations (h : Intent p requestId revision u d d') {i : String} {r : Reservation}
    (hr : d.reservations.find i = some r) : d'.reservations.find i = some r := by
  rw [h.find_res, if_neg, hr]
  rintro rfl
  simp [h.res] at hr

theorem Intent.owns (h : Intent p requestId revision u d d') {i k : String} (ho : d.Owns i k) : d'.Owns i k := by
  obtain ⟨o, ho, hk, hh⟩ := ho
  exact ⟨o, h.ops ho, hk, hh⟩

theorem Intent.wf (h : Intent p requestId revision u d d') (hw : d.WF) : d'.WF where
  opHost i o ho hk := by
    rcases h.op_old ho with ⟨rfl, rfl⟩ | ⟨-, ho⟩
    · exact ⟨u 0, intentHost p u d, rfl, by simp [h.find_host], rfl, rfl⟩
    · obtain ⟨k, g, h₁, h₂, h₃⟩ := hw.opHost i o ho hk
      exact ⟨k, g, h₁, h.hosts h₂, h₃⟩
  opRes i o ho hk := by
    rcases h.op_old ho with ⟨rfl, rfl⟩ | ⟨-, ho⟩
    · exact ⟨u 3, intentReservation p requestId u, by simp [h.find_res], rfl⟩
    · obtain ⟨j, r, h₁, h₂⟩ := hw.opRes i o ho hk
      exact ⟨j, r, h.reservations h₁, h₂⟩
  hostOp k g i hk hi := by
    rw [h.find_host] at hk
    split_ifs at hk with hu
    · obtain rfl := Option.some.inj hk
      obtain rfl : u 1 = i := Option.some.inj hi
      exact ⟨intentOperation p requestId revision u d, by simp [h.find_op], rfl, congrArg some hu⟩
    · exact h.owns (hw.hostOp k g i hk hi)
  managed k g hk hg := by
    rw [h.find_host] at hk
    split_ifs at hk
    · obtain rfl := Option.some.inj hk
      simp [intentHost]
    · exact hw.managed k g hk hg
  resOne j j' r r' hj hj' he := by
    rw [h.find_res] at hj hj'
    split_ifs at hj hj' with h₁ h₂ h₂
    · exact h₁.symm.trans h₂
    · obtain rfl := Option.some.inj hj
      exact absurd he.symm (h.resHost j' r' hj')
    · obtain rfl := Option.some.inj hj'
      exact absurd he (h.resHost j r hj)
    · exact hw.resOne j j' r r' hj hj' he
  token i i' o o' ho ho' he := by
    rcases h.op_old ho with ⟨rfl, rfl⟩ | ⟨-, ho⟩
    · rcases h.op_old ho' with ⟨rfl, rfl⟩ | ⟨-, ho'⟩
      · rfl
      · exact absurd he.symm (h.token i' o' ho')
    · rcases h.op_old ho' with ⟨rfl, rfl⟩ | ⟨-, ho'⟩
      · exact absurd he (h.token i o ho)
      · exact hw.token i i' o o' ho ho' he
  bound k b hb := h.owns (hw.bound k b (h.provisioning ▸ hb))

/-- the views after an intent: the old ones and the new operation's -/
theorem Intent.view (h : Intent p requestId revision u d d') (hw : d.WF) {v : View} (hv : d'.IsView v) :
    d.IsView v ∨ (d.operations.find v.op.id = none ∧ v.Initial) := by
  rcases h.op_old hv.op with ⟨hi, ho⟩ | ⟨hi, ho⟩
  · have hh : v.host = intentHost p u d := by
      have hid : u 0 = v.host.id := by simpa [ho, intentOperation] using hv.hostId
      have := hv.host
      rw [h.find_host, if_pos hid] at this
      exact (Option.some.inj this).symm
    have hr : v.res = intentReservation p requestId u := by
      have hres := hv.res
      rw [h.find_res] at hres
      split_ifs at hres
      · exact (Option.some.inj hres).symm
      · have := h.resHost _ _ hres
        rw [hv.resHost, hh] at this
        exact absurd rfl this
    refine .inr ⟨hi ▸ h.op, ?_⟩
    exact ⟨ho ▸ ⟨rfl, rfl, rfl⟩, by rw [hh]; exact ⟨rfl, rfl, rfl, rfl⟩, by rw [hr]; rfl⟩
  · obtain ⟨k, g, h₁, h₂, -⟩ := hw.opHost _ _ ho hv.kind
    obtain ⟨j, r, h₃, h₄⟩ := hw.opRes _ _ ho hv.kind
    have hk : k = v.host.id := by simpa [hv.hostId] using h₁.symm
    have hg : g = v.host := Option.some.inj ((h.hosts h₂).symm.trans (hk ▸ hv.host))
    have hrh : r.hostId = v.res.hostId := by
      rw [hv.resHost]
      simpa [hv.hostId] using h₄.symm
    have hj : j = v.res.id := (h.wf hw).resOne _ _ _ _ (h.reservations h₃) hv.res hrh
    have hr : r = v.res := Option.some.inj ((h.reservations h₃).symm.trans (hj ▸ hv.res))
    exact .inl ⟨ho, hv.kind, hv.hostId, hk ▸ hg ▸ h₂, hj ▸ hr ▸ h₃, hv.resHost⟩

theorem Intent.admits (h : Intent p requestId revision u d d') : Admits d d' where
  clock := by rw [h.eq]; rfl
  bindings := h.provisioning
  ops _ _ := h.ops
  fresh i o ho := by
    rcases h.op_old ho with ⟨rfl, rfl⟩ | ⟨-, ho⟩
    · exact .inr ⟨h.op, ⟨rfl, rfl, rfl⟩⟩
    · exact .inl ho
  hosts _ _ := h.hosts
  wf := h.wf
  view hw _ := h.view hw

end

/-- the loop over intents, as a rule: what every intent keeps, the loop keeps -/
theorem provisionIntents_induct {p : Policy} {requestId : String} {revision : ℤ} {u : Uuids} {I : ℕ → DB → Prop}
    (hstep : ∀ n d d', I n d → Intent p requestId revision (fun j => u (4 * n + j)) d d' → I (n + 1) d') (n : ℕ)
    {d : DB} {x : Unit × DB} (h₀ : I 0 d) (h : (provisionIntents p requestId revision u n).run ans d = .ok x) :
    I n x.2 := by
  induction n generalizing x with
  | zero =>
    obtain rfl := Except.ok.inj h
    exact h₀
  | succ n ih =>
    simp only [provisionIntents, bind_eq, run_bind_ok] at h
    obtain ⟨y, hy, hx⟩ := h
    exact hstep n _ _ (ih hy) (provisionIntent_ok hx)

theorem provisionIntents_admits {p : Policy} {requestId : String} {revision : ℤ} {u : Uuids} {n : ℕ} {d : DB}
    {x : Unit × DB} (h : (provisionIntents p requestId revision u n).run ans d = .ok x) : Admits d x.2 :=
  provisionIntents_induct (I := fun _ d' => Admits d d') (fun _ _ _ hi hs => hi.trans hs.admits) n (.refl d) h

/-! ## Decreases -/

/-- the host is not past the launch boundary -/
def HostState.prelaunch (s : HostState) : Prop := s = .requested ∨ s = .provisioning

/-- the operation can be cancelled: nobody holds it and its host is not past the launch boundary -/
structure View.Cancellable (v : View) : Prop where
  pending : v.op.state = .pending
  lease : v.op.lease = none
  host : HostState.prelaunch v.host.state

def View.cancelled (v : View) (now : ℕ) : View where
  op := v.op.cancelled now
  host := v.host.terminated now
  res := { v.res with state := .released }

def View.marked (v : View) : View := { v with host := v.host.marked }

/-- the steps of a decrease of group `g` on one operation -/
inductive DecreaseStep (now : ℕ) (g : String) : View → View → Prop
  | cancel (v : View) (hg : v.op.groupId = some g) (h : v.Cancellable) : DecreaseStep now g v (v.cancelled now)
  | mark (v : View) (hg : v.host.nodeGroupId = some g)
      (hh : HostState.prelaunch v.host.state ∨ v.host.state = .booting) (ho : v.op.state ≠ .cancelled) (he : v.host.excessCapacity = false) : DecreaseStep now g v v.marked

/-- all a decrease can make of one operation: it is left, marked, or cancelled, and marked before that at most -/
theorem decrease_outcome {now : ℕ} {g : String} {v v' : View} (h : Relation.ReflTransGen (DecreaseStep now g) v v') :
    (v' = v ∨ v' = v.marked ∧ v.host.nodeGroupId = some g) ∨
      (v.Cancellable ∧ v.op.groupId = some g ∧ (v' = v.cancelled now ∨ v' = v.marked.cancelled now)) := by
  induction h with
  | refl => exact .inl (.inl rfl)
  | tail _ h ih =>
    cases h with
    | cancel hg hc =>
      rcases ih with (rfl | ⟨rfl, -⟩) | ⟨-, -, rfl | rfl⟩
      · exact .inr ⟨hc, hg, .inl rfl⟩
      · exact .inr ⟨⟨hc.pending, hc.lease, hc.host⟩, hg, .inr rfl⟩
      · exact absurd hc.pending (by simp [View.cancelled, OperationRow.cancelled])
      · exact absurd hc.pending (by simp [View.cancelled, OperationRow.cancelled])
    | mark hg hh ho he =>
      rcases ih with (rfl | ⟨rfl, -⟩) | ⟨-, -, rfl | rfl⟩
      · exact .inl (.inr ⟨rfl, hg⟩)
      · simp [View.marked, Host.marked] at he
      · exact absurd rfl ho
      · exact absurd rfl ho

/-- operations of group `g` are only cancelled and hosts only marked -/
structure Decrease (g : String) (d d' : DB) : Prop where
  clock : d'.clock = d.clock
  bindings : d'.provisioning = d.provisioning
  refs : SameRefs d d'
  ops : ∀ i o, d.operations.find i = some o → d'.operations.find i = some o ∨
    (o.state = .pending ∧ o.lease = none ∧ d'.operations.find i = some (o.cancelled d.clock))
  view : ∀ v', d'.IsView v' → ∃ v, d.IsView v ∧ v'.op.id = v.op.id ∧ Relation.ReflTransGen (DecreaseStep d.clock g) v v'

theorem Decrease.refl (g : String) (d : DB) : Decrease g d d :=
  ⟨rfl, rfl, .refl d, fun _ _ h => .inl h, fun v hv => ⟨v, hv, rfl, .refl⟩⟩

theorem Decrease.trans {g : String} {d d' d'' : DB} (h : Decrease g d d') (h' : Decrease g d' d'') :
    Decrease g d d'' where
  clock := h'.clock.trans h.clock
  bindings := h'.bindings.trans h.bindings
  refs := h.refs.trans h'.refs
  ops i o ho := by
    rcases h.ops i o ho with ho' | ⟨hp, hl, ho'⟩
    · rw [← h.clock]
      exact h'.ops i o ho'
    · -- a cancelled operation is not pending, so it is not cancelled again
      rcases h'.ops i _ ho' with ho'' | ⟨hp', -⟩
      · exact .inr ⟨hp, hl, ho''⟩
      · simp [OperationRow.cancelled] at hp'
  view v'' hv'' := by
    obtain ⟨v', hv', hid', hs'⟩ := h'.view v'' hv''
    obtain ⟨v, hv, hid, hs⟩ := h.view v' hv'
    exact ⟨v, hv, hid'.trans hid, hs.trans (h.clock ▸ hs')⟩

theorem decrease_put_side (g : String) (d : DB) (r : Row) (h : r.isSide = true) : Decrease g d (d.put r) := by
  have hrefs : SameRefs d (d.put r) := by
    cases r <;>
      first | exact ⟨fun _ => rfl, fun _ => rfl, fun _ => rfl, fun _ b hb => .inl ⟨b, hb, rfl⟩⟩ | simp [Row.isSide] at h
  refine ⟨?_, ?_, hrefs, fun i o ho => .inl ?_, fun v hv => ⟨v, ?_, rfl, .refl⟩⟩ <;> cases r <;>
    first | rfl | exact ho | exact ⟨hv.op, hv.kind, hv.hostId, hv.host, hv.res, hv.resHost⟩ | simp [Row.isSide] at h

/-- a view that a step does not touch stays -/
theorem Effect.keep {d d' : DB} {i : String} {S : View → View → Prop} (h : Effect d d' i S) (hw : d.WF) {v : View}
    (hv : d.IsView v) (hi : v.op.id ≠ i) : d'.IsView v := by
  obtain ⟨o', ho', hint⟩ := exists_of_map_eq (h.refs.ops v.op.id).symm hv.op
  simp only [OperationRow.intent, Prod.mk.injEq] at hint
  obtain ⟨v', hv', rfl⟩ := (hw.of_sameRefs h.refs).exists_view ho' (hint.1.trans hv.kind)
  obtain ⟨w, hwv, hid, hs⟩ := h.touches v' hv'
  have hvw : w = v := hw.view_unique hwv hv (hid.symm.trans (Table.key_of_find ho'))
  subst hvw
  rcases hs with ⟨hi', -⟩ | ⟨-, rfl⟩
  · exact absurd hi' hi
  · exact hv'

/-- the state after one cancelled intent -/
def cancelOne (d : DB) (v : View) : DB :=
  let d₂ := (d.put (.operation (v.op.cancelled d.clock))).put (.host (v.host.terminated d.clock))
  { d₂ with reservations := d₂.reservations.putAll (releasedReservations d₂ v.host.id) }

theorem cancelIntent_run {d : DB} {v : View} (hv : d.IsView v) :
    (cancelIntent v.op.id v.host.id).run ans d = .ok ((), cancelOne d v) := by
  have hh : (d.put (.operation (v.op.cancelled d.clock))).hosts.find v.host.id = some v.host := hv.host
  simp only [cancelIntent, bind_eq, run_update_bind, pure_eq, run_done, hv.op, hh, Option.toList_some, List.map_cons,
    List.map_nil, RowStore.putAll_cons, RowStore.putAll_nil, put_eq, putAll_reservations]
  rfl

theorem cancelOne_effect {d : DB} (hw : d.WF) {v : View} (hv : d.IsView v) :
    Effect d (cancelOne d v) v.op.id fun w w' => w = v ∧ w' = v.cancelled d.clock := by
  have e₁ := effect_put_operation (v.op.cancelled d.clock) hv.op rfl rfl
  have hw₁ := hw.of_sameRefs e₁.refs
  have hf₁ := find_put_operation_self (v.op.cancelled d.clock) hv.op rfl
  have e₂ := effect_put_host (h := v.host) hw₁ (v.host.terminated d.clock) hf₁ hv.kind hv.hostId hv.host rfl rfl
  have hw₂ := hw₁.of_sameRefs e₂.refs
  have e₃ := touches_put_reservations hw₂ (fun _ => true) (fun r => { r with state := .released })
    (fun _ => ⟨rfl, rfl⟩) hf₁ hv.kind hv.hostId
  have r₃ := sameRefs_put_reservations
    (d := (d.put (.operation (v.op.cancelled d.clock))).put (.host (v.host.terminated d.clock)))
    (fun r => r.hostId = v.host.id) (fun r => { r with state := .released }) (fun _ => ⟨rfl, rfl⟩)
  simp only [Bool.and_true, if_true, putAll_reservations] at e₃ r₃
  refine ((e₁.trans e₂).trans ⟨e₃, r₃⟩).mono fun w w' hwv hid hs => ?_
  obtain ⟨w₂, ⟨w₁, ⟨-, rfl⟩, -, -, rfl⟩, rfl⟩ := hs
  obtain rfl := hw.view_unique hwv hv hid
  exact ⟨rfl, rfl⟩

theorem cancelOne_decrease {d : DB} (hw : d.WF) {g : String} {v : View} (hv : d.IsView v)
    (hg : v.op.groupId = some g) (hc : v.Cancellable) : Decrease g d (cancelOne d v) where
  clock := rfl
  bindings := rfl
  refs := (cancelOne_effect hw hv).refs
  ops i o ho := by
    have hfind : (cancelOne d v).operations.find i =
        if v.op.id = i then some (v.op.cancelled d.clock) else d.operations.find i := Table.find_put _ _ _
    rw [hfind]
    split_ifs with hi
    · obtain rfl : v.op = o := Option.some.inj (hv.op.symm.trans (hi ▸ ho))
      exact .inr ⟨hc.pending, hc.lease, rfl⟩
    · exact .inl ho
  view w' hw' := by
    obtain ⟨w, hwv, hid, ⟨-, rfl, rfl⟩ | ⟨-, rfl⟩⟩ := (cancelOne_effect hw hv).touches w' hw'
    · exact ⟨w, hwv, rfl, .single (.cancel w hg hc)⟩
    · exact ⟨w', hwv, rfl, .refl⟩

/-- the operation is, in this state, the row of a view of group `g` that can be cancelled -/
def CancelReady (d : DB) (g : String) (o : OperationRow) : Prop :=
  ∃ v, d.IsView v ∧ v.op = o ∧ o.groupId = some g ∧ v.Cancellable

/-- the loop over cancelled intents, as a rule -/
theorem cancelIntents_induct {g : String} {I : List OperationRow → DB → Prop}
    (hstep : ∀ o l d v, I (o :: l) d → d.WF → d.IsView v → v.op = o → o.groupId = some g → v.Cancellable →
      I l (cancelOne d v))
    (l : List OperationRow) (hl : (l.map OperationRow.id).Nodup) {d : DB} (hw : d.WF)
    (hr : ∀ o ∈ l, CancelReady d g o) (h₀ : I l d) :
    ∃ d', (cancelIntents l).run ans d = .ok ((), d') ∧ d'.WF ∧ I [] d' := by
  induction l generalizing d with
  | nil => exact ⟨d, rfl, hw, h₀⟩
  | cons o l ih =>
    obtain ⟨v, hv, rfl, hg, hc⟩ := hr _ List.mem_cons_self
    rw [List.map_cons, List.nodup_cons] at hl
    have he := cancelOne_effect hw hv
    have hw' := hw.of_sameRefs he.refs
    -- the other selected operations are not touched
    have hr' : ∀ o ∈ l, CancelReady (cancelOne d v) g o := by
      intro o ho
      obtain ⟨w, hwv, rfl, hwg, hwc⟩ := hr o (List.mem_cons_of_mem _ ho)
      refine ⟨w, he.keep hw hwv fun e => hl.1 ?_, rfl, hwg, hwc⟩
      exact List.mem_map.mpr ⟨w.op, ho, e⟩
    obtain ⟨d', hrun, hwd, hI⟩ := ih hl.2 hw' hr' (hstep _ l d v h₀ hw hv rfl hg hc)
    refine ⟨d', ?_, hwd, hI⟩
    have hh : v.op.hostId.getD "" = v.host.id := by simp [hv.hostId]
    simp only [cancelIntents, bind_eq, run_bind, hh, cancelIntent_run hv, hrun]

theorem mem_selectCancellable {d : DB} {g : String} {n : ℕ} {o : OperationRow} (h : o ∈ selectCancellable d g n) :
    o ∈ d.operations.rows ∧ cancellable d g o = true := by
  have := List.mem_of_mem_take h
  rwa [List.mem_insertionSort, List.mem_filter] at this

theorem selectCancellable_nodup (d : DB) (g : String) (n : ℕ) :
    ((selectCancellable d g n).map OperationRow.id).Nodup := by
  have hsort : (((d.operations.rows.filter (cancellable d g)).insertionSort newestFirst).map OperationRow.id).Perm
      ((d.operations.rows.filter (cancellable d g)).map OperationRow.id) := (List.perm_insertionSort _ _).map _
  have hfilter : ((d.operations.rows.filter (cancellable d g)).map OperationRow.id).Nodup :=
    d.operations.nodup.sublist (List.filter_sublist.map _)
  exact (hsort.nodup_iff.mpr hfilter).sublist ((List.take_sublist _ _).map _)

/-- an operation of group `g` that can be cancelled -/
theorem cancelReady_of_cancellable {d : DB} (hw : d.WF) {g : String} {o : OperationRow} (ho : o ∈ d.operations.rows)
    (hc : cancellable d g o = true) : CancelReady d g o := by
  simp only [cancellable, Bool.and_eq_true, decide_eq_true_eq, Option.isNone_iff_eq_none] at hc
  obtain ⟨⟨⟨⟨hg, hk⟩, hp⟩, hl⟩, hh⟩ := hc
  obtain ⟨v, hv, rfl⟩ := hw.exists_view (Table.find_mem ho) hk
  simp only [hv.hostId, Option.bind_some, hv.host, Option.any_some, Bool.or_eq_true, decide_eq_true_eq] at hh
  exact ⟨v, hv, rfl, hg, ⟨hp, hl, hh⟩⟩

/-- the state after marking the selected hosts -/
def markAll (d : DB) (g : String) (n : ℕ) : DB :=
  { d with hosts := d.hosts.putAll ((selectMarkable d g n).map Host.marked) }

theorem mem_selectMarkable {d : DB} {g : String} {n : ℕ} {h : Host} (hm : h ∈ selectMarkable d g n) :
    h ∈ d.hosts.rows ∧ markable d g h = true := by
  have := List.mem_of_mem_take hm
  rwa [List.mem_insertionSort, List.mem_filter] at this

theorem markAll_find (d : DB) (g : String) (n : ℕ) (i : String) :
    (markAll d g n).hosts.find i = (d.hosts.find i).map fun h => if h ∈ selectMarkable d g n then h.marked else h :=
  Table.find_putAll_map _ Host.marked (fun _ => rfl) _ (fun _ hh => (mem_selectMarkable hh).1) i

theorem markAll_decrease {d : DB} (hw : d.WF) (g : String) (n : ℕ) : Decrease g d (markAll d g n) where
  clock := rfl
  bindings := rfl
  refs := by
    refine ⟨fun _ => rfl, fun i => ?_, fun _ => rfl, fun _ b hb => .inl ⟨b, hb, rfl⟩⟩
    rw [markAll_find]
    cases d.hosts.find i with
    | none => rfl
    | some h =>
      simp only [Option.map_some]
      split_ifs <;> rfl
  ops _ _ ho := .inl ho
  view v' hv' := by
    have hh := hv'.host
    rw [markAll_find] at hh
    obtain ⟨h, hf, he⟩ := Option.map_eq_some_iff.mp hh
    have hid : h.id = v'.host.id := Table.key_of_find hf
    have hv : d.IsView { v' with host := h } :=
      ⟨hv'.op, hv'.kind, hv'.hostId.trans (by rw [hid]), hid ▸ hf, hv'.res, hv'.resHost.trans hid.symm⟩
    refine ⟨{ v' with host := h }, hv, rfl, ?_⟩
    split_ifs at he with hm
    · -- the marked host names its operation, which the query found not cancelled
      have hmark := (mem_selectMarkable hm).2
      have hop : h.operationId = some v'.op.id := hw.view_host_op hv
      simp only [markable, Bool.and_eq_true, Bool.or_eq_true, decide_eq_true_eq, Bool.not_eq_true', hop,
        Option.bind_some, show d.operations.find v'.op.id = some v'.op from hv.op, Option.any_some] at hmark
      obtain ⟨⟨⟨hg, hst⟩, hex⟩, hnc⟩ := hmark
      have hstep : DecreaseStep d.clock g { v' with host := h } (View.marked { v' with host := h }) :=
        .mark _ hg (by simpa [HostState.prelaunch, or_assoc] using hst) hnc hex
      rw [show View.marked { v' with host := h } = v' by rw [View.marked, he]] at hstep
      exact .single hstep
    · rw [he]

/-- **A decrease always runs to its end**; what it did is a `Decrease`, and any loop invariant of the cancelled intents
holds before the remaining hosts are marked. -/
theorem cancelPending_run {d : DB} (hw : d.WF) (g : String) (n : ℕ) {I : List OperationRow → DB → Prop}
    (hstep : ∀ o l d v, I (o :: l) d → d.WF → d.IsView v → v.op = o → o.groupId = some g → v.Cancellable →
      I l (cancelOne d v)) (h₀ : I (selectCancellable d g n) d) :
    ∃ d₁, (cancelPending g n).run ans d = .ok ((), if (selectCancellable d g n).length < n then
        markAll d₁ g (n - (selectCancellable d g n).length) else d₁) ∧ d₁.WF ∧ Decrease g d d₁ ∧ I [] d₁ := by
  have hready : ∀ o ∈ selectCancellable d g n, CancelReady d g o := fun o ho =>
    cancelReady_of_cancellable hw (mem_selectCancellable ho).1 (mem_selectCancellable ho).2
  obtain ⟨d₁, hrun, hw₁, hd₁, hI⟩ := cancelIntents_induct (I := fun l d' => Decrease g d d' ∧ I l d')
    (fun o l d' v hi hw' hv ho hg hc =>
      ⟨hi.1.trans (cancelOne_decrease hw' hv (ho ▸ hg) hc), hstep o l d' v hi.2 hw' hv ho hg hc⟩)
    _ (selectCancellable_nodup d g n) hw hready ⟨.refl g d, h₀⟩
  refine ⟨d₁, ?_, hw₁, hd₁, hI⟩
  simp only [cancelPending, bind_eq]
  rw [run_selectForUpdate_bind, run_bind, hrun]
  dsimp only
  unfold Tx.when
  split_ifs with hlt
  · simp only [markExcess, bind_eq, run_update_bind, pure_eq, run_done, putAll_hosts]
    rfl
  · rfl

theorem cancelPending_decrease {d : DB} (hw : d.WF) {g : String} {n : ℕ} {x : Unit × DB}
    (h : (cancelPending g n).run ans d = .ok x) : Decrease g d x.2 := by
  obtain ⟨d₁, hrun, hw₁, hd₁, -⟩ := cancelPending_run hw g n (I := fun _ _ => True) (by simp) trivial
  rw [hrun] at h
  obtain rfl := Except.ok.inj h
  dsimp only
  split_ifs
  · exact hd₁.trans (markAll_decrease hw₁ g _)
  · exact hd₁

end Crane.Capacity
