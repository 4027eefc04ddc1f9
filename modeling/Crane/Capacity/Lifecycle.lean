/-
The lifecycle of one provision operation.

`ViewStep now c v v'` says what a call `c` can do to the operation, host and reservation in the view `v`: every
constructor is one call with the guard the store checks and the columns it sets. The theorems below show that the
store's transactions do nothing else: a successful fenced call touches only the operation it names, by the step of that
call, and keeps all references (`Effect`).
-/
import Crane.Capacity.Views

namespace Crane.Capacity

open Tx

/-! ## The abstract steps -/

/-- pending, or leased or launching with a lease that has run out or was given back -/
def OperationRow.claimableAt (o : OperationRow) (now : ℕ) : Prop :=
  o.state = .pending ∨ (OperationState.active o.state = true ∧ ∀ l, o.lease = some l → l.expires ≤ now)

/-- the steps of one operation, each under the call that takes it -/
inductive ViewStep (now : ℕ) : Call → View → View → Prop
  | claim (v : View) (zoneId : String) (kind : OperationKind) (owner : String) (duration : Duration)
      (locked : String → Bool) (hc : v.op.claimableAt now) (hk : v.op.kind = kind) :
      ViewStep now (.claimDominator zoneId kind owner duration locked) v
        { v with op := { v.op with
            state := if HostState.launched v.host.state then .launching else .leased
            lease := some ⟨owner, now + duration.micros⟩, fence := v.op.fence + 1, updatedAt := now } }
  | renew (v : View) (op : Operation) (duration : Duration) (hh : v.op.heldBy op now = true)
      (ha : OperationState.active v.op.state = true) :
      ViewStep now (.renew op duration) v
        { v with op := { v.op with lease := some ⟨op.leaseOwner, now + duration.micros⟩, updatedAt := now } }
  | beginLaunch (v : View) (op : Operation) (hh : v.op.heldBy op now = true)
      (ha : OperationState.active v.op.state = true) :
      ViewStep now (.beginLaunch op) v { v with op := { v.op with state := .launching, updatedAt := now } }
  | recordLaunch (v : View) (op : Operation) (providerId : String) (ip : AddressText) (nodeProviderId : String)
      (z : Zone) (endpoint : String) (h : Host) (hh : v.op.heldBy op now = true) (hl : v.op.state = .launching)
      (hp : providerId ≠ "") (hr : v.host.launchedAs z now providerId endpoint nodeProviderId = some h) :
      ViewStep now (.recordLaunchWithAddress op providerId ip nodeProviderId) v
        { op := { v.op with updatedAt := now }, host := h,
          res := if v.res.state = .reserved then { v.res with state := .committed } else v.res }
  | desiredVersion (v : View) (op : Operation) (version : String) (hh : v.op.heldBy op now = true)
      (hl : v.op.state = .launching) (hs : v.host.state = .registering) :
      ViewStep now (.setProvisionDesiredVersion op version) v
        { v with host := { v.host with desiredStateVersion := version, updatedAt := now } }
  | setState (v : View) (op : Operation) (expected next : HostState) (hh : v.op.heldBy op now = true)
      (hl : v.op.state = .launching) (hs : v.host.state = expected) (hn : HostState.handoff expected = some next) :
      ViewStep now (.setProvisionState op expected next) v { v with host := { v.host with state := next, updatedAt := now } }
  | bind (v : View) (op : Operation) (n : NodeBinding) (hh : v.op.heldBy op now = true) (hl : v.op.state = .launching)
      (hs : v.host.state = .registering) : ViewStep now (.bindProvisionNode op n) v v
  | pin (v : View) (op : Operation) (e : ExpectedHostState) (version : String) (hh : v.op.heldBy op now = true)
      (hl : v.op.state = .launching) (hs : v.host.state = .registering) :
      ViewStep now (.pinProvisionExpectedState op e) v { v with host := { v.host with desiredStateVersion := version } }
  | prepare (v : View) (op : Operation) (version : String) (hh : v.op.heldBy op now = true)
      (hl : v.op.state = .launching) (hs : v.host.state = .converging) :
      ViewStep now (.prepareProvisionRelease op version) v v
  | finalize (v : View) (op : Operation) (version : String) (hh : v.op.heldBy op now = true)
      (hl : v.op.state = .launching) (hs : v.host.state = .converging) :
      ViewStep now (.finalizeProvision op version) v
        { v with
          host := { v.host with state := .ready, observedStateVersion := v.host.desiredStateVersion, updatedAt := now }
          op := { v.op with state := .succeeded, lease := none, updatedAt := now } }
  | complete (v : View) (op : Operation) (hh : v.op.heldBy op now = true) (hl : v.op.state = .launching)
      (hs : v.host.state = .ready) :
      ViewStep now (.completeProvision op) v
        { v with op := { v.op with state := .succeeded, lease := none, updatedAt := now } }
  | failure (v : View) (op : Operation) (category : String) (hh : v.op.heldBy op now = true)
      (ha : OperationState.active v.op.state = true) :
      ViewStep now (.recordProvisionFailure op category) v
        { v with op := { v.op with lastError := category, updatedAt := now } }
  | release (v : View) (op : Operation) (hh : v.op.heldBy op now = true)
      (ha : OperationState.active v.op.state = true) :
      ViewStep now (.releaseProvisionLease op) v
        { v with op := { v.op with
            state := if HostState.launched v.host.state then .launching else .pending, lease := none, updatedAt := now } }

/-- every step of a fenced call is taken by the holder of the lease -/
theorem ViewStep.held {now : ℕ} {c : Call} {op : Operation} {v v' : View} (h : ViewStep now c v v')
    (hc : c.fenced = some op) : v.op.heldBy op now = true ∧ OperationState.active v.op.state = true := by
  cases h <;> simp_all [Call.fenced, OperationState.active]

/-- what a recorded launch leaves on the host, and the pins it had to respect -/
structure Host.LaunchedAs (h h' : Host) (providerId nodeProviderId : String) : Prop where
  pin : h.providerId = none ∨ h.providerId = some "" ∨ h.providerId = some providerId
  nodePin : h.kubernetesProviderId = "" ∨ nodeProviderId = "" ∨ h.kubernetesProviderId = nodeProviderId
  id : h'.id = h.id
  refs : h'.refs = h.refs
  providerId : h'.providerId = some providerId
  kubernetesProviderId : h'.kubernetesProviderId = if nodeProviderId = "" then h.kubernetesProviderId else nodeProviderId
  state : h'.state = if h.state = .provisioning ∨ h.state = .booting then .booting else h.state
  desired : h'.desiredStateVersion = h.desiredStateVersion
  excess : h'.excessCapacity = h.excessCapacity

theorem Host.launchedAs_spec {h h' : Host} {z : Zone} {now : ℕ} {providerId endpoint nodeProviderId : String}
    (hr : h.launchedAs z now providerId endpoint nodeProviderId = some h') :
    h.LaunchedAs h' providerId nodeProviderId := by
  simp only [Host.launchedAs, Option.ite_none_right_eq_some, Option.some.injEq] at hr
  obtain ⟨⟨hp, hn⟩, rfl⟩ := hr
  exact ⟨hp, hn, rfl, rfl, rfl, rfl, rfl, rfl, rfl⟩

/-- the columns an operation is admitted with never change -/
theorem ViewStep.intent {now : ℕ} {c : Call} {v v' : View} (h : ViewStep now c v v') :
    v'.op.intent = v.op.intent ∧ v'.op.id = v.op.id ∧ v'.host.id = v.host.id := by
  cases h with
  | recordLaunch _ _ _ _ _ _ _ _ _ _ _ hr => exact ⟨rfl, rfl, (Host.launchedAs_spec hr).id⟩
  | _ => exact ⟨rfl, rfl, rfl⟩

/-! ## The store's statements -/

variable {ans : Operation → Bool}

theorem heldRow_eq_some {d : DB} {op : Operation} {p : OperationRow → Bool} {o : OperationRow} :
    heldRow d op p = some o ↔ d.operations.find op.id = some o ∧ o.heldBy op d.clock = true ∧ p o = true := by
  simp [heldRow, Option.filter_eq_some_iff]

theorem updateOne_ok {q : DB → Option Row} {e : Err} {d : DB} {p : Unit × DB} :
    (updateOne q e).run ans d = .ok p ↔ ∃ r, q d = some r ∧ p.2 = d.put r := by
  simp only [updateOne, bind_eq, run_update_bind, run_require]
  cases h : q d <;> simp

theorem updateOne_bind {γ : Type} {f : Unit → StoreTx γ} {q : DB → Option Row} {e : Err} {d : DB} {p : γ × DB} :
    ((updateOne q e).bind f).run ans d = .ok p ↔ ∃ r, q d = some r ∧ (f ()).run ans (d.put r) = .ok p := by
  rw [run_bind_ok]
  constructor
  · rintro ⟨⟨_, d'⟩, h, hf⟩
    obtain ⟨r, hr, rfl⟩ := updateOne_ok.mp h
    exact ⟨r, hr, hf⟩
  · rintro ⟨r, hr, hf⟩
    exact ⟨((), d.put r), updateOne_ok.mpr ⟨r, hr, rfl⟩, hf⟩

/-- a fenced UPDATE of the operation row -/
theorem fenced_operation {d : DB} {op : Operation} {p : DB → OperationRow → Bool}
    {f : DB → OperationRow → OperationRow} {x : Unit × DB}
    (h : (fencedUpdate fun d => (heldRow d op (p d)).map fun o => .operation (f d o)).run ans d = .ok x) :
    ∃ o, d.operations.find op.id = some o ∧ o.heldBy op d.clock = true ∧ p d o = true ∧
      x.2 = d.put (.operation (f d o)) := by
  obtain ⟨r, hr, hx⟩ := updateOne_ok.mp h
  obtain ⟨o, ho, rfl⟩ := Option.map_eq_some_iff.mp hr
  obtain ⟨h₁, h₂, h₃⟩ := heldRow_eq_some.mp ho
  exact ⟨o, h₁, h₂, h₃, hx⟩

theorem heldHost_eq_some {d : DB} {op : Operation} {s : HostState} {h : Host} :
    heldHost d op s = some h ↔ ∃ o, d.operations.find op.id = some o ∧ o.heldBy op d.clock = true ∧
      o.kind = .provision ∧ o.state = .launching ∧ o.hostId = some h.id ∧ d.hosts.find h.id = some h ∧ h.state = s := by
  simp only [heldHost, Option.bind_eq_bind, Option.bind_eq_some_iff, heldRow_eq_some, Option.ite_none_right_eq_some,
    Option.some.injEq, Bool.and_eq_true, decide_eq_true_eq]
  constructor
  · rintro ⟨o, ⟨h₁, h₂, h₃, h₄⟩, h', ⟨k, hk, hf⟩, hs, rfl⟩
    have := Table.key_of_find hf
    subst this
    exact ⟨o, h₁, h₂, h₃, h₄, hk, hf, hs⟩
  · rintro ⟨o, h₁, h₂, h₃, h₄, hk, hf, hs⟩
    exact ⟨o, ⟨h₁, h₂, h₃, h₄⟩, h, ⟨h.id, hk, hf⟩, hs, rfl⟩

/-- a fenced UPDATE of the host row -/
theorem fenced_host {d : DB} {op : Operation} {s : HostState} {f : DB → Host → Host} {x : Unit × DB}
    (h : (fencedUpdate fun d => (heldHost d op s).map fun h => .host (f d h)).run ans d = .ok x) :
    ∃ o h, d.operations.find op.id = some o ∧ o.heldBy op d.clock = true ∧ o.kind = .provision ∧
      o.state = .launching ∧ o.hostId = some h.id ∧ d.hosts.find h.id = some h ∧ h.state = s ∧
      x.2 = d.put (.host (f d h)) := by
  obtain ⟨r, hr, hx⟩ := updateOne_ok.mp h
  obtain ⟨h, hh, rfl⟩ := Option.map_eq_some_iff.mp hr
  obtain ⟨o, h₁, h₂, h₃, h₄, h₅, h₆, h₇⟩ := heldHost_eq_some.mp hh
  exact ⟨o, h, h₁, h₂, h₃, h₄, h₅, h₆, h₇, hx⟩

theorem launchingRow_eq_some {d : DB} {op : Operation} {o : OperationRow} :
    launchingRow d op = some o ↔ d.operations.find op.id = some o ∧ o.heldBy op d.clock = true ∧
      o.kind = .provision ∧ o.hostId = some op.hostId ∧ o.state = .launching := by
  simp [launchingRow, heldRow_eq_some, and_assoc]

/-! ## One touch lemma for each shape of statement -/

/-- what a successful call did: it touched one operation by `S` and kept all references -/
structure Effect (d d' : DB) (i : String) (S : View → View → Prop) : Prop where
  touches : Touches d d' i S
  refs : SameRefs d d'

theorem Effect.mono {d d' : DB} {i : String} {S T : View → View → Prop} (h : Effect d d' i S)
    (hST : ∀ v v', d.IsView v → v.op.id = i → S v v' → T v v') : Effect d d' i T :=
  ⟨h.touches.mono hST, h.refs⟩

theorem Effect.trans {d d' d'' : DB} {i : String} {S T : View → View → Prop} (h : Effect d d' i S)
    (h' : Effect d' d'' i T) : Effect d d'' i fun v v'' => ∃ v', S v v' ∧ T v' v'' :=
  ⟨h.touches.trans h'.touches, h.refs.trans h'.refs⟩

/-- storing a node binding touches no view -/
theorem effect_put_provisioning {d : DB} (b : ProvisioningState) (i : String)
    (h : (∃ b', d.provisioning.find b.hostId = some b' ∧ b'.operationId = b.operationId) ∨
      d.Owns b.operationId b.hostId) : Effect d (d.put (.provisioning b)) i fun v v' => v' = v := by
  refine ⟨fun v hv => ⟨v, ⟨hv.op, hv.kind, hv.hostId, hv.host, hv.res, hv.resHost⟩, rfl, ?_⟩, .put_provisioning h⟩
  by_cases hi : v.op.id = i
  · exact .inl ⟨hi, rfl⟩
  · exact .inr ⟨hi, rfl⟩

theorem effect_put_operation {d : DB} {o : OperationRow} {i : String} (o' : OperationRow)
    (ho : d.operations.find i = some o) (hid : o'.id = o.id) (hi : o'.intent = o.intent) :
    Effect d (d.put (.operation o')) i fun v v' => v.op = o ∧ v' = { v with op := o' } := by
  obtain rfl : o.id = i := Table.key_of_find ho
  rw [← hid] at ho
  have ht := touches_put_operation ho hi
  rw [hid] at ht
  exact ⟨ht, .put_operation ho hi⟩

theorem effect_put_host {d : DB} (hw : d.WF) {i : String} {o : OperationRow} {h : Host} (h' : Host)
    (ho : d.operations.find i = some o) (hk : o.kind = .provision) (hh : o.hostId = some h.id)
    (hf : d.hosts.find h.id = some h) (hid : h'.id = h.id) (hr : h'.refs = h.refs) :
    Effect d (d.put (.host h')) i fun v v' => v.op = o ∧ v.host = h ∧ v' = { v with host := h' } :=
  ⟨touches_put_host hw ho hk hh hf hid, .put_host (hid ▸ hf) hr⟩

theorem effect_fenced_operation {d : DB} {op : Operation} {p : DB → OperationRow → Bool}
    {f : DB → OperationRow → OperationRow} {x : Unit × DB}
    (h : (fencedUpdate fun d => (heldRow d op (p d)).map fun o => .operation (f d o)).run ans d = .ok x)
    (hf : ∀ d o, (f d o).id = o.id ∧ (f d o).intent = o.intent) :
    Effect d x.2 op.id fun v v' => v.op.heldBy op d.clock = true ∧ p d v.op = true ∧ v' = { v with op := f d v.op } := by
  obtain ⟨o, ho, hh, hp, hx⟩ := fenced_operation h
  rw [hx]
  refine (effect_put_operation _ ho (hf d o).1 (hf d o).2).mono fun v v' _ _ hv => ?_
  obtain ⟨rfl, rfl⟩ := hv
  exact ⟨hh, hp, rfl⟩

theorem effect_fenced_host {d : DB} (hw : d.WF) {op : Operation} {s : HostState} {f : DB → Host → Host} {x : Unit × DB}
    (h : (fencedUpdate fun d => (heldHost d op s).map fun h => .host (f d h)).run ans d = .ok x)
    (hf : ∀ d h, (f d h).id = h.id ∧ (f d h).refs = h.refs) :
    Effect d x.2 op.id fun v v' => v.op.heldBy op d.clock = true ∧ v.op.state = .launching ∧ v.host.state = s ∧
      v' = { v with host := f d v.host } := by
  obtain ⟨o, h, ho, hh, hk, hl, hoh, hfh, hs, hx⟩ := fenced_host h
  rw [hx]
  refine (effect_put_host hw _ ho hk hoh hfh (hf d h).1 (hf d h).2).mono fun v v' _ _ hv => ?_
  obtain ⟨rfl, rfl, rfl⟩ := hv
  exact ⟨hh, hl, hs, rfl⟩

/-- in a view, the host of the operation is the view's host -/
theorem DB.IsView.hostLaunched {d : DB} {v : View} (hv : d.IsView v) :
    hostLaunched d v.op = HostState.launched v.host.state := by
  simp [Capacity.hostLaunched, hv.hostId, hv.host]

/-! ## The fenced calls -/

theorem renew_effect {d : DB} {op : Operation} {duration : Duration} {x : Unit × DB}
    (h : (renew op duration).run ans d = .ok x) : Effect d x.2 op.id (ViewStep d.clock (.renew op duration)) := by
  simp only [renew, bind_eq, run_require_bind] at h
  obtain ⟨-, h⟩ := h
  refine (effect_fenced_operation h fun _ _ => ⟨rfl, rfl⟩).mono fun v v' _ _ hv => ?_
  obtain ⟨hh, hp, rfl⟩ := hv
  exact .renew v op duration hh (by simp at hp; exact hp.1)

theorem beginLaunch_effect {d : DB} {op : Operation} {x : Unit × DB} (h : (beginLaunch op).run ans d = .ok x) :
    Effect d x.2 op.id (ViewStep d.clock (.beginLaunch op)) := by
  refine (effect_fenced_operation h fun _ _ => ⟨rfl, rfl⟩).mono fun v v' _ _ hv => ?_
  obtain ⟨hh, hp, rfl⟩ := hv
  exact .beginLaunch v op hh (by simp at hp; exact hp.1)

theorem recordProvisionFailure_effect {d : DB} {op : Operation} {category : String} {x : Unit × DB}
    (h : (recordProvisionFailure op category).run ans d = .ok x) :
    Effect d x.2 op.id (ViewStep d.clock (.recordProvisionFailure op category)) := by
  simp only [recordProvisionFailure, bind_eq, run_require_bind] at h
  obtain ⟨-, h⟩ := h
  refine (effect_fenced_operation (p := fun _ o => o.kind = .provision && OperationState.active o.state)
    h fun _ _ => ⟨rfl, rfl⟩).mono fun v v' _ _ hv => ?_
  obtain ⟨hh, hp, rfl⟩ := hv
  exact .failure v op category hh (by simp at hp; exact hp.2)

theorem releaseProvisionLease_effect {d : DB} {op : Operation} {x : Unit × DB}
    (h : (releaseProvisionLease op).run ans d = .ok x) :
    Effect d x.2 op.id (ViewStep d.clock (.releaseProvisionLease op)) := by
  refine (effect_fenced_operation (p := fun _ o => o.kind = .provision && OperationState.active o.state)
    h fun _ _ => ⟨rfl, rfl⟩).mono fun v v' hview _ hv => ?_
  obtain ⟨hh, hp, rfl⟩ := hv
  rw [hview.hostLaunched]
  exact .release v op hh (by simp at hp; exact hp.2)

theorem completeProvision_effect {d : DB} {op : Operation} {x : Unit × DB}
    (h : (completeProvision op).run ans d = .ok x) : Effect d x.2 op.id (ViewStep d.clock (.completeProvision op)) := by
  obtain ⟨r, hr, hx⟩ := updateOne_ok.mp h
  obtain ⟨o, ho, rfl⟩ := Option.map_eq_some_iff.mp hr
  obtain ⟨ho, hdone⟩ := Option.filter_eq_some_iff.mp ho
  obtain ⟨hf, hh, -, -, hl⟩ := launchingRow_eq_some.mp ho
  rw [hx]
  have he := effect_put_operation { o with state := .succeeded, lease := none, updatedAt := d.clock } hf rfl rfl
  refine he.mono fun v v' hview _ hv => ?_
  obtain ⟨rfl, rfl⟩ := hv
  refine .complete v op hh hl ?_
  simp only [handedOff, hview.hostId, Option.bind_some, hview.host, Option.any_some, Bool.and_eq_true,
    decide_eq_true_eq] at hdone
  exact hdone.1.1

theorem setProvisionDesiredVersion_effect {d : DB} (hw : d.WF) {op : Operation} {version : String} {x : Unit × DB}
    (h : (setProvisionDesiredVersion op version).run ans d = .ok x) :
    Effect d x.2 op.id (ViewStep d.clock (.setProvisionDesiredVersion op version)) := by
  simp only [setProvisionDesiredVersion, bind_eq, run_require_bind] at h
  obtain ⟨-, h⟩ := h
  refine (effect_fenced_host hw h fun _ _ => ⟨rfl, rfl⟩).mono fun v v' _ _ hv => ?_
  obtain ⟨hh, hl, hs, rfl⟩ := hv
  exact .desiredVersion v op version hh hl hs

theorem setProvisionState_effect {d : DB} (hw : d.WF) {op : Operation} {expected next : HostState} {x : Unit × DB}
    (h : (setProvisionState op expected next).run ans d = .ok x) :
    Effect d x.2 op.id (ViewStep d.clock (.setProvisionState op expected next)) := by
  simp only [setProvisionState, bind_eq, run_require_bind] at h
  obtain ⟨⟨-, hn⟩, h⟩ := h
  refine (effect_fenced_host hw h fun _ _ => ⟨rfl, rfl⟩).mono fun v v' _ _ hv => ?_
  obtain ⟨hh, hl, hs, rfl⟩ := hv
  exact .setState v op expected next hh hl hs hn

theorem find_put_operation_self {d : DB} {o : OperationRow} (o' : OperationRow) {i : String} (ho : d.operations.find i = some o)
    (hid : o'.id = o.id) : (d.put (.operation o')).operations.find i = some o' := by
  exact Table.find_update o' ho hid

/-- the three UPDATEs of a recorded launch -/
theorem recordLaunchWithAddress_effect {d : DB} (hw : d.WF) {op : Operation} {providerId : String} {ip : AddressText}
    {nodeProviderId : String} {x : Unit × DB}
    (h : (recordLaunchWithAddress op providerId ip nodeProviderId).run ans d = .ok x) :
    Effect d x.2 op.id (ViewStep d.clock (.recordLaunchWithAddress op providerId ip nodeProviderId)) := by
  simp only [recordLaunchWithAddress, fencedUpdate, bind_eq, run_require_bind, updateOne_bind, run_update_bind, pure_eq,
    run_done] at h
  obtain ⟨⟨-, hp⟩, r, hr, -, r', hr', hx⟩ := h
  obtain ⟨o, ho, rfl⟩ := Option.map_eq_some_iff.mp hr
  obtain ⟨h', hh', rfl⟩ := Option.map_eq_some_iff.mp hr'
  obtain ⟨hf, hh, hk, hoh, hl⟩ := launchingRow_eq_some.mp ho
  simp only [launchedHost, Option.bind_eq_bind, Option.bind_eq_some_iff] at hh'
  obtain ⟨h, hfh, z, -, hla⟩ := hh'
  have hs := Host.launchedAs_spec hla
  have hid : h.id = op.hostId := Table.key_of_find hfh
  -- the operation row, the host row, the reservation
  have e₁ := effect_put_operation { o with updatedAt := d.clock } hf rfl rfl
  have hw₁ := hw.of_sameRefs e₁.refs
  have hf₁ := find_put_operation_self { o with updatedAt := d.clock } hf rfl
  have e₂ := effect_put_host hw₁ h' hf₁ hk (hid ▸ hoh) (hid ▸ hfh) hs.id hs.refs
  have hw₂ := hw₁.of_sameRefs e₂.refs
  have e₃ := touches_put_reservations hw₂ (fun r => r.state = .reserved) (fun r => { r with state := .committed })
    (fun _ => ⟨rfl, rfl⟩) hf₁ hk hoh
  have r₃ := sameRefs_put_reservations (d := (d.put (.operation { o with updatedAt := d.clock })).put (.host h'))
    (fun r => r.hostId = op.hostId && r.state = .reserved) (fun r => { r with state := .committed }) (fun _ => ⟨rfl, rfl⟩)
  obtain rfl : _ = x := Except.ok.inj hx
  refine ((e₁.trans e₂).trans ⟨e₃, r₃⟩).mono fun v v' _ _ hv => ?_
  obtain ⟨v₂, ⟨v₁, ⟨rfl, rfl⟩, -, rfl, rfl⟩, rfl⟩ := hv
  have hrec := ViewStep.recordLaunch v op providerId ip nodeProviderId z _ h' hh hl hp hla
  simpa using hrec

/-- a node is bound only to the held, launching operation of a registering host -/
theorem bindRow_spec {d : DB} {op : Operation} {n : NodeBinding} {b : ProvisioningState}
    (h : bindRow d op n = .ok (some b)) :
    ∃ o, launchingRow d op = some o ∧ (∃ h, d.hosts.find op.hostId = some h ∧ h.state = .registering) ∧
      groupAdmitted d o = true ∧ b.hostId = op.hostId ∧ b.operationId = op.id ∧ b.nodeName = n.nodeName ∧
      (d.provisioning.find op.hostId = some b ∨
        (d.provisioning.find op.hostId = none ∧ b.expectedState = none ∧ b.releaseStarted = false)) := by
  unfold bindRow at h
  split at h
  · simp at h
  · rename_i o ho
    obtain ⟨hl, hp⟩ := Option.filter_eq_some_iff.mp ho
    obtain ⟨hf, -, -, hoh, -⟩ := launchingRow_eq_some.mp hl
    have hoid : o.id = op.id := Table.key_of_find hf
    simp only [hoh, Option.bind_some, Bool.and_eq_true, Option.any_eq_true, decide_eq_true_eq] at hp
    refine ⟨o, hl, hp.1, hp.2, ?_⟩
    split at h
    · rename_i b' hb'
      simp only [Except.ok.injEq, Option.ite_none_right_eq_some, Option.some.injEq] at h
      obtain ⟨hs, rfl⟩ := h
      simp only [ProvisioningState.sameIdentity, Bool.and_eq_true, decide_eq_true_eq] at hs
      exact ⟨Table.key_of_find hb', hs.1.1.1.1.trans hoid, hs.1.1.1.2, .inl hb'⟩
    · rename_i hnone
      split at h
      · simp at h
      · simp only [Except.ok.injEq, Option.some.injEq] at h
        subst h
        exact ⟨rfl, hoid, rfl, .inr ⟨hnone, rfl, rfl⟩⟩

theorem bindProvisionNode_ok {name : String → String} {d : DB} {op : Operation} {n : NodeBinding} {x : Unit × DB}
    (h : (bindProvisionNode name op n).run ans d = .ok x) :
    n.nodeName = name op.hostId ∧ ∃ b, bindRow d op n = .ok (some b) ∧ x.2 = d.put (.provisioning b) := by
  simp only [bindProvisionNode, bind_eq, run_require_bind, run_execute] at h
  obtain ⟨⟨hn, -⟩, rows, hrows, hx⟩ := h
  refine ⟨hn, ?_⟩
  split at hrows
  · simp at hrows
  · simp at hrows
  · rename_i b hb
    simp only [Except.ok.injEq] at hrows
    subst hrows
    exact ⟨b, hb, hx⟩

theorem bindProvisionNode_effect {name : String → String} {d : DB} {op : Operation} {n : NodeBinding} {x : Unit × DB}
    (h : (bindProvisionNode name op n).run ans d = .ok x) :
    Effect d x.2 op.id (ViewStep d.clock (.bindProvisionNode op n)) := by
  obtain ⟨-, b, hb, hx⟩ := bindProvisionNode_ok h
  obtain ⟨o, hl, ⟨h, hh, hs⟩, -, hbh, hbo, -⟩ := bindRow_spec hb
  obtain ⟨hf, hheld, hk, hoh, hla⟩ := launchingRow_eq_some.mp hl
  rw [hx]
  have hown : d.Owns b.operationId b.hostId := by
    rw [hbo, hbh]
    exact ⟨o, hf, hk, hoh⟩
  refine (effect_put_provisioning b op.id (.inr hown)).mono fun v v' hv hid hvv => ?_
  obtain rfl : v.op = o := Option.some.inj ((hid ▸ hv.op).symm.trans hf)
  have hvh : v.host = h := by
    have : v.host.id = op.hostId := by simpa [hv.hostId] using hoh
    exact Option.some.inj ((this ▸ hv.host).symm.trans hh)
  rw [hvv]
  exact .bind v op n hheld hla (hvh ▸ hs)

theorem prepareRow_spec {d : DB} {op : Operation} {version : String} {b : ProvisioningState}
    (h : prepareRow d op version = some b) :
    ∃ o k, d.operations.find op.id = some o ∧ o.heldBy op d.clock = true ∧ o.state = .launching ∧
      o.hostId = some k.id ∧ d.hosts.find k.id = some k ∧ d.provisioning.find k.id = some b ∧ b.operationId = o.id ∧
      k.state = .converging ∧ k.desiredStateVersion = version ∧ b.pins version = true := by
  simp only [prepareRow, Option.bind_eq_bind, Option.bind_eq_some_iff, heldRow_eq_some, Option.ite_none_right_eq_some,
    Option.some.injEq, decide_eq_true_eq] at h
  obtain ⟨o, ⟨hf, hh, hl⟩, k, ⟨i, hi, hk⟩, b', hb', ⟨h₁, h₂, h₃, -, h₄, -⟩, rfl⟩ := h
  obtain rfl : k.id = i := Table.key_of_find hk
  exact ⟨o, k, hf, hh, hl, hi, hk, hb', h₁, h₂, h₃, h₄⟩

theorem prepareProvisionRelease_effect {d : DB} {op : Operation} {version : String} {x : Unit × DB}
    (h : (prepareProvisionRelease op version).run ans d = .ok x) :
    Effect d x.2 op.id (ViewStep d.clock (.prepareProvisionRelease op version)) := by
  obtain ⟨r, hr, hx⟩ := updateOne_ok.mp h
  obtain ⟨b, hb, rfl⟩ := Option.map_eq_some_iff.mp hr
  obtain ⟨o, k, hf, hh, hl, hoh, hk, hbf, -, hs, -⟩ := prepareRow_spec hb
  have hbid : b.hostId = k.id := Table.key_of_find hbf
  rw [hx]
  refine (effect_put_provisioning { b with releaseStarted := true } op.id (.inl ⟨b, hbid ▸ hbf, rfl⟩)).mono
    fun v v' hv hid hvv => ?_
  obtain rfl : v.op = o := Option.some.inj ((hid ▸ hv.op).symm.trans hf)
  have hvh : v.host = k := by
    have : v.host.id = k.id := by simpa [hv.hostId] using hoh
    exact Option.some.inj ((this ▸ hv.host).symm.trans hk)
  rw [hvv]
  exact .prepare v op version hh hl (hvh ▸ hs)

theorem pinTarget_eq_some {d : DB} {op : Operation} {o : OperationRow} {k : Host} (h : pinTarget d op = some (o, k)) :
    d.operations.find op.id = some o ∧ o.heldBy op d.clock = true ∧ o.hostId = some op.hostId ∧
      o.state = .launching ∧ d.hosts.find op.hostId = some k ∧ k.state = .registering := by
  simp only [pinTarget, Option.bind_eq_bind, Option.bind_eq_some_iff, heldRow_eq_some, Option.ite_none_right_eq_some,
    Option.some.injEq, Bool.and_eq_true, decide_eq_true_eq] at h
  obtain ⟨o, ⟨hf, hh, hoh, hl⟩, k, hk, hs, he⟩ := h
  obtain ⟨rfl, rfl⟩ := Prod.mk.inj he
  exact ⟨hf, hh, hoh, hl, hk, hs⟩

/-- what a successful pin did: the binding keeps a state that was set, and the host asks for the pinned version -/
theorem pinProvisionExpectedState_ok {d : DB} {op : Operation} {e : ExpectedHostState} {x : ExpectedHostState × DB}
    (h : (pinProvisionExpectedState op e).run ans d = .ok x) :
    ∃ o k b, pinTarget d op = some (o, k) ∧ d.provisioning.find op.hostId = some b ∧ b.operationId = op.id ∧
      (e.revision = 1 ∧ e.version ≠ "" ∧ e.version.utf8ByteSize ≤ 128 ∧ e.secret = none) ∧
      x.1 = b.expectedState.getD e ∧ x.1.revision = 1 ∧
      x.1.version ≠ "" ∧ x.2 = (d.put (.provisioning { b with expectedState := some x.1 })).put
        (.host { k with desiredStateVersion := x.1.version }) := by
  simp only [pinProvisionExpectedState, bind_eq, run_require_bind, run_selectForUpdate_bind, run_orFail_bind,
    run_updateReturning_bind, run_update_bind, pure_eq, run_done] at h
  obtain ⟨hchecked, ⟨o, k⟩, ht, e', he', ⟨h₄, h₅, -⟩, hx⟩ := h
  obtain ⟨⟨r, e''⟩, hb, rfl⟩ := Option.map_eq_some_iff.mp he'
  have hb' := hb
  obtain ⟨b, hb, hre⟩ := Option.map_eq_some_iff.mp hb
  obtain ⟨hbf, hbo⟩ := Option.filter_eq_some_iff.mp hb
  obtain ⟨rfl, rfl⟩ := Prod.mk.inj hre
  obtain ⟨-, -, -, -, hk, -⟩ := pinTarget_eq_some ht
  simp only [hb', Option.toList_some, List.map_cons, List.map_nil, RowStore.putAll_cons, RowStore.putAll_nil, put_eq,
    DB.put, hk, Except.ok.injEq] at hx
  subst hx
  exact ⟨o, k, b, ht, hbf, by simpa using hbo, hchecked, rfl, h₄, h₅, rfl⟩

theorem pinProvisionExpectedState_effect {d : DB} (hw : d.WF) {op : Operation} {e : ExpectedHostState}
    {x : ExpectedHostState × DB} (h : (pinProvisionExpectedState op e).run ans d = .ok x) :
    Effect d x.2 op.id (ViewStep d.clock (.pinProvisionExpectedState op e)) := by
  obtain ⟨o, k, b, ht, hb, hbo, -, -, -, -, hx⟩ := pinProvisionExpectedState_ok h
  obtain ⟨hf, hh, hoh, hl, hkf, hs⟩ := pinTarget_eq_some ht
  have hid : k.id = op.hostId := Table.key_of_find hkf
  have hbid : b.hostId = op.hostId := Table.key_of_find hb
  -- the binding names a provision operation, so the pinned operation is one
  have hko : o.kind = .provision := by
    obtain ⟨o', ho', hk', -⟩ := hw.bound _ b hb
    rw [hbo, hf] at ho'
    exact (Option.some.inj ho') ▸ hk'
  have e₁ := effect_put_provisioning { b with expectedState := some x.1 } op.id (.inl ⟨b, hbid ▸ hb, rfl⟩)
  have hw₁ := hw.of_sameRefs e₁.refs
  have e₂ := effect_put_host (h := k) hw₁ { k with desiredStateVersion := x.1.version } (i := op.id) hf hko
    (hid ▸ hoh) (hid ▸ hkf) rfl rfl
  rw [hx]
  refine (e₁.trans e₂).mono fun v v' _ _ hv => ?_
  obtain ⟨v, rfl, rfl, rfl, rfl⟩ := hv
  exact .pin v op e x.1.version hh hl hs

/-- holding a lease with a margin is holding it -/
theorem OperationRow.heldBy_mono {o : OperationRow} {op : Operation} {m n : ℕ} (hmn : m ≤ n)
    (h : o.heldBy op n = true) : o.heldBy op m = true := by
  simp only [OperationRow.heldBy, Bool.and_eq_true, decide_eq_true_eq, Option.any_eq_true] at h ⊢
  obtain ⟨hf, l, hl, ho, hn⟩ := h
  exact ⟨hf, l, hl, ho, by omega⟩

/-- everything `FinalizeProvision` checks under its locks -/
structure FinalizeTarget.Spec (t : FinalizeTarget) (d : DB) (op : Operation) (version : String) : Prop where
  row : d.operations.find op.id = some t.op
  held : t.op.heldBy op (d.clock + oneSecond) = true
  kind : t.op.kind = .provision
  hostId : t.op.hostId = some op.hostId
  launching : t.op.state = .launching
  host : d.hosts.find op.hostId = some t.host
  binding : d.provisioning.find op.hostId = some t.binding
  bindingOp : t.binding.operationId = op.id
  converging : t.host.state = .converging
  started : t.binding.releaseStarted = true
  desired : t.host.desiredStateVersion = version
  pins : t.binding.pins version = true
  group : ∃ g, t.op.groupId.bind d.nodeGroups.find = some g ∧ d.clusterZones.find (g.clusterId, g.zoneId) = some t.membership ∧
    d.zones.find g.zoneId = some t.zone ∧ d.clusters.find g.clusterId = some t.cluster
  admitted : t.membership.admitted = true
  zoneReady : t.zone.enabled = true ∧ t.zone.lifecycle = .ready
  clusterReady : t.cluster.lifecycle = .ready

theorem finalizeTarget_spec {d : DB} {op : Operation} {version : String} {t : FinalizeTarget}
    (h : finalizeTarget d op version = some t) : t.Spec d op version := by
  simp only [finalizeTarget, Option.bind_eq_bind, Option.bind_eq_some_iff, Option.filter_eq_some_iff,
    Option.ite_none_right_eq_some, Option.some.injEq, Bool.and_eq_true, decide_eq_true_eq] at h
  obtain ⟨o, ⟨hf, ⟨⟨hh, hoh⟩, hk⟩, hl⟩, k, hkf, b, ⟨hb, hbo⟩, g, hg, m, hm, z, hz, c, hc,
    ⟨h₁, h₂, h₃, h₄, h₅, h₆, h₇, h₈⟩, rfl⟩ := h
  have hkid : k.id = op.hostId := Table.key_of_find hkf
  have hoid : o.id = op.id := Table.key_of_find hf
  exact ⟨hf, hh, hk, hoh, hl, hkf, hkid ▸ hb, hbo.trans hoid, h₁, h₂, h₃, h₄,
    ⟨g, Option.bind_eq_some_iff.mpr hg, hm, hz, hc⟩, h₅, ⟨h₆, h₇⟩, h₈⟩

/-- a host that becomes READY is the converging host of the named operation -/
theorem finalHost_spec {d : DB} {op : Operation} {h : Host} (hf : finalHost d op = some h) :
    ∃ o, d.operations.find op.id = some o ∧ o.fence = op.fence ∧ o.hostId = some h.id ∧ d.hosts.find h.id = some h ∧
      h.state = .converging := by
  simp only [finalHost, Option.bind_eq_bind, Option.bind_eq_some_iff, Option.filter_eq_some_iff,
    Option.ite_none_right_eq_some, Option.some.injEq, Bool.and_eq_true, decide_eq_true_eq] at hf
  obtain ⟨o, ⟨ho, hfe, -⟩, k, ⟨i, hi, hk⟩, hs, rfl⟩ := hf
  obtain rfl : k.id = i := Table.key_of_find hk
  exact ⟨o, ho, hfe, hi, hk, hs⟩

theorem FinalizeTarget.Spec.heldNow {t : FinalizeTarget} {d : DB} {op : Operation} {version : String}
    (hs : t.Spec d op version) : t.op.heldBy op d.clock = true :=
  OperationRow.heldBy_mono (Nat.le_add_right _ _) hs.held

theorem finalizeProvision_effect {d : DB} (hw : d.WF) {op : Operation} {version : String} {x : Unit × DB}
    (h : (finalizeProvision op version).run ans d = .ok x) :
    Effect d x.2 op.id (ViewStep d.clock (.finalizeProvision op version)) := by
  simp only [finalizeProvision, fencedUpdate, bind_eq, run_selectForUpdate_bind, run_orFail_bind, run_external_bind,
    run_require_bind, updateOne_bind, updateOne_ok] at h
  obtain ⟨t, ht, -, r, hr, r', hr', hx⟩ := h
  have hs := finalizeTarget_spec ht
  obtain ⟨k, hk, rfl⟩ := Option.map_eq_some_iff.mp hr
  obtain ⟨o, ho, -, hoh, hkf, hks⟩ := finalHost_spec hk
  obtain rfl : t.op = o := Option.some.inj (hs.row.symm.trans ho)
  obtain ⟨o', ho', rfl⟩ := Option.map_eq_some_iff.mp hr'
  obtain rfl : t.op = o' := Option.some.inj (hs.row.symm.trans (Option.filter_eq_some_iff.mp ho').1)
  have e₁ := effect_put_host (h := k) hw
    { k with state := .ready, observedStateVersion := k.desiredStateVersion, updatedAt := d.clock } hs.row hs.kind hoh
    hkf rfl rfl
  have e₂ := effect_put_operation (d := d.put (.host
    { k with state := .ready, observedStateVersion := k.desiredStateVersion, updatedAt := d.clock }))
    { t.op with state := .succeeded, lease := none, updatedAt := d.clock } hs.row rfl rfl
  rw [hx]
  refine (e₁.trans e₂).mono fun v v' _ _ hv => ?_
  obtain ⟨_, ⟨hop, rfl, rfl⟩, -, rfl⟩ := hv
  have := ViewStep.finalize v op version (hop ▸ hs.heldNow) (hop ▸ hs.launching) hks
  simpa [hop] using this

/-! ## Claims -/

theorem claimCandidate_spec {d : DB} {zoneId : String} {kind : OperationKind} {owner : String} {authorize : Bool}
    {locked : String → Bool} {o : OperationRow} (h : claimCandidate d zoneId kind owner authorize locked = some o) :
    d.operations.find o.id = some o ∧ o.kind = kind ∧ o.claimableAt d.clock := by
  have hmem := List.mem_of_mem_head? h
  rw [List.mem_insertionSort, List.mem_filter] at hmem
  obtain ⟨hrow, hc⟩ := hmem
  simp only [claimable, Bool.and_eq_true, Bool.or_eq_true, decide_eq_true_eq] at hc
  obtain ⟨⟨⟨⟨-, hk⟩, hs⟩, -⟩, -⟩ := hc
  refine ⟨Table.find_mem hrow, hk, hs.imp id fun hs => ⟨?_, fun l hl => ?_⟩⟩
  · rcases hs.1 with h | h <;> rw [h] <;> rfl
  · simpa [hl] using hs.2

theorem claim_ok {d : DB} {zoneId : String} {kind : OperationKind} {owner : String} {duration : Duration}
    {authorize : Bool} {locked : String → Bool} {x : Operation × DB}
    (h : (claim zoneId kind owner duration authorize locked).run ans d = .ok x) :
    ∃ o, claimCandidate d zoneId kind owner authorize locked = some o ∧ owner ≠ "" ∧
      x = ((o.claimed d owner duration).toOperation, d.put (.operation (o.claimed d owner duration))) := by
  simp only [claim, bind_eq, run_require_bind, run_updateReturning_bind, run_orFail, Option.map_map] at h
  obtain ⟨⟨-, ho, -⟩, hr, hd⟩ := h
  obtain ⟨o, hc, hop⟩ := Option.map_eq_some_iff.mp hr
  refine ⟨o, hc, ho, Prod.ext hop.symm ?_⟩
  rw [hd, hc]
  rfl

/-- a claim takes its step on the operation it returns -/
theorem claimDominator_effect {d : DB} {zoneId : String} {kind : OperationKind} {owner : String} {duration : Duration}
    {locked : String → Bool} {x : Operation × DB}
    (h : (claimDominator zoneId kind owner duration locked).run ans d = .ok x) :
    x.1.leaseOwner = owner ∧ Effect d x.2 x.1.id fun v v' => x.1 = v'.op.toOperation ∧
      ViewStep d.clock (.claimDominator zoneId kind owner duration locked) v v' := by
  simp only [claimDominator, bind_eq, run_require_bind] at h
  obtain ⟨o, hc, -, rfl⟩ := claim_ok h.2
  obtain ⟨hf, hk, hcl⟩ := claimCandidate_spec hc
  refine ⟨rfl, (effect_put_operation (o.claimed d owner duration) hf rfl rfl).mono fun v v' hview _ hv => ?_⟩
  obtain ⟨rfl, rfl⟩ := hv
  have hstep := ViewStep.claim v zoneId kind owner duration locked hcl hk
  exact ⟨rfl, by simpa [OperationRow.claimed, hview.kind, hview.hostLaunched] using hstep⟩

end Crane.Capacity
