/-
Operation, host and reservation of one provision intent never disagree.

The three records are written by a dozen calls, most of which touch only one of them. `Agrees` is the joint invariant,
by the stage the host is in; every lifecycle step and every step of a decrease keeps it, given that a session records a
launch only on a PROVISIONING host. `Next` are the moves of the host's state, so its history is a trail of the lifecycle.
-/
import Crane.Capacity.System
import Mathlib.Data.List.Infix

namespace Crane.Capacity

/-! ## The stages of an intent -/

/-- the three records, by stage -/
inductive Agrees (v : View) : Prop
  | waiting (host : HostState.prelaunch v.host.state)
      (op : v.op.state = .pending ∨ v.op.state = .leased ∨ v.op.state = .launching) (res : v.res.state = .reserved)
      (id : v.host.providerId = none)
  | launched (host : HostState.launched v.host.state = true) (op : v.op.state = .launching)
      (res : v.res.state = .committed) (id : ∃ p, v.host.providerId = some p ∧ p ≠ "")
  | ready (host : v.host.state = .ready) (op : v.op.state = .succeeded) (res : v.res.state = .committed)
      (id : ∃ p, v.host.providerId = some p ∧ p ≠ "")
  | cancelled (host : v.host.state = .terminated) (op : v.op.state = .cancelled) (res : v.res.state = .released)
      (id : v.host.providerId = none)

/-- the moves of a host's state -/
inductive Next : HostState → HostState → Prop
  | provisioning : Next .requested .provisioning
  | booting : Next .provisioning .booting
  | registering : Next .booting .registering
  | converging : Next .registering .converging
  | ready : Next .converging .ready
  | terminated {s : HostState} (h : HostState.prelaunch s) : Next s .terminated

theorem View.Initial.agrees {v : View} (h : v.Initial) : Agrees v :=
  .waiting (.inl h.host.1) (.inl h.op.state) h.res h.host.2.1

/-- an operation that is still at work is before or after the launch -/
theorem Agrees.at_work {v : View} (h : Agrees v)
    (ho : v.op.state = .pending ∨ v.op.state = .leased ∨ v.op.state = .launching) :
    (HostState.prelaunch v.host.state ∧ v.res.state = .reserved ∧ v.host.providerId = none) ∨
      (HostState.launched v.host.state = true ∧ v.op.state = .launching ∧ v.res.state = .committed ∧
        ∃ p, v.host.providerId = some p ∧ p ≠ "") := by
  cases h with
  | waiting hs _ hr hp => exact .inl ⟨hs, hr, hp⟩
  | launched hs hop hr hp => exact .inr ⟨hs, hop, hr, hp⟩
  | ready _ hop => simp [hop] at ho
  | cancelled _ hop => simp [hop] at ho

theorem OperationState.at_work_of_active {s : OperationState} (h : OperationState.active s = true) :
    s = .pending ∨ s = .leased ∨ s = .launching := by
  cases s <;> simp [OperationState.active] at h ⊢

theorem HostState.not_launched {s : HostState} (h : HostState.prelaunch s) : HostState.launched s = false := by
  rcases h with rfl | rfl <;> rfl

/-- a step that only rewrites the operation, to a state that fits the host -/
theorem Agrees.rewrite {v v' : View} (h : Agrees v)
    (ho : v.op.state = .pending ∨ v.op.state = .leased ∨ v.op.state = .launching)
    (hs : v'.host.state = v.host.state) (hp : v'.host.providerId = v.host.providerId) (hr : v'.res = v.res)
    (hpre : HostState.launched v.host.state = false →
      v'.op.state = .pending ∨ v'.op.state = .leased ∨ v'.op.state = .launching)
    (hpost : HostState.launched v.host.state = true → v.op.state = .launching → v'.op.state = .launching) :
    Agrees v' ∧ (v'.host.state = v.host.state ∨ Next v.host.state v'.host.state) := by
  refine ⟨?_, .inl hs⟩
  rcases h.at_work ho with ⟨hs', hr', hp'⟩ | ⟨hs', ho', hr', hp'⟩
  · exact .waiting (hs ▸ hs') (hpre (HostState.not_launched hs')) (hr ▸ hr') (hp ▸ hp')
  · exact .launched (hs ▸ hs') (hpost hs' ho') (hr ▸ hr') (hp ▸ hp')

theorem Agrees.step {now : ℕ} {c : Call} {v v' : View} (h : Agrees v) (hs : ViewStep now c v v')
    (hr : ∀ op p ip np, c = .recordLaunchWithAddress op p ip np → v.host.state = .provisioning) :
    Agrees v' ∧ (v'.host.state = v.host.state ∨ Next v.host.state v'.host.state) := by
  cases hs with
  | claim _ _ _ _ _ _ hc hk =>
    have ho : v.op.state = .pending ∨ v.op.state = .leased ∨ v.op.state = .launching := by
      rcases hc with hc | hc
      · exact .inl hc
      · exact OperationState.at_work_of_active hc.1
    exact h.rewrite ho rfl rfl rfl (fun hl => by simp [hl]) fun hl _ => by simp [hl]
  | renew _ _ _ hh ha =>
    exact h.rewrite (OperationState.at_work_of_active ha) rfl rfl rfl
      (fun _ => OperationState.at_work_of_active ha) fun _ ho => ho
  | beginLaunch _ _ hh ha =>
    exact h.rewrite (OperationState.at_work_of_active ha) rfl rfl rfl (fun _ => .inr (.inr rfl)) fun _ _ => rfl
  | recordLaunch _ op p ip np z endpoint host hh hl hp hrec =>
    have hst := hr _ _ _ _ rfl
    have hspec := Host.launchedAs_spec hrec
    have hboot : host.state = .booting := by rw [hspec.state, if_pos (.inl hst)]
    rcases h.at_work (.inr (.inr hl)) with ⟨-, hres, -⟩ | ⟨hs', -⟩
    · refine ⟨.launched ?_ hl (by simp [hres]) ⟨p, hspec.providerId, hp⟩, .inr ?_⟩
      · simp [hboot, HostState.launched]
      · simp only [hst, hboot]
        exact .booting
    · simp [hst, HostState.launched] at hs'
  | desiredVersion _ _ _ hh hl hs => exact h.rewrite (.inr (.inr hl)) rfl rfl rfl (fun _ => .inr (.inr hl)) fun _ ho => ho
  | setState _ op expected next hh hl hs hn =>
    subst hs
    rcases h.at_work (.inr (.inr hl)) with ⟨hs', hres, hid⟩ | ⟨hs', -, hres, hid⟩
    · -- before the launch only REQUESTED hands over
      rcases hs' with hs' | hs' <;> rw [hs'] at hn ⊢ <;> simp only [HostState.handoff, Option.some.injEq, reduceCtorEq] at hn
      exact ⟨.waiting (.inr hn.symm) (.inr (.inr hl)) hres hid, .inr (hn ▸ .provisioning)⟩
    · cases hv : v.host.state <;> simp only [hv, HostState.launched, HostState.handoff, Option.some.injEq, reduceCtorEq] at hn hs'
      · exact ⟨.launched (hn ▸ rfl) hl hres hid, .inr (hn ▸ .registering)⟩
      · exact ⟨.launched (hn ▸ rfl) hl hres hid, .inr (hn ▸ .converging)⟩
  | bind => exact ⟨h, .inl rfl⟩
  | pin _ op e version hh hl hs => exact h.rewrite (.inr (.inr hl)) rfl rfl rfl (fun _ => .inr (.inr hl)) fun _ ho => ho
  | prepare => exact ⟨h, .inl rfl⟩
  | finalize _ op version hh hl hs =>
    rcases h.at_work (.inr (.inr hl)) with ⟨hs', -⟩ | ⟨-, -, hres, hid⟩
    · simp [hs, HostState.prelaunch] at hs'
    · refine ⟨.ready rfl rfl hres hid, .inr ?_⟩
      rw [hs]
      exact .ready
  | complete _ op hh hl hs =>
    rcases h.at_work (.inr (.inr hl)) with ⟨hs', -⟩ | ⟨hs', -⟩
    · simp [hs, HostState.prelaunch] at hs'
    · simp [hs, HostState.launched] at hs'
  | failure _ op category hh ha =>
    exact h.rewrite (OperationState.at_work_of_active ha) rfl rfl rfl
      (fun _ => OperationState.at_work_of_active ha) fun _ ho => ho
  | release _ op hh ha =>
    exact h.rewrite (OperationState.at_work_of_active ha) rfl rfl rfl (fun hl => by simp [hl]) fun hl _ => by simp [hl]

theorem Agrees.decrease {now : ℕ} {g : String} {v v' : View} (h : Agrees v)
    (hs : Relation.ReflTransGen (DecreaseStep now g) v v') :
    Agrees v' ∧ (v'.host.state = v.host.state ∨ Next v.host.state v'.host.state) := by
  rcases decrease_outcome hs with (rfl | ⟨rfl, -⟩) | ⟨hc, -, hv'⟩
  · exact ⟨h, .inl rfl⟩
  · refine ⟨?_, .inl rfl⟩
    cases h with
    | waiting h₁ h₂ h₃ h₄ => exact .waiting h₁ h₂ h₃ h₄
    | launched h₁ h₂ h₃ h₄ => exact .launched h₁ h₂ h₃ h₄
    | ready h₁ h₂ h₃ h₄ => exact .ready h₁ h₂ h₃ h₄
    | cancelled h₁ h₂ h₃ h₄ => exact .cancelled h₁ h₂ h₃ h₄
  · rcases h.at_work (.inl hc.pending) with ⟨hs', -, hid⟩ | ⟨-, ho, -⟩
    · rcases hv' with rfl | rfl <;> exact ⟨.cancelled rfl rfl rfl hid, .inr (.terminated hs')⟩
    · simp [hc.pending] at ho

/-- every action keeps the agreement of an operation and moves its host along the lifecycle -/
theorem Agrees.change {cat : Catalog} {s : St} {a : Act} {v v' : View} (h : Agrees v) (hc : Change cat s a v v') :
    Agrees v' ∧ (v'.host.state = v.host.state ∨ Next v.host.state v'.host.state) := by
  cases hc with
  | same => exact ⟨h, .inl rfl⟩
  | step c hs hr => exact h.step hs fun op p ip np e => (hr op p ip np e).1
  | decrease req u g ha hg hlt hs => exact h.decrease hs

/-! ## The history of a host -/

def lifecycle : List HostState := [.requested, .provisioning, .booting, .registering, .converging, .ready]

/-- a beginning of the lifecycle, possibly ended by TERMINATED from REQUESTED or PROVISIONING -/
def IsTrail (l : List HostState) : Prop :=
  l <+: lifecycle ∨ ∃ p, p <+: lifecycle ∧ (∃ s, p.getLast? = some s ∧ HostState.prelaunch s) ∧ l = p ++ [.terminated]

theorem IsTrail.next {l : List HostState} {s s' : HostState} (h : IsTrail l) (hl : l.getLast? = some s) (hn : Next s s') :
    IsTrail (l ++ [s']) := by
  have hp : l <+: lifecycle := by
    rcases h with h | ⟨p, -, -, rfl⟩
    · exact h
    · -- nothing follows TERMINATED
      obtain rfl : HostState.terminated = s := by simpa using hl
      cases hn with
      | terminated h => simp [HostState.prelaunch] at h
  by_cases ht : s' = .terminated
  · subst ht
    cases hn with
    | terminated hs => exact .inr ⟨l, hp, ⟨s, hl, hs⟩, rfl⟩
  · -- the lifecycle visits each state once, so the last state tells which beginning it is
    have hmem := (List.mem_inits _ _).mpr hp
    simp only [lifecycle, List.inits_cons, List.inits, List.map_cons, List.map_nil, List.mem_cons, List.not_mem_nil,
      or_false] at hmem
    refine .inl ?_
    rcases hmem with rfl | rfl | rfl | rfl | rfl | rfl | rfl <;> simp at hl <;> subst hl <;> cases hn <;>
      first | decide | exact absurd rfl ht

theorem IsTrail.record {l : List HostState} {s s' : HostState} (h : IsTrail l) (hl : l.getLast? = some s)
    (hn : s' = s ∨ Next s s') : IsTrail (record l s') ∧ (record l s').getLast? = some s' := by
  unfold Capacity.record
  split_ifs with he
  · exact ⟨h, he⟩
  · rcases hn with rfl | hn
    · exact absurd hl he
    · exact ⟨h.next hl hn, by simp⟩

theorem DB.IsView.hostState {d : DB} {v : View} (hv : d.IsView v) : d.hostState v.op.id = some v.host.state := by
  simp [DB.hostState, hv.op, Option.filter_some, hv.kind, hv.hostId, hv.host]

theorem act_seen (w : World) (s : St) (a : Act) : (s.act w a).seen = s.seen := by
  have h := act_does w s a
  generalize s.act w a = s' at h
  cases h <;> rfl

/-- the invariant of runs: the records agree and the history of each host is a trail to its state -/
structure Agreement (cat : Catalog) (s : St) : Prop where
  inv : Inv cat (fun _ => True) s
  agrees : ∀ v, s.db.IsView v → Agrees v
  trail : ∀ v, s.db.IsView v → IsTrail (s.seen v.op.id) ∧ (s.seen v.op.id).getLast? = some v.host.state
  unseen : ∀ j, s.db.operations.find j = none → s.seen j = []

theorem agreement_init (cat : Catalog) : Agreement cat (St.init cat) where
  inv := inv_init cat _
  agrees v hv := absurd hv (cat.not_isView v)
  trail v hv := absurd hv (cat.not_isView v)
  unseen _ _ := rfl

theorem step_agreement {w : World} {cat : Catalog} {s : St} (h : Agreement cat s) (a : Act) : Agreement cat (s.step w a) where
  inv := (act_inv trivial h.inv a fun _ _ _ _ _ _ => trivial).observe
  agrees v' hv' := by
    rcases act_view h.inv hv' with ⟨-, hinit⟩ | ⟨v, hv, -, hc⟩
    · exact hinit.agrees
    · exact ((h.agrees v hv).change hc).1
  trail v' hv' := by
    have hseen : (s.step w a).seen v'.op.id = record (s.seen v'.op.id) v'.host.state := by
      have hstate : (s.act w a).db.hostState v'.op.id = some v'.host.state := DB.IsView.hostState hv'
      simp only [St.step, St.observe, hstate, act_seen]
    rw [hseen]
    rcases act_view h.inv hv' with ⟨hn, hinit⟩ | ⟨v, hv, hid, hc⟩
    · rw [h.unseen _ hn, hinit.host.1]
      exact ⟨.inl (by decide), by decide⟩
    · rw [hid]
      exact (h.trail v hv).1.record (h.trail v hv).2 ((h.agrees v hv).change hc).2
  unseen j hj := by
    have hold : s.db.operations.find j = none := by
      by_contra ho
      obtain ⟨o, ho⟩ := Option.ne_none_iff_exists'.mp ho
      obtain ⟨o', ho', -⟩ := act_op (w := w) (a := a) h.inv ho
      exact absurd (hj.symm.trans ho') (by simp)
    have hnone : (s.act w a).db.hostState j = none := by
      have hj : (s.act w a).db.operations.find j = none := hj
      simp [DB.hostState, hj]
    simp only [St.step, St.observe, hnone, act_seen, h.unseen j hold]

theorem run_agreement (w : World) (cat : Catalog) (acts : List Act) : Agreement cat ((St.init cat).run w acts) :=
  run_induction (P := fun _ _ => True) (I := Agreement cat) (fun _ a _ h => step_agreement h a) (allSteps_true w _ acts) (agreement_init cat)

/-! ## Results -/

/-- what the states of operation, host and reservation say about each other -/
structure View.Consistent (v : View) : Prop where
  cancelled : v.op.state = .cancelled ↔ v.host.state = .terminated
  released : v.host.state = .terminated ↔ v.res.state = .released
  succeeded : v.op.state = .succeeded ↔ v.host.state = .ready
  launching : v.host.state = .booting ∨ v.host.state = .registering ∨ v.host.state = .converging →
    v.op.state = .launching
  committed : v.res.state = .committed ↔ ∃ p, v.host.providerId = some p ∧ p ≠ ""
  launched : (∃ p, v.host.providerId = some p ∧ p ≠ "") ↔ v.host.state = .booting ∨ v.host.state = .registering ∨
    v.host.state = .converging ∨ v.host.state = .ready

theorem Agrees.consistent {v : View} (h : Agrees v) : v.Consistent := by
  cases h with
  | waiting hs ho hr hp =>
    rcases hs with hs | hs <;> rcases ho with ho | ho | ho <;> constructor <;> simp [hs, ho, hr, hp]
  | launched hs ho hr hp =>
    have hp : (∃ p, v.host.providerId = some p ∧ p ≠ "") ↔ True := iff_true_intro hp
    cases h : v.host.state <;> simp only [h, HostState.launched, reduceCtorEq] at hs <;> constructor <;> simp [h, ho, hr, hp]
  | ready hs ho hr hp =>
    have hp : (∃ p, v.host.providerId = some p ∧ p ≠ "") ↔ True := iff_true_intro hp
    constructor <;> simp [hs, ho, hr, hp]
  | cancelled hs ho hr hp => constructor <;> simp [hs, ho, hr, hp]

/-- **Operation, host and reservation never disagree.** In every state of every run the records of a provision operation
are consistent, and the states its host went through are a trail of the lifecycle that ends in its present state. -/
theorem records_agree (w : World) (cat : Catalog) (acts : List Act) (v : View)
    (hv : ((St.init cat).run w acts).db.IsView v) :
    v.Consistent ∧ IsTrail (((St.init cat).run w acts).seen v.op.id) ∧
      (((St.init cat).run w acts).seen v.op.id).getLast? = some v.host.state :=
  have h := run_agreement w cat acts
  ⟨(h.agrees v hv).consistent, h.trail v hv⟩

theorem records_agree_booting : ∃ v, (Fleet.after (Fleet.launched false ++ [.ask 0 {}])).db.view "r1-2" = some v ∧
    v.host.state = .booting ∧ v.Consistent ∧
    IsTrail ((Fleet.after (Fleet.launched false ++ [.ask 0 {}])).seen v.op.id) := by
  have hany : ((Fleet.after (Fleet.launched false ++ [.ask 0 {}])).db.view "r1-2").any
      (fun v => v.host.state = .booting) = true := by decide +kernel
  obtain ⟨v, hv, hs⟩ := (Option.any_eq_true _ _).mp hany
  obtain ⟨hview, -⟩ := DB.isView_of_view hv
  have h := records_agree Fleet.world Fleet.catalog _ v hview
  exact ⟨v, hv, by simpa using hs, h.1, h.2.1⟩

/-- **The provisioning records refer to each other.** In every state of every run each provision operation has its own host
and reservation, each capacity-managed host its operation, no two operations share a provider token, and a Node is bound
for the operation of its host. -/
theorem references_hold (w : World) (cat : Catalog) (acts : List Act) : ((St.init cat).run w acts).db.WF :=
  (run_agreement w cat acts).inv.wf

end Crane.Capacity
