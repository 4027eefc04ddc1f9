/-
Runs of the whole system: any number of controllers, operators, a clock and the provider.

The invariant `Inv` says that the store is referentially intact, that no two sessions share an operation and a fence,
and that every session is safe where it stands. `act_view` is the one description of what an action can do to a
provision operation: nothing, one step of the lifecycle taken by a session within its guard, or the cancellations and
marks of an accepted decrease. Every later result about runs is an induction over it.
-/
import Crane.Capacity.Sessions

namespace Crane.Capacity

open Provider Tx

/-! ## What other parties may do to the operation of a session -/

/-- what the session that claimed `op` sees of a change -/
def Rel (past : HostState → Prop) (op : Operation) (v v' : View) : Prop :=
  (Held v' op → Held v op ∧ Frame v v') ∧ Later past v v'

/-- a fenced step keeps the fence, and the owner unless it gives the lease back -/
theorem ViewStep.fence {now : ℕ} {c : Call} {op : Operation} {v v' : View} (h : ViewStep now c v v')
    (hc : c.fenced = some op) : v'.op.fence = v.op.fence := by
  cases h <;> first | rfl | simp [Call.fenced] at hc

theorem ViewStep.claim_fence {now : ℕ} {zoneId : String} {kind : OperationKind} {owner : String} {duration : Duration}
    {locked : String → Bool} {v v' : View} (h : ViewStep now (.claimDominator zoneId kind owner duration locked) v v') :
    v'.op.fence = v.op.fence + 1 := by
  cases h
  rfl

theorem ViewStep.later {now : ℕ} {c : Call} {v v' : View} (h : ViewStep now c v v') {past : HostState → Prop}
    (hp : past v.host.state → past v'.host.state) : Later past v v' := by
  obtain ⟨hi, hid, hh⟩ := h.intent
  exact ⟨hid, hi, hh, hp⟩

theorem decrease_keeps {now : ℕ} {g : String} {v v' : View} (h : Relation.ReflTransGen (DecreaseStep now g) v v') :
    v'.op.id = v.op.id ∧ v'.op.intent = v.op.intent ∧ v'.host.id = v.host.id := by
  rcases decrease_outcome h with (rfl | ⟨rfl, -⟩) | ⟨-, -, rfl | rfl⟩ <;> exact ⟨rfl, rfl, rfl⟩

/-- a decrease leaves the states of a held operation alone: cancelling needs an operation without a lease -/
theorem decrease_frame {now : ℕ} {g : String} {v v' : View} {op : Operation}
    (h : Relation.ReflTransGen (DecreaseStep now g) v v') (hh : Held v' op) : Held v op ∧ Frame v v' := by
  rcases decrease_outcome h with (rfl | ⟨rfl, -⟩) | ⟨hc, -, rfl | rfl⟩
  · exact ⟨hh, rfl, rfl⟩
  · exact ⟨hh, rfl, rfl⟩
  all_goals
    obtain ⟨-, l, hl, -⟩ := hh
    exact absurd hl (by simp [View.cancelled, View.marked, OperationRow.cancelled, hc.lease])

/-- a step that another party takes -/
theorem rel_of_step {now : ℕ} {c : Call} {v v' : View} {past : HostState → Prop} {op op' : Operation}
    (h : ViewStep now c v v') (hc : c.fenced = some op') (hne : op'.fence ≠ op.fence)
    (hp : past v.host.state → past v'.host.state) : Rel past op v v' := by
  refine ⟨fun hh => ?_, h.later hp⟩
  have hheld := (h.held hc).1
  simp only [OperationRow.heldBy, Bool.and_eq_true, decide_eq_true_eq] at hheld
  exact absurd (hheld.1.symm.trans ((h.fence hc).symm.trans hh.1)) hne

/-- a call that is not fenced -/
theorem rel_of_change {d : DB} {c : Call} {r : Reply} {v v' : View} {past : HostState → Prop} {op : Operation}
    (h : ViewChange d c r v v') (hc : c.fenced = none) (hle : op.fence ≤ v.op.fence)
    (hp : past v.host.state → past v'.host.state) : Rel past op v v' := by
  cases h with
  | same => exact ⟨fun hh => ⟨hh, rfl, rfl⟩, .refl _ _⟩
  | fenced op' hc' => simp [hc] at hc'
  | claim op' ho hi hop hs =>
    refine ⟨fun hh => ?_, hs.later hp⟩
    have := hs.claim_fence
    have := hh.1
    omega
  | decrease g hg hlt hs =>
    obtain ⟨h₁, h₂, h₃⟩ := decrease_keeps hs
    exact ⟨fun hh => decrease_frame hs hh, ⟨h₁, h₂, h₃, hp⟩⟩

/-- the session's own renewal -/
theorem rel_of_renew {now : ℕ} {op : Operation} {lease : Duration} {v v' : View} {past : HostState → Prop}
    (h : ViewStep now (.renew op lease) v v') (hp : past v.host.state → past v'.host.state) : Rel past op v v' := by
  refine ⟨fun _ => ?_, h.later hp⟩
  have hheld := (h.held rfl).1
  cases h
  exact ⟨held_of_heldBy hheld ⟨rfl, rfl, rfl, rfl, rfl⟩, rfl, rfl⟩

/-! ## The invariant -/

/-- the provider's name of a zone -/
def Catalog.providerZone (cat : Catalog) (zoneId : String) : String :=
  ((cat.zones.find zoneId).map Zone.providerZoneId).getD ""

/-- a session stands safely on the view of the operation it claimed -/
structure Standing (cat : Catalog) (past : HostState → Prop) (d : DB) (c : Cloud) (x : Session) (v : View) : Prop where
  view : d.IsView v
  id : v.op.id = x.op.id
  token : v.op.providerToken = x.op.providerToken
  zone : v.op.zoneId = x.op.zoneId
  fence : x.op.fence ≤ v.op.fence
  safe : Safe (sessionRules x.op (cat.providerZone x.op.zoneId) past) x.prog ⟨Held v x.op, v, c⟩

structure Inv (cat : Catalog) (past : HostState → Prop) (s : St) : Prop where
  wf : s.db.WF
  zones : ∀ i, (s.db.zones.find i).map Zone.providerZoneId = (cat.zones.find i).map Zone.providerZoneId
  standing : ∀ i x, s.sessions i = some x → ∃ v, Standing cat past s.db s.cloud x v
  distinct : ∀ i j x y, s.sessions i = some x → s.sessions j = some y → i ≠ j → x.op.id = y.op.id →
    x.op.fence ≠ y.op.fence

theorem inv_init (cat : Catalog) (past : HostState → Prop) : Inv cat past (St.init cat) where
  wf := cat.wf
  zones _ := rfl
  standing _ _ h := by simp [St.init] at h
  distinct _ _ _ _ h := by simp [St.init] at h

section Step
variable {w : World} {cat : Catalog} {past : HostState → Prop} {s : St}

/-- a session that does not act stays safe -/
theorem Standing.keep {d d' : DB} {c c' : Cloud} {x : Session} {v v' : View} (h : Standing cat past d c x v)
    (hv' : d'.IsView v') (hf : x.op.fence ≤ v'.op.fence) (hr : Rel past x.op v v') (hc : c ⊆ c') :
    Standing cat past d' c' x v' := by
  have hi := hr.2.intent
  simp only [OperationRow.intent, Prod.mk.injEq] at hi
  exact ⟨hv', hr.2.id.trans h.id, hi.2.2.2.2.2.2.1.trans h.token, hi.2.1.trans h.zone, hf, h.safe.rely ⟨hr.1, hr.2, hc⟩⟩

/-- zones keep their provider name under every call -/
theorem code_zones {ext : Externals} {ans : Operation → Bool} {c : Call} {d : DB} {x : Reply × DB}
    (h : (code ext c).run ans d = .ok x) (i : String) :
    (x.2.zones.find i).map Zone.providerZoneId = (d.zones.find i).map Zone.providerZoneId := by
  refine (code_writes ext c).run_keeps
    (I := fun d' => (d'.zones.find i).map Zone.providerZoneId = (d.zones.find i).map Zone.providerZoneId)
    (fun r d' hr hd' => ?_) h rfl
  cases r with
  | zone z' =>
    obtain ⟨z, hz, hp⟩ := hr.step
    have hz : d'.zones.find z'.id = some z := by simpa [DB.look, Row.key] using hz
    simp only [Zone.place, Prod.mk.injEq] at hp
    rw [← hd']
    exact Table.map_find_put z' _ hz hp.2.2.2.1 i
  | _ => exact hd'

/-! ## What an action does -/

/-- the outcomes of an action, with the committed call where there is one -/
inductive Does (w : World) (s : St) : Act → St → Prop
  | skip (a : Act) : Does w s a s
  | stop (a : Act) (i : ℕ) : Does w s a (s.set i none)
  | tick (n : ℕ) : Does w s (.tick n) { s with db := s.db.tick n }
  | call {c : Call} {r : Reply} {d : DB} (hc : c.fenced = none)
      (hr : (code w.ext c).run (fun _ => true) s.db = .ok (r, d)) : Does w s (.call c) { s with db := d }
  | claim {i : ℕ} {zoneId identity : String} {lease : Duration} {locked : String → Bool} {op : Operation} {d : DB}
      (hi : s.sessions i = none)
      (hr : (code w.ext (.claimDominator zoneId .provision identity (leaseOrDefault lease) locked)).run (fun _ => true)
        s.db = .ok (.operation op, d)) :
      Does w s (.claim i zoneId identity lease locked)
        ({ s with db := d }.set i (some ⟨op, leaseOrDefault lease, provision op⟩))
  | renew {i : ℕ} {x : Session} {r : Reply} {d : DB} (hi : s.sessions i = some x)
      (hr : (code w.ext (.renew x.op x.lease)).run (fun _ => true) s.db = .ok (r, d)) :
      Does w s (.renew i) { s with db := d }
  | store {i : ℕ} {a : Answers} {op : Operation} {lease : Duration} {c : Call} {k : Except Err Reply → Ctl Unit}
      {r : Reply} {d : DB} (r' : Except Err Reply) (hi : s.sessions i = some ⟨op, lease, .ask (.store c) k⟩)
      (hr : (code w.ext c).run (fun _ => a.released) s.db = .ok (r, d)) (hr' : ∀ y, r' = .ok y → y = r) :
      Does w s (.ask i a) ({ s with db := d }.set i (some ⟨op, lease, k r'⟩))
  | storeFailed {i : ℕ} {a : Answers} {op : Operation} {lease : Duration} {c : Call} {k : Except Err Reply → Ctl Unit}
      (e : Err) (hi : s.sessions i = some ⟨op, lease, .ask (.store c) k⟩) :
      Does w s (.ask i a) (s.set i (some ⟨op, lease, k (.error e)⟩))
  | launch {i : ℕ} {a : Answers} {op op' : Operation} {lease : Duration} {k : Option ProvisionResult → Ctl Unit}
      (hi : s.sessions i = some ⟨op, lease, .ask (.launch op') k⟩) :
      Does w s (.ask i a) ({ s with
          cloud := (Provider.launch w.runtime s.cloud op' a.launch).1
          issued := if (Provider.launch w.runtime s.cloud op' a.launch).2.2 then op'.id :: s.issued else s.issued
        }.set i (some ⟨op, lease, k (Provider.launch w.runtime s.cloud op' a.launch).2.1⟩))
  | read {i : ℕ} {a : Answers} {op : Operation} {lease : Duration} {q : Request} {k : q.Answer → Ctl Unit}
      (hi : s.sessions i = some ⟨op, lease, .ask q k⟩) (hq : (∀ c, q ≠ .store c) ∧ ∀ op', q ≠ .launch op') :
      Does w s (.ask i a) (s.set i (some ⟨op, lease, k (exec w s a q).2⟩))

theorem callStore_cases (w : World) (d : DB) (c : Call) (a : Answers) :
    (∃ r, (code w.ext c).run (fun _ => a.released) d = .ok (r, (callStore w d c a).1) ∧
        ∀ y, (callStore w d c a).2 = .ok y → y = r) ∨
      ∃ e, callStore w d c a = (d, .error e) := by
  unfold callStore
  split
  · rename_i h
    exact .inl ⟨_, h, fun _ hy => (Except.ok.inj hy).symm⟩
  · exact .inr ⟨_, rfl⟩
  · rename_i h
    exact .inl ⟨_, h, fun _ hy => nomatch hy⟩
  · exact .inr ⟨_, rfl⟩
  · exact .inr ⟨_, rfl⟩

theorem exec_read {q : Request} (hq : (∀ c, q ≠ .store c) ∧ ∀ op, q ≠ .launch op) (w : World) (s : St) (a : Answers) :
    (exec w s a q).1 = s := by
  cases q with
  | store c => exact absurd rfl (hq.1 c)
  | launch op => exact absurd rfl (hq.2 op)
  | _ => rfl

theorem ask_does {i : ℕ} {a : Answers} {op : Operation} {lease : Duration} {q : Request} {k : q.Answer → Ctl Unit}
    (hi : s.sessions i = some ⟨op, lease, .ask q k⟩) :
    Does w s (.ask i a) ((exec w s a q).1.set i (some ⟨op, lease, k (exec w s a q).2⟩)) := by
  by_cases hs : ∃ c, q = .store c
  · obtain ⟨c, rfl⟩ := hs
    rcases callStore_cases w s.db c a with ⟨r, hr, hr'⟩ | ⟨e, he⟩
    · exact .store _ hi hr hr'
    · simp only [exec, he]
      exact .storeFailed e hi
  by_cases hl : ∃ op', q = .launch op'
  · obtain ⟨op', rfl⟩ := hl
    exact .launch hi
  · have hq : (∀ c, q ≠ .store c) ∧ ∀ op', q ≠ .launch op' := ⟨not_exists.mp hs, not_exists.mp hl⟩
    rw [exec_read hq]
    exact .read hi hq

theorem act_does (w : World) (s : St) (a : Act) : Does w s a (s.act w a) := by
  cases a with
  | call c =>
    simp only [St.act]
    split_ifs with hc
    · exact .skip _
    · have hc : c.fenced = none := by simpa using hc
      rcases after_cases (fun _ => true) (code w.ext c) s.db with h | ⟨r, h⟩
      · rw [h]
        exact .skip _
      · exact .call hc h
  | tick n => exact .tick n
  | claim i zoneId identity lease locked =>
    simp only [St.act]
    cases hi : s.sessions i with
    | some x => exact .skip _
    | none =>
      cases hr : (claimDominator zoneId .provision identity (leaseOrDefault lease) locked).run (fun _ => true) s.db with
      | error e => exact .skip _
      | ok y =>
        refine .claim hi ?_
        simp only [code, bind_eq, run_bind_ok]
        exact ⟨y, hr, rfl⟩
  | renew i =>
    simp only [St.act]
    cases hi : s.sessions i with
    | none => exact .skip _
    | some x =>
      rcases after_cases (fun _ => true) (Capacity.renew x.op x.lease) s.db with h | ⟨r, h⟩
      · simp only [h]
        exact .skip _
      · refine .renew (r := .unit) hi ?_
        simp only [code, bind_eq, run_bind_ok]
        exact ⟨_, h, rfl⟩
  | ask i a =>
    simp only [St.act]
    split
    · rename_i h
      exact ask_does h
    · exact .stop _ i
    · exact .stop _ i
    · exact .skip _
  | crash i => exact .stop _ i

/-! ## Every action keeps the invariant -/

theorem ViewChange.fence_le {d : DB} {c : Call} {r : Reply} {v v' : View} (h : ViewChange d c r v v') :
    v.op.fence ≤ v'.op.fence := by
  cases h with
  | same => exact le_rfl
  | fenced op hc _ hs => exact (hs.fence hc).ge
  | claim op _ _ _ hs => exact hs.claim_fence ▸ Nat.le_succ _
  | decrease g _ _ hs =>
    rcases decrease_outcome hs with (rfl | ⟨rfl, -⟩) | ⟨-, -, rfl | rfl⟩
    · exact le_rfl
    · exact le_rfl
    · exact Nat.le_succ _
    · exact Nat.le_succ _

/-- a call of the session that holds another fence -/
theorem rel_of_fenced {d : DB} {c : Call} {r : Reply} {v v' : View} {op op' : Operation} (h : ViewChange d c r v v')
    (hc : c.fenced = some op') (hne : v.op.id = op'.id → op'.fence ≠ op.fence)
    (hp : past v.host.state → past v'.host.state) : Rel past op v v' := by
  cases h with
  | same => exact ⟨fun hh => ⟨hh, rfl, rfl⟩, .refl _ _⟩
  | fenced op'' hc' hi hs =>
    obtain rfl : op'' = op' := Option.some.inj (hc'.symm.trans hc)
    exact rel_of_step hs hc (hne hi) hp
  | claim => simp [Call.fenced] at hc
  | decrease => simp [Call.fenced] at hc

/-- what a state must keep about the hosts of operations -/
def KeepsPast (past : HostState → Prop) (d d' : DB) : Prop :=
  ∀ v v', d.IsView v → d'.IsView v' → v'.op.id = v.op.id → past v.host.state → past v'.host.state

/-- a session stands on after a call of someone else -/
theorem Standing.commit {ans : Operation → Bool} {c : Call} {r : Reply} {d d' : DB} {cl : Cloud} {x : Session} {v : View}
    (hx : Standing cat past d cl x v) (hrun : (code w.ext c).run ans d = .ok (r, d')) (hw : d.WF)
    (hpast : KeepsPast past d d')
    (hrel : ∀ v', ViewChange d c r v v' → (past v.host.state → past v'.host.state) → Rel past x.op v v') :
    ∃ v', Standing cat past d' cl x v' := by
  obtain ⟨v', hv', hid, hch⟩ := code_view_of hw hrun hx.view
  exact ⟨v', hx.keep hv' (hx.fence.trans hch.fence_le) (hrel v' hch (hpast v v' hx.view hv' hid)) (List.Subset.refl _)⟩

/-- a fenced call that committed was a step of its own operation -/
theorem fenced_view_of {ans : Operation → Bool} {c : Call} {op : Operation} (hc : c.fenced = some op) {d : DB} (hw : d.WF)
    {x : Reply × DB} (h : (code w.ext c).run ans d = .ok x) {v : View} (hv : d.IsView v) (hid : v.op.id = op.id) :
    ∃ v', x.2.IsView v' ∧ v'.op.id = v.op.id ∧ ViewStep d.clock c v v' := by
  obtain ⟨v', hv', hid', -⟩ := code_view_of hw h hv
  obtain ⟨u, hu, hidu, ⟨-, hs⟩ | ⟨hne, -⟩⟩ := (fenced_effect hc hw h).touches v' hv'
  · obtain rfl := hw.view_unique hu hv (hidu.symm.trans hid')
    exact ⟨v', hv', hid', hs⟩
  · exact absurd (hidu.symm.trans (hid'.trans hid)) hne

/-- assembling the invariant after a change of the store, of the cloud and of session `i` -/
theorem inv_set {i : ℕ} {y : Option Session} (hw : s.db.WF)
    (hz : ∀ i, (s.db.zones.find i).map Zone.providerZoneId = (cat.zones.find i).map Zone.providerZoneId)
    (hother : ∀ j x, j ≠ i → s.sessions j = some x → ∃ v, Standing cat past s.db s.cloud x v)
    (hown : ∀ x, y = some x → ∃ v, Standing cat past s.db s.cloud x v)
    (hdist : ∀ j k x z, j ≠ i → k ≠ i → s.sessions j = some x → s.sessions k = some z → j ≠ k → x.op.id = z.op.id →
      x.op.fence ≠ z.op.fence)
    (hnew : ∀ j x z, j ≠ i → s.sessions j = some x → y = some z → x.op.id = z.op.id → x.op.fence ≠ z.op.fence) :
    Inv cat past (s.set i y) where
  wf := hw
  zones := hz
  standing j x hx := by
    simp only [St.set] at hx
    split_ifs at hx with hj
    · exact hown x hx
    · exact hother j x hj hx
  distinct j k x z hx hz hjk hid := by
    simp only [St.set] at hx hz
    split_ifs at hx hz with hj hk hk
    · exact absurd (hj.trans hk.symm) hjk
    · exact (hnew k z x hk hz hx hid.symm).symm
    · exact hnew j x z hj hx hz hid
    · exact hdist j k x z hj hk hx hz hjk hid

/-- the same for a session that goes on with its operation -/
theorem inv_continue (hi : Inv cat past s) (s' : St) (hs' : s'.sessions = s.sessions) {i : ℕ} {op : Operation}
    {lease : Duration} {p p' : Ctl Unit} (hx : s.sessions i = some ⟨op, lease, p⟩) (hw : s'.db.WF)
    (hz : ∀ i, (s'.db.zones.find i).map Zone.providerZoneId = (cat.zones.find i).map Zone.providerZoneId)
    (hother : ∀ j x, j ≠ i → s.sessions j = some x → ∃ v, Standing cat past s'.db s'.cloud x v)
    (hown : ∃ v, Standing cat past s'.db s'.cloud ⟨op, lease, p'⟩ v) :
    Inv cat past (s'.set i (some ⟨op, lease, p'⟩)) := by
  refine inv_set hw hz (fun j x hj hxj => hother j x hj (hs' ▸ hxj)) ?_ ?_ ?_
  · rintro x ⟨⟩
    exact hown
  · intro j k x z _ _ hx hz
    exact hi.distinct j k x z (hs' ▸ hx) (hs' ▸ hz)
  · rintro j x z hj hxj ⟨⟩ hid
    exact hi.distinct j i x ⟨op, lease, p⟩ (hs' ▸ hxj) hx hj hid

theorem query_ok {α : Type} {d : DB} {x : StoreTx α} {a : Answers} {r : α} (h : query d x a = .ok r) :
    ∃ d', x.run (fun _ => a.released) d = .ok (r, d') := by
  unfold query at h
  split at h
  · exact result_ok h
  · simp at h
  · simp at h

/-- a loaded target is the operation with the zone the catalog has for it -/
theorem loadProvisioningTarget_ok {ans : Operation → Bool} {op : Operation} {d : DB} {x : Operation × DB}
    (h : (loadProvisioningTarget op).run ans d = .ok x) :
    SameLease x.1 op ∧ (d.zones.find op.zoneId).map Zone.providerZoneId = some x.1.providerZoneId := by
  simp only [loadProvisioningTarget, bind_eq, run_require_bind] at h
  obtain ⟨-, h⟩ := h
  split at h
  · simp only [run_require_bind, run_select_bind, run_orFail_bind, pure_eq, run_done, Except.ok.injEq] at h
    obtain ⟨-, target, ht, -, -, rfl⟩ := h
    simp only [hydrate, Option.bind_eq_bind, Option.bind_eq_some_iff, Option.filter_eq_some_iff] at ht
    obtain ⟨g, ⟨-, hgz⟩, z, ⟨hz, -⟩, c, -, -, -, ht⟩ := ht
    obtain rfl := Option.some.inj ht
    have hgz : g.zoneId = op.zoneId := by simpa using hgz
    exact ⟨⟨rfl, rfl, rfl, rfl, rfl⟩, by rw [← hgz, hz]; rfl⟩
  · simp [run] at h
  · simp [run] at h

theorem hostOf_ok {ans : Operation → Bool} {id : String} {d : DB} {x : Host × DB} (h : (hostOf id).run ans d = .ok x) :
    d.hosts.find id = some x.1 := by
  simp only [hostOf, bind_eq, run_select_bind, run_orFail] at h
  exact h.1

/-- the answer a session gets to a question that changes nothing is the one its rules promise -/
theorem read_answer (hi : Inv cat past s) {x : Session} {v : View} (hx : Standing cat past s.db s.cloud x v) {q : Request}
    (hq : (∀ c, q ≠ .store c) ∧ ∀ op', q ≠ .launch op')
    (hg : (sessionRules x.op (cat.providerZone x.op.zoneId) past).guard q ⟨Held v x.op, v, s.cloud⟩) (a : Answers) :
    (sessionRules x.op (cat.providerZone x.op.zoneId) past).answer q ⟨Held v x.op, v, s.cloud⟩ (exec w s a q).2
      ⟨Held v x.op, v, s.cloud⟩ := by
  refine ⟨.refl _ _, fun h => h, List.Subset.refl _, ?_⟩
  cases q with
  | store c => exact absurd rfl (hq.1 c)
  | launch op => exact absurd rfl (hq.2 op)
  | load op =>
    obtain rfl : op = x.op := hg
    refine ⟨rfl, fun op' h => ?_⟩
    obtain ⟨d, hrun⟩ := query_ok h
    obtain ⟨hs, hz⟩ := loadProvisioningTarget_ok hrun
    rw [hi.zones] at hz
    exact ⟨hs, by simp [Catalog.providerZone, hz]⟩
  | host id =>
    refine ⟨rfl, fun h hr hid => ?_⟩
    obtain ⟨d, hrun⟩ := query_ok hr
    have hfind := hostOf_ok hrun
    rw [hid, hx.view.host] at hfind
    exact congrArg Host.state (Option.some.inj hfind).symm
  | _ => rfl

/-- a session after its own committed store call -/
theorem Standing.store {ans : Operation → Bool} {c : Call} {r : Reply} {d d' : DB} {cl : Cloud} {op : Operation}
    {lease : Duration} {k : Except Err Reply → Ctl Unit} {v : View}
    (hx : Standing cat past d cl ⟨op, lease, .ask (.store c) k⟩ v) (hrun : (code w.ext c).run ans d = .ok (r, d'))
    (hw : d.WF) (hpast : KeepsPast past d d') (r' : Except Err Reply) :
    ∃ v', Standing cat past d' cl ⟨op, lease, k r'⟩ v' := by
  obtain ⟨⟨⟨op', hc, hs⟩, -⟩, hsafe⟩ := hx.safe.ask
  obtain ⟨v', hv', hid, hstep⟩ := fenced_view_of hc hw hrun hx.view (hx.id.trans hs.id.symm)
  have hl := hstep.later (hpast v v' hx.view hv' hid)
  have hheld := held_of_heldBy (hstep.held hc).1 hs
  have hi := hl.intent
  simp only [OperationRow.intent, Prod.mk.injEq] at hi
  exact ⟨v', hv', hid.trans hx.id, hi.2.2.2.2.2.2.1.trans hx.token, hi.2.1.trans hx.zone,
    hx.fence.trans (hstep.fence hc).ge,
    hsafe r' ⟨Held v' op, v', cl⟩ ⟨hl, fun _ => hheld, List.Subset.refl _, .inl ⟨hheld, _, hstep⟩⟩⟩

/-- a claimed operation is one of the store's, one fence further -/
theorem claimed_row {ans : Operation → Bool} {zoneId identity : String} {duration : Duration} {locked : String → Bool}
    {x : Operation × DB} {d : DB} (hrun : (claimDominator zoneId .provision identity duration locked).run ans d = .ok x) :
    ∃ o, d.operations.find o.id = some o ∧ o.kind = .provision ∧ x.1.id = o.id ∧ x.1.fence = o.fence + 1 := by
  simp only [claimDominator, bind_eq, run_require_bind] at hrun
  obtain ⟨o, hc, -, rfl⟩ := claim_ok hrun.2
  obtain ⟨hf, hk, -⟩ := claimCandidate_spec hc
  exact ⟨o, hf, hk, rfl, rfl⟩

/-- a session that just claimed its operation -/
theorem standing_claim (hp : past .provisioning) {ans : Operation → Bool} {zoneId identity : String}
    {duration lease : Duration} {locked : String → Bool} {op : Operation} {d d' : DB} (cl : Cloud) (hw : d.WF)
    (hrun : (code w.ext (.claimDominator zoneId .provision identity duration locked)).run ans d = .ok (.operation op, d')) :
    (∃ v, Standing cat past d' cl ⟨op, lease, provision op⟩ v) ∧ ∀ u, d.IsView u → u.op.id = op.id →
      u.op.fence < op.fence := by
  have hcode := hrun
  simp only [code, bind_eq, run_bind_ok, pure_eq, run_done, Except.ok.injEq, Prod.mk.injEq, Reply.operation.injEq] at hrun
  obtain ⟨⟨op', d₁⟩, hrun, rfl, rfl⟩ := hrun
  obtain ⟨o, ho, hk, hoi, hof⟩ := claimed_row hrun
  obtain ⟨u, hu, rfl⟩ := hw.exists_view ho hk
  refine ⟨?_, fun u' hu' hid => ?_⟩
  · obtain ⟨v, hv, hid, -⟩ := code_view_of hw hcode hu
    obtain ⟨u', -, hidu, ⟨-, hop, -⟩ | ⟨hne, -⟩⟩ := (claimDominator_effect hrun).2.touches v hv
    · have hop : op' = v.op.toOperation := hop
      subst hop
      refine ⟨v, hv, rfl, rfl, rfl, le_rfl, provision_safe hp ?_⟩
      simp [OperationRow.toOperation, hv.hostId]
    · exact absurd (hidu.symm.trans (hid.trans hoi.symm)) hne
  · obtain rfl := hw.view_unique hu' hu (hid.trans hoi)
    exact (Nat.lt_succ_self _).trans_eq hof.symm

/-- **Every action keeps the invariant**, as long as it keeps what sessions count on. -/
theorem act_inv (hp : past .provisioning) (hi : Inv cat past s) (a : Act) (hpast : KeepsPast past s.db (s.act w a).db) :
    Inv cat past (s.act w a) := by
  have hdoes := act_does w s a
  generalize s.act w a = s' at hdoes hpast
  cases hdoes with
  | skip => exact hi
  | stop _ i =>
    exact inv_set hi.wf hi.zones (fun j x _ => hi.standing j x) (by simp) (fun j k x z _ _ => hi.distinct j k x z)
      (by simp)
  | tick n =>
    refine ⟨hi.wf.tick n, hi.zones, fun i x hx => ?_, hi.distinct⟩
    obtain ⟨v, hv⟩ := hi.standing i x hx
    exact ⟨v, DB.isView_tick.mpr hv.view, hv.id, hv.token, hv.zone, hv.fence, hv.safe⟩
  | call hc hr =>
    refine ⟨code_wf hi.wf hr, fun i => (code_zones hr i).trans (hi.zones i), fun i x hx => ?_, hi.distinct⟩
    obtain ⟨v, hv⟩ := hi.standing i x hx
    exact hv.commit hr hi.wf hpast fun v' hch => rel_of_change hch hc hv.fence
  | claim hn hr =>
    obtain ⟨hnew, hfence⟩ := standing_claim hp s.cloud hi.wf hr
    refine inv_set (code_wf hi.wf hr) (fun i => (code_zones hr i).trans (hi.zones i)) (fun j x _ hx => ?_) ?_
      (fun j k x z _ _ => hi.distinct j k x z) ?_
    · obtain ⟨v, hv⟩ := hi.standing j x hx
      exact hv.commit hr hi.wf hpast fun v' hch => rel_of_change hch rfl hv.fence
    · rintro x ⟨⟩
      exact hnew
    · rintro j x z - hx ⟨⟩ hid
      obtain ⟨v, hv⟩ := hi.standing j x hx
      exact (hv.fence.trans_lt (hfence v hv.view (hv.id.trans hid))).ne
  | @renew i x r d hx hr =>
    refine ⟨code_wf hi.wf hr, fun i => (code_zones hr i).trans (hi.zones i), fun j y hy => ?_, hi.distinct⟩
    obtain ⟨v, hv⟩ := hi.standing j y hy
    refine hv.commit hr hi.wf hpast fun v' hch => ?_
    by_cases hji : j = i
    · obtain rfl : y = x := Option.some.inj (hy.symm.trans (hji ▸ hx))
      cases hch with
      | same => exact fun _ => ⟨fun hh => ⟨hh, rfl, rfl⟩, .refl _ _⟩
      | fenced _ _ _ hs => exact rel_of_renew hs
    · exact rel_of_fenced hch rfl fun hid => (hi.distinct j i y x hy hx hji (hv.id.symm.trans hid)).symm
  | @store i a op lease c k r d r' hx hr =>
    obtain ⟨v, hv⟩ := hi.standing i _ hx
    obtain ⟨⟨⟨op', hc, hs⟩, -⟩, -⟩ := hv.safe.ask
    refine inv_continue hi { s with db := d } rfl hx (code_wf hi.wf hr)
      (fun i => (code_zones hr i).trans (hi.zones i)) (fun j y hj hy => ?_) (hv.store hr hi.wf hpast r')
    obtain ⟨u, hu⟩ := hi.standing j y hy
    refine hu.commit hr hi.wf hpast fun v' hch => rel_of_fenced hch hc fun hid => ?_
    rw [hs.fence]
    exact (hi.distinct j i y _ hy hx hj (hu.id.symm.trans (hid.trans hs.id))).symm
  | @storeFailed i a op lease c k e hx =>
    obtain ⟨v, hv⟩ := hi.standing i _ hx
    obtain ⟨-, hsafe⟩ := hv.safe.ask
    exact inv_continue hi s rfl hx hi.wf hi.zones (fun j y _ => hi.standing j y) ⟨v, hv.view, hv.id, hv.token, hv.zone,
      hv.fence, hsafe (.error e) _ ⟨.refl _ _, fun h => h, List.Subset.refl _, .inr ⟨rfl, e, rfl⟩⟩⟩
  | @launch i a op op' lease k hx =>
    obtain ⟨v, hv⟩ := hi.standing i _ hx
    obtain ⟨-, hsafe⟩ := hv.safe.ask
    obtain ⟨hcl, hres⟩ := launch_spec w.runtime s.cloud op' a.launch
    refine inv_continue hi ⟨s.db, (Provider.launch w.runtime s.cloud op' a.launch).1, s.sessions, _, s.seen⟩ rfl hx hi.wf
      hi.zones (fun j y _ hy => ?_) ⟨v, hv.view, hv.id, hv.token, hv.zone, hv.fence,
      hsafe _ ⟨Held v op, v, (Provider.launch w.runtime s.cloud op' a.launch).1⟩ ⟨.refl _ _, fun h => h, hcl.old, rfl, hres⟩⟩
    obtain ⟨u, hu⟩ := hi.standing j y hy
    exact ⟨u, hu.keep hu.view hu.fence ⟨fun hh => ⟨hh, rfl, rfl⟩, .refl _ _⟩ hcl.old⟩
  | @read i a op lease q k hx hq =>
    obtain ⟨v, hv⟩ := hi.standing i _ hx
    obtain ⟨hg, hsafe⟩ := hv.safe.ask
    exact inv_continue hi s rfl hx hi.wf hi.zones (fun j y _ => hi.standing j y) ⟨v, hv.view, hv.id, hv.token, hv.zone,
      hv.fence, hsafe _ _ (read_answer hi hv hq hg a)⟩

/-! ## What an action does to one operation -/

/-- nothing, one lifecycle step by a session within its guard, or the steps of an accepted decrease -/
inductive Change (cat : Catalog) (s : St) (a : Act) : View → View → Prop
  | same (v : View) : Change cat s a v v
  | step {v v' : View} (c : Call) (hs : ViewStep s.db.clock c v v')
      (hr : ∀ op providerId ip nodeProviderId, c = .recordLaunchWithAddress op providerId ip nodeProviderId →
        v.host.state = .provisioning ∧
          Returned s.cloud v.op.providerToken (cat.providerZone v.op.zoneId) ⟨nodeProviderId, providerId, ip⟩) :
      Change cat s a v v'
  | decrease {v v' : View} (req : CapacityRequest) (u : Uuids) (g : NodeGroup) (ha : a = .call (.setTarget req u))
      (hg : s.db.nodeGroups.find req.nodeGroupId = some g) (hlt : req.desiredTarget < g.targetNodes)
      (hs : Relation.ReflTransGen (DecreaseStep s.db.clock req.nodeGroupId) v v') : Change cat s a v v'

theorem Change.hostId {a : Act} {v v' : View} (h : Change cat s a v v') : v'.host.id = v.host.id := by
  cases h with
  | same => rfl
  | step c hs => exact hs.intent.2.2
  | decrease req u g ha hg hlt hs => exact (decrease_keeps hs).2.2

/-- a call that no session makes -/
theorem change_of_call {a : Act} {c : Call} {r : Reply} {v v' : View} (h : ViewChange s.db c r v v')
    (hc : c.fenced = none) (ha : c.isClaim = true ∨ a = .call c) : Change cat s a v v' := by
  cases h with
  | same => exact .same _
  | fenced op hc' => simp [hc] at hc'
  | claim op _ _ _ hs => exact .step _ hs fun _ _ _ _ e => nomatch e
  | decrease g hg hlt hs => exact .decrease _ _ g (ha.resolve_left (by simp [Call.isClaim])) hg hlt hs

/-- a call of a session -/
theorem change_of_fenced {a : Act} {c : Call} {op : Operation} {r : Reply} {v v' : View} (h : ViewChange s.db c r v v')
    (hc : c.fenced = some op)
    (hr : v.op.id = op.id → v.op.heldBy op s.db.clock = true → ∀ op' providerId ip nodeProviderId,
      c = .recordLaunchWithAddress op' providerId ip nodeProviderId → v.host.state = .provisioning ∧
        Returned s.cloud v.op.providerToken (cat.providerZone v.op.zoneId) ⟨nodeProviderId, providerId, ip⟩) :
    Change cat s a v v' := by
  cases h with
  | same => exact .same _
  | fenced op' hc' hi hs =>
    obtain rfl : op' = op := Option.some.inj (hc'.symm.trans hc)
    exact .step c hs (hr hi (hs.held hc).1)
  | claim => simp [Call.fenced] at hc
  | decrease => simp [Call.fenced] at hc

/-- an action lets time pass at most, or commits one call, whose effect on operations is a `Change` -/
theorem act_commit (hi : Inv cat past s) (a : Act) : (∃ n, (s.act w a).db = s.db.tick n) ∨
    ∃ (c : Call) (r : Reply) (ans : Operation → Bool), (code w.ext c).run ans s.db = .ok (r, (s.act w a).db) ∧
      (a = .call c ∨ c.isClaim = true ∨ c.fenced.isSome = true) ∧
      ∀ v v', s.db.IsView v → ViewChange s.db c r v v' → Change cat s a v v' := by
  have hdoes := act_does w s a
  generalize s.act w a = s' at hdoes
  cases hdoes with
  | skip => exact .inl ⟨0, rfl⟩
  | stop => exact .inl ⟨0, rfl⟩
  | tick n => exact .inl ⟨n, rfl⟩
  | call hc hr => exact .inr ⟨_, _, _, hr, .inl rfl, fun v v' _ h => change_of_call h hc (.inr rfl)⟩
  | claim _ hr => exact .inr ⟨_, _, _, hr, .inr (.inl rfl), fun v v' _ h => change_of_call h rfl (.inl rfl)⟩
  | renew _ hr =>
    exact .inr ⟨_, _, _, hr, .inr (.inr rfl), fun v v' _ h => change_of_fenced h rfl fun _ _ _ _ _ _ e => nomatch e⟩
  | @store i a op lease c k r d r' hx hr =>
    obtain ⟨u, hu⟩ := hi.standing i _ hx
    obtain ⟨⟨⟨op', hc, hs⟩, hrec⟩, -⟩ := hu.safe.ask
    refine .inr ⟨_, _, _, hr, .inr (.inr (by simp [hc])), fun v v' hv h => ?_⟩
    refine change_of_fenced h hc fun hid hheld op'' p ip np e => ?_
    obtain rfl : u = v := hi.wf.view_unique hu.view hv (hu.id.trans (hs.id.symm.trans hid.symm))
    obtain ⟨hst, hret⟩ := hrec op'' p ip np e
    rw [hu.token, hu.zone]
    exact ⟨hst (held_of_heldBy hheld hs), hret⟩
  | storeFailed => exact .inl ⟨0, rfl⟩
  | launch => exact .inl ⟨0, rfl⟩
  | read => exact .inl ⟨0, rfl⟩

/-- **What an action can do to one operation**, seen from the state after it. -/
theorem act_view (hi : Inv cat past s) {a : Act} {v' : View} (hv' : (s.act w a).db.IsView v') :
    (s.db.operations.find v'.op.id = none ∧ v'.Initial) ∨
      ∃ v, s.db.IsView v ∧ v'.op.id = v.op.id ∧ Change cat s a v v' := by
  rcases act_commit hi a with ⟨n, hn⟩ | ⟨c, r, ans, hrun, -, hch⟩
  · exact .inr ⟨v', DB.isView_tick.mp (hn ▸ hv'), rfl, .same v'⟩
  · rcases code_view hi.wf hrun hv' with hn | ⟨v, hv, hid, h⟩
    · exact .inl hn
    · exact .inr ⟨v, hv, hid, hch v v' hv h⟩

/-- the same seen from the state before it: no operation disappears -/
theorem act_view_of (hi : Inv cat past s) {a : Act} {v : View} (hv : s.db.IsView v) :
    ∃ v', (s.act w a).db.IsView v' ∧ v'.op.id = v.op.id ∧ Change cat s a v v' := by
  rcases act_commit hi a with ⟨n, hn⟩ | ⟨c, r, ans, hrun, -, hch⟩
  · exact ⟨v, hn ▸ DB.isView_tick.mpr hv, rfl, .same v⟩
  · obtain ⟨v', hv', hid, h⟩ := code_view_of hi.wf hrun hv
    exact ⟨v', hv', hid, hch v v' hv h⟩

/-- the same between the two states of one operation -/
theorem act_change (hi : Inv cat past s) {a : Act} {v v' : View} (hv : s.db.IsView v) (hv' : (s.act w a).db.IsView v')
    (hid : v'.op.id = v.op.id) : Change cat s a v v' := by
  rcases act_view hi hv' with ⟨hn, -⟩ | ⟨u, hu, hidu, hc⟩
  · rw [hid, hv.op] at hn
    simp at hn
  · obtain rfl := hi.wf.view_unique hu hv (hidu.symm.trans hid)
    exact hc

/-- operations are never deleted and keep what they were admitted with -/
theorem act_op (hi : Inv cat past s) {a : Act} {j : String} {o : OperationRow} (ho : s.db.operations.find j = some o) :
    ∃ o', (s.act w a).db.operations.find j = some o' ∧ o'.intent = o.intent := by
  rcases act_commit hi a with ⟨n, hn⟩ | ⟨c, r, ans, hrun, -, -⟩
  · exact ⟨o, hn ▸ ho, rfl⟩
  · exact code_op hi.wf hrun ho

/-- a provider call is made by a session that stands past `past` -/
theorem act_issued (hi : Inv cat past s) {a : Act} {j : String} (hj : j ∈ (s.act w a).issued) :
    j ∈ s.issued ∨ ∃ v, (s.act w a).db.IsView v ∧ v.op.id = j ∧ past v.host.state := by
  have hdoes := act_does w s a
  generalize s.act w a = s' at hdoes hj
  cases hdoes with
  | @launch i a op op' lease k hx =>
    obtain ⟨v, hv⟩ := hi.standing i _ hx
    obtain ⟨⟨hs, -, hp, -⟩, -⟩ := hv.safe.ask
    simp only [St.set] at hj
    split_ifs at hj
    · rcases List.mem_cons.mp hj with rfl | hj
      · exact .inr ⟨v, hv.view, hv.id.trans hs.id.symm, hp⟩
      · exact .inl hj
    · exact .inl hj
  | _ => exact .inl hj

/-- an instance is created only for an operation of the store, with its token and in its zone -/
theorem act_cloud (hi : Inv cat past s) (a : Act) : (s.act w a).cloud = s.cloud ∨
    (s.act w a).db = s.db ∧ ∃ op v, s.db.IsView v ∧ v.op.id = op.id ∧ v.op.providerToken = op.providerToken ∧
      op.providerZoneId = cat.providerZone v.op.zoneId ∧ Launched s.cloud (s.act w a).cloud op := by
  have hdoes := act_does w s a
  generalize s.act w a = s' at hdoes
  cases hdoes with
  | @launch i a op op' lease k hx =>
    obtain ⟨v, hv⟩ := hi.standing i _ hx
    obtain ⟨⟨hs, hz, -⟩, -⟩ := hv.safe.ask
    exact .inr ⟨rfl, op', v, hv.view, hv.id.trans hs.id.symm, hv.token.trans hs.token.symm, by rw [hz, hv.zone],
      (launch_spec w.runtime s.cloud op' a.launch).1⟩
  | _ => exact .inl rfl

end Step

/-! ## Runs -/

theorem Inv.observe {cat : Catalog} {past : HostState → Prop} {s : St} (h : Inv cat past s) : Inv cat past s.observe :=
  ⟨h.wf, h.zones, h.standing, h.distinct⟩

/-- every action of the run is taken in a state that meets the condition -/
def AllSteps (w : World) (P : St → Act → Prop) : St → List Act → Prop
  | _, [] => True
  | s, a :: acts => P s a ∧ AllSteps w P (s.step w a) acts

instance AllSteps.decidable (w : World) (P : St → Act → Prop) [∀ s a, Decidable (P s a)] :
    (s : St) → (acts : List Act) → Decidable (AllSteps w P s acts)
  | _, [] => .isTrue trivial
  | s, a :: acts => have := AllSteps.decidable w P (s.step w a) acts; inferInstanceAs (Decidable (_ ∧ _))

/-- what every step keeps holds along the run -/
theorem run_induction {w : World} {P : St → Act → Prop} {I : St → Prop}
    (hstep : ∀ s a, P s a → I s → I (s.step w a)) {s : St} {acts : List Act} (hP : AllSteps w P s acts) (hs : I s) :
    I (s.run w acts) := by
  induction acts generalizing s with
  | nil => exact hs
  | cons a acts ih => exact ih hP.2 (hstep s a hP.1 hs)

theorem allSteps_true (w : World) (s : St) (acts : List Act) : AllSteps w (fun _ _ => True) s acts := by
  induction acts generalizing s with
  | nil => trivial
  | cons a acts ih => exact ⟨trivial, ih _⟩

theorem run_append (w : World) (s : St) (acts acts' : List Act) : s.run w (acts ++ acts') = (s.run w acts).run w acts' :=
  List.foldl_append

/-! ## A small fleet

One zone, one cluster, one pool and one empty group, whose dominator is `dom`; the results below are shown on its runs. -/

namespace Fleet

def world : World := ⟨externals, ⟨"r", "td"⟩⟩

def retarget (number : String) (revision target : ℤ) : Act := .call (retargeting number revision target)

def claim : Act := .claim 0 "z" "dom" 0 fun _ => false

/-- a launch the provider accepts -/
def launch (lost : Bool) : Act := .ask 0 { launch :=
  { facts := ⟨some [("CraneImage", "v2"), ("SpireServerAddress", "spire"), ("SpireTrustDomain", "td"),
      ("SpireBundleParameter", "/crane/dep/spire-bundle"), ("AWSRegion", "r")], some [("r-a", "vpc")], some ["vpc"]⟩
    id := "i-1", ip := ⟨"10.0.0.1", true⟩, lost := lost } }

/-- the controller claims the operation of the group's first host and launches it -/
def launched (lost : Bool) : List Act :=
  [retarget "r1" 0 1, claim, .ask 0 {}, .ask 0 {}, .ask 0 {}, .ask 0 {}, launch lost]

/-- what has become of the fleet -/
abbrev after (acts : List Act) : St := (St.init catalog).run world acts

end Fleet

end Crane.Capacity
