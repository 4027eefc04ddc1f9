/-
What a controller knows while it works.

A session sees the operation it claimed, its host and its reservation, and the provider. As long as it holds the lease
nobody else changes the states it has read (`Frame`); once it has lost the lease it never gets it back and its calls no
longer take effect. Under these rules every request a round of the controller makes is safe (`provision_safe`): it
calls the provider only past the REQUESTED state, and it records a launch only on a PROVISIONING host and only what the
provider returned for the operation's token.
-/
import Crane.Capacity.Controller
import Crane.Capacity.Effects

namespace Crane.Capacity

open Provider

/-! ## The rules of a session -/

/-- the copies agree in everything that identifies operation, owner and fence -/
structure SameLease (op op' : Operation) : Prop where
  id : op.id = op'.id
  hostId : op.hostId = op'.hostId
  token : op.providerToken = op'.providerToken
  owner : op.leaseOwner = op'.leaseOwner
  fence : op.fence = op'.fence

/-- `op` is the current lease of the view, whether or not it has run out -/
def Held (v : View) (op : Operation) : Prop :=
  v.op.fence = op.fence ∧ ∃ l, v.op.lease = some l ∧ l.owner = op.leaseOwner

theorem held_of_heldBy {v : View} {op op' : Operation} {now : ℕ} (h : v.op.heldBy op now = true) (hs : SameLease op op') :
    Held v op' := by
  simp only [OperationRow.heldBy, Bool.and_eq_true, decide_eq_true_eq, Option.any_eq_true] at h
  obtain ⟨hf, l, hl, ho, -⟩ := h
  exact ⟨hf.trans hs.fence, l, hl, ho.trans hs.owner⟩

/-- others do not change these states while the lease is held -/
structure Frame (v v' : View) : Prop where
  op : v'.op.state = v.op.state
  host : v'.host.state = v.host.state

/-- what holds of a view at any later time -/
structure Later (past : HostState → Prop) (v v' : View) : Prop where
  id : v'.op.id = v.op.id
  intent : v'.op.intent = v.op.intent
  host : v'.host.id = v.host.id
  past : past v.host.state → past v'.host.state

theorem Later.refl (past : HostState → Prop) (v : View) : Later past v v := ⟨rfl, rfl, rfl, fun h => h⟩

theorem Later.trans {past : HostState → Prop} {u v w : View} (h : Later past u v) (h' : Later past v w) :
    Later past u w :=
  ⟨h'.id.trans h.id, h'.intent.trans h.intent, h'.host.trans h.host, fun hp => h'.past (h.past hp)⟩

/-- what a session sees -/
structure Snap where
  held : Prop
  view : View
  cloud : Cloud

/-- a result the provider returned for the client token -/
def Returned (c : Cloud) (token zone : String) (r : ProvisionResult) : Prop :=
  ∃ i ∈ c, i.input.clientToken = token ∧ i.id ≠ "" ∧ r = ⟨kubernetesProviderId zone i.id, i.id, i.privateIp⟩

/-- a fenced call of the session; a launch is recorded only on a PROVISIONING host, as the provider returned it -/
def StoreGuard (op : Operation) (zone : String) (c : Call) (s : Snap) : Prop :=
  (∃ op', c.fenced = some op' ∧ SameLease op' op) ∧
    ∀ op' providerId ip nodeProviderId, c = .recordLaunchWithAddress op' providerId ip nodeProviderId →
      (s.held → s.view.host.state = .provisioning) ∧ Returned s.cloud op.providerToken zone ⟨nodeProviderId, providerId, ip⟩

/-- `past` is what a session may still count on about the host after it lost the lease -/
def sessionRules (op : Operation) (zone : String) (past : HostState → Prop) : Rules Request Request.Answer Snap where
  rely s t := (t.held → s.held ∧ Frame s.view t.view) ∧ Later past s.view t.view ∧ s.cloud ⊆ t.cloud
  refl _ := ⟨fun h => ⟨h, rfl, rfl⟩, .refl _ _, List.Subset.refl _⟩
  trans h h' := ⟨fun hu => ⟨(h.1 (h'.1 hu).1).1, (h'.1 hu).2.op.trans (h.1 (h'.1 hu).1).2.op,
    (h'.1 hu).2.host.trans (h.1 (h'.1 hu).1).2.host⟩, h.2.1.trans h'.2.1, List.Subset.trans h.2.2 h'.2.2⟩
  guard q s := match q with
    | .store c => StoreGuard op zone c s
    | .load op' => op' = op
    | .launch op' => SameLease op' op ∧ op'.providerZoneId = zone ∧ past s.view.host.state ∧
        (s.held → s.view.op.state = .launching ∧ s.view.host.state = .provisioning)
    | _ => True
  answer q s r t := Later past s.view t.view ∧ (t.held → s.held) ∧ s.cloud ⊆ t.cloud ∧ match q with
    | .store c => (s.held ∧ ∃ now, ViewStep now c s.view t.view) ∨ (t.view = s.view ∧ ∃ e, r = .error e)
    | .load _ => t.view = s.view ∧ ∀ op', r = .ok op' → SameLease op' op ∧ op'.providerZoneId = zone
    | .host id => t.view = s.view ∧ ∀ h, r = .ok h → id = s.view.host.id → h.state = s.view.host.state
    | .launch op' => t.view = s.view ∧ ∀ res, r = some res → Returned t.cloud op'.providerToken op'.providerZoneId res
    | _ => t.view = s.view

/-! ## Safety of a round -/

section Round
variable {op : Operation} {zone : String} {past : HostState → Prop}

def Call.recordsLaunch : Call → Bool
  | .recordLaunchWithAddress _ _ _ _ => true
  | _ => false

/-- requests that need nothing of the state -/
def Plain (op : Operation) : Request → Prop
  | .store c => (∃ op', c.fenced = some op' ∧ SameLease op' op) ∧ c.recordsLaunch = false
  | .load _ | .launch _ => False
  | _ => True

theorem safe_of_plain {α : Type} {p : Ctl α} (hp : p.Asks (Plain op)) (s : Snap) :
    Safe (sessionRules op zone past) p s := by
  refine safe_of_asks (fun q t hq => ?_) hp s
  cases q with
  | store c =>
    refine ⟨hq.1, fun _ _ _ _ e => ?_⟩
    have := hq.2
    rw [e] at this
    simp [Call.recordsLaunch] at this
  | load op' => exact hq.elim
  | launch op' => exact hq.elim
  | _ => trivial

variable {op' : Operation}

/-- a fenced call of the session, other than the record of a launch -/
theorem asks_store (hs : SameLease op' op) {c : Call} (hc : c.fenced = some op') (hr : c.recordsLaunch = false) :
    (store c).Asks (Plain op) := by
  refine ⟨⟨⟨op', hc, hs⟩, hr⟩, fun r => ?_⟩
  cases r <;> trivial

theorem asks_release (hs : SameLease op' op) :
    ((store (.releaseProvisionLease op')).bind fun _ => .ret ()).Asks (Plain op) :=
  Prog.asks_bind (asks_store hs rfl rfl) fun _ => trivial

theorem asks_retryable (hs : SameLease op' op) (category : String) : (retryable op' category).Asks (Plain op) :=
  Prog.asks_bind (asks_store hs rfl rfl) fun _ => Prog.asks_bind (asks_store hs rfl rfl) fun _ => trivial

theorem asks_deliver (hs : SameLease op' op) (h : Host) : (deliverExpectedState op' h).Asks (Plain op) := by
  refine ⟨trivial, fun b => ?_⟩
  cases b with
  | error e => trivial
  | ok b =>
    change ((expectedRequest op' h b).bind _).Asks _
    refine Prog.asks_bind ?_ fun e => ?_
    · unfold expectedRequest
      cases b.expectedState with
      | some e => trivial
      | none => exact ⟨trivial, fun _ => trivial⟩
    · cases e with
      | none => trivial
      | some e =>
        refine ⟨⟨⟨op', rfl, hs⟩, rfl⟩, fun r => ?_⟩
        rcases r with _ | (_ | _ | _ | _ | _) <;> first | trivial | exact ⟨trivial, fun _ => trivial⟩

theorem asks_enrollAndJoin (hs : SameLease op' op) (h : Host) : (enrollAndJoin op' h).Asks (Plain op) := by
  refine ⟨trivial, fun b => ?_⟩
  cases b with
  | false => trivial
  | true =>
    refine ⟨trivial, fun n => ?_⟩
    cases n with
    | none => trivial
    | some n =>
      refine ⟨⟨⟨op', rfl, hs⟩, rfl⟩, fun r => ?_⟩
      cases r with
      | error e => trivial
      | ok _ =>
        refine ⟨trivial, fun b => ?_⟩
        cases b with
        | false => trivial
        | true => exact asks_deliver hs h

theorem asks_enrollmentStage (hs : SameLease op' op) (h : Host) : (enrollmentStage op' h).Asks (Plain op) := by
  refine Prog.asks_bind (asks_enrollAndJoin hs h) fun b => ?_
  cases b with
  | false => exact asks_retryable hs _
  | true => exact Prog.asks_bind (asks_store hs rfl rfl) fun _ => asks_release hs

theorem asks_readinessStage (hs : SameLease op' op) (h : Host) : (readinessStage op' h).Asks (Plain op) := by
  refine ⟨trivial, fun r => ?_⟩
  rcases r with _ | _ | _
  · exact asks_retryable hs _
  · exact asks_release hs
  · change ((store (.prepareProvisionRelease op' h.desiredStateVersion)).bind _).Asks _
    refine Prog.asks_bind (asks_store hs rfl rfl) fun _ => ⟨⟨⟨op', rfl, hs⟩, rfl⟩, fun r => ?_⟩
    cases r with
    | error e => exact asks_retryable hs _
    | ok _ => trivial

/-- the rule for a store call of the session whose error ends the round -/
theorem safe_store_bind {α : Type} {c : Call} {f : Reply → Ctl α} {s : Snap} (hs : SameLease op' op)
    (hc : c.fenced = some op')
    (hr : ∀ t, (sessionRules op zone past).rely s t → ∀ op' p ip np, c = .recordLaunchWithAddress op' p ip np →
      (t.held → t.view.host.state = .provisioning) ∧ Returned t.cloud op.providerToken zone ⟨np, p, ip⟩)
    (hf : ∀ t, (sessionRules op zone past).rely s t → t.held → ∀ r u now, ViewStep now c t.view u.view →
      Later past t.view u.view → t.cloud ⊆ u.cloud → Safe (sessionRules op zone past) (f r) u) :
    Safe (sessionRules op zone past) ((store c).bind f) s := by
  intro t ht
  refine ⟨⟨⟨op', hc, hs⟩, hr t ht⟩, fun r u hu => ?_⟩
  obtain ⟨hl, -, hcl, ⟨hheld, now, hstep⟩ | ⟨-, e, rfl⟩⟩ := hu
  · cases r with
    | error e => trivial
    | ok r => exact hf t ht hheld r u now hstep hl hcl
  · trivial

/-- the launch itself and what follows it, on a host that was PROVISIONING with the operation launching -/
theorem safe_launch (hs : SameLease op' op) (hz : op'.providerZoneId = zone) {s : Snap} (hp : past s.view.host.state)
    (ho : s.view.op.state = .launching) (hh : s.view.host.state = .provisioning) :
    Safe (sessionRules op zone past) (do
      match ← ask (.launch op') with
      | none => retryable op' "provider_launch"
      | some r =>
        let _ ← store (.recordLaunchWithAddress op' r.providerId r.privateIp r.kubernetesProviderId)
        let _ ← store (.releaseProvisionLease op')) s := by
  intro t ht
  have hframe : t.held → t.view.op.state = .launching ∧ t.view.host.state = .provisioning := fun h =>
    ⟨(ht.1 h).2.op.trans ho, (ht.1 h).2.host.trans hh⟩
  refine ⟨⟨hs, hz, ht.2.1.past hp, hframe⟩, fun r u hu => ?_⟩
  obtain ⟨-, hheld, -, hview, hres⟩ := hu
  cases r with
  | none => exact safe_of_plain (asks_retryable hs _) u
  | some r =>
    obtain ⟨i, hi, htok, hne, rfl⟩ := hres r rfl
    refine safe_store_bind hs rfl (fun v hv op'' p ip np e => ?_) fun v _ _ _ x _ _ _ _ => safe_of_plain (asks_release hs) x
    obtain ⟨rfl, rfl, rfl, rfl⟩ := Call.recordLaunchWithAddress.inj e
    refine ⟨fun h => ?_, i, hv.2.2 hi, htok.trans hs.token, hne, by rw [hz]⟩
    rw [(hv.1 h).2.host, hview]
    exact (hframe (hheld (hv.1 h).1)).2

theorem ViewStep.beginLaunch_eq {now : ℕ} {op : Operation} {v v' : View} (h : ViewStep now (.beginLaunch op) v v') :
    v'.op.state = .launching ∧ v'.host = v.host := by
  cases h
  exact ⟨rfl, rfl⟩

theorem ViewStep.setState_eq {now : ℕ} {op : Operation} {e n : HostState} {v v' : View}
    (h : ViewStep now (.setProvisionState op e n) v v') : v'.op.state = .launching ∧ v'.host.state = n := by
  cases h
  exact ⟨‹_›, rfl⟩

theorem safe_launchStage (hs : SameLease op' op) (hz : op'.providerZoneId = zone) (hp : past .provisioning) {h : Host}
    (hh : h.state = .requested ∨ h.state = .provisioning) {s : Snap} (hread : s.held → s.view.host.state = h.state) :
    Safe (sessionRules op zone past) (launchStage op' h) s := by
  refine safe_store_bind hs rfl (fun _ _ _ _ _ _ e => nomatch e) fun t ht hheld _ u now hstep _ _ => ?_
  -- the lease was held at BeginLaunch, so the host is as it was read
  have hhost : t.view.host.state = h.state := (ht.1 hheld).2.host.trans (hread (ht.1 hheld).1)
  obtain ⟨hl, hu⟩ := hstep.beginLaunch_eq
  rcases hh with hreq | hprov
  · rw [if_pos hreq]
    refine safe_store_bind hs rfl (fun _ _ _ _ _ _ e => nomatch e) fun t' _ _ _ u' _ hstep' _ _ => ?_
    obtain ⟨hl', hst⟩ := hstep'.setState_eq
    exact safe_launch hs hz (hst ▸ hp) hl' hst
  · rw [if_neg (by simp [hprov])]
    have hst : u.view.host.state = .provisioning := by rw [hu, hhost, hprov]
    exact safe_launch hs hz (hst ▸ hp) hl hst

theorem safe_advance (hs : SameLease op' op) (hz : op'.providerZoneId = zone) (hp : past .provisioning) {s : Snap}
    (hid : s.view.host.id = op.hostId) : Safe (sessionRules op zone past) (advance op') s := by
  intro t ht
  refine ⟨trivial, fun r u hu => ?_⟩
  obtain ⟨-, -, -, hview, hread⟩ := hu
  cases r with
  | error e => trivial
  | ok h =>
    have hst : u.held → u.view.host.state = h.state := fun _ => by
      rw [hview]
      exact (hread h rfl (by rw [ht.2.1.host, hid, hs.hostId])).symm
    simp only [Prog.ret_bind]
    cases hh : h.state with
    | requested => exact safe_launchStage hs hz hp (.inl hh) hst
    | provisioning => exact safe_launchStage hs hz hp (.inr hh) hst
    | booting =>
      exact safe_of_plain (Prog.asks_bind (asks_store hs rfl rfl) fun _ => asks_enrollmentStage hs h) u
    | registering => exact safe_of_plain (asks_enrollmentStage hs h) u
    | converging => exact safe_of_plain (asks_readinessStage hs h) u
    | ready => exact safe_of_plain (Prog.asks_bind (f := fun _ => .ret ()) (asks_store hs rfl rfl) fun _ => trivial) u
    | draining => trivial
    | terminating => trivial
    | terminated => trivial
    | failed => trivial
    | unhealthy => trivial

/-- **A round of the controller is safe**, from any state in which it claimed the operation. -/
theorem provision_safe (hp : past .provisioning) {s : Snap} (hid : s.view.host.id = op.hostId) :
    Safe (sessionRules op zone past) (provision op) s := by
  intro t ht
  refine ⟨rfl, fun r u hu => ?_⟩
  obtain ⟨-, -, -, hview, hload⟩ := hu
  cases r with
  | error e => trivial
  | ok op' =>
    obtain ⟨hs, hz⟩ := hload op' rfl
    exact safe_advance hs hz hp (by rw [hview, ht.2.1.host, hid])

end Round

end Crane.Capacity
