/-
One provision operation yields at most one machine.

The provider creates one instance per client token; the store gives every operation its own token and never changes it;
and a controller records only what the provider returned for the token of its operation. So instances, operations and
recorded provider IDs match one to one, whatever crashes, lost answers and retries there are.
-/
import Crane.Capacity.Agreement

namespace Crane.Capacity

open Provider

/-! ## Instances and operations -/

/-- the operation an instance is tagged with -/
def operationOf (i : Instance) : Option String := i.input.tags.lookup "CraneOperationID"

theorem operationOf_isFor {i : Instance} {op : Operation} (h : i.input.IsFor op) : operationOf i = some op.id := by
  obtain ⟨deployment, ht⟩ := h.tags
  simp [operationOf, ht, launchTags, List.lookup]

theorem kubernetesProviderId_ne_empty (zone id : String) : kubernetesProviderId zone id ≠ "" := by
  intro h
  have := congrArg String.length h
  simp [kubernetesProviderId] at this

/-- what the host says about its instance: nothing, or the identity of the operation's instance -/
def Recorded (c : Cloud) (v : View) : Prop :=
  (v.host.providerId = none ∧ v.host.kubernetesProviderId = "") ∨
    ∃ i ∈ c, operationOf i = some v.op.id ∧ v.host.providerId = some i.id ∧
      v.host.kubernetesProviderId = kubernetesProviderId i.zone i.id

theorem Recorded.mono {c c' : Cloud} {v v' : View} (h : Recorded c v) (hc : c ⊆ c') (hid : v'.op.id = v.op.id)
    (hp : v'.host.providerId = v.host.providerId) (hk : v'.host.kubernetesProviderId = v.host.kubernetesProviderId) :
    Recorded c' v' := by
  rw [Recorded, hid, hp, hk]
  exact h.imp id fun ⟨i, hi, h⟩ => ⟨i, hc hi, h⟩

theorem Change.keeps {cat : Catalog} {s : St} {a : Act} {v v' : View} (h : Change cat s a v v') :
    v'.op.intent = v.op.intent ∧ v'.op.id = v.op.id := by
  cases h with
  | same => exact ⟨rfl, rfl⟩
  | step c hs => exact ⟨hs.intent.1, hs.intent.2.1⟩
  | decrease req u g ha hg hlt hs => exact ⟨(decrease_keeps hs).2.1, (decrease_keeps hs).1⟩

/-- a change leaves the recorded identity alone, or records what the provider returned on a host without one -/
theorem Change.identity {cat : Catalog} {s : St} {a : Act} {v v' : View} (h : Change cat s a v v') :
    (v'.host.providerId = v.host.providerId ∧ v'.host.kubernetesProviderId = v.host.kubernetesProviderId) ∨
      (v.host.state = .provisioning ∧ ∃ i ∈ s.cloud, i.input.clientToken = v.op.providerToken ∧
        v'.host.providerId = some i.id ∧
        v'.host.kubernetesProviderId = kubernetesProviderId (cat.providerZone v.op.zoneId) i.id) := by
  cases h with
  | same => exact .inl ⟨rfl, rfl⟩
  | step c hs hr =>
    cases hs with
    | recordLaunch _ op p ip np z endpoint host hh hl hp hrec =>
      obtain ⟨hst, i, hi, htok, hne, he⟩ := hr op p ip np rfl
      obtain ⟨rfl, rfl, rfl⟩ := ProvisionResult.mk.inj he
      have hspec := Host.launchedAs_spec hrec
      refine .inr ⟨hst, i, hi, htok, hspec.providerId, ?_⟩
      rw [hspec.kubernetesProviderId, if_neg (kubernetesProviderId_ne_empty _ _)]
    | _ => exact .inl ⟨rfl, rfl⟩
  | decrease req u g ha hg hlt hs =>
    rcases decrease_outcome hs with (rfl | ⟨rfl, -⟩) | ⟨-, -, rfl | rfl⟩ <;> exact .inl ⟨rfl, rfl⟩

/-! ## The invariant -/

structure Machines (cat : Catalog) (s : St) : Prop where
  agreement : Agreement cat s
  owner : ∀ i ∈ s.cloud, ∃ v, s.db.IsView v ∧ operationOf i = some v.op.id ∧
    i.input.clientToken = v.op.providerToken ∧ i.zone = cat.providerZone v.op.zoneId
  token : ∀ i ∈ s.cloud, ∀ j ∈ s.cloud, i.input.clientToken = j.input.clientToken → i = j
  ids : ∀ i ∈ s.cloud, ∀ j ∈ s.cloud, i.id = j.id → i = j
  recorded : ∀ v, s.db.IsView v → Recorded s.cloud v

theorem machines_init (cat : Catalog) : Machines cat (St.init cat) where
  agreement := agreement_init cat
  owner _ h := by simp [St.init] at h
  token _ h := by simp [St.init] at h
  ids _ h := by simp [St.init] at h
  recorded v hv := absurd hv (cat.not_isView v)

/-- an instance of the cloud that carries the token of an operation is tagged with it and lies in its zone -/
theorem Machines.of_token {cat : Catalog} {s : St} (h : Machines cat s) {i : Instance} (hi : i ∈ s.cloud) {v : View}
    (hv : s.db.IsView v) (ht : i.input.clientToken = v.op.providerToken) :
    operationOf i = some v.op.id ∧ i.zone = cat.providerZone v.op.zoneId := by
  obtain ⟨u, hu, hop, htok, hz⟩ := h.owner i hi
  have hid : u.op.id = v.op.id := h.agreement.inv.wf.token _ _ _ _ hu.op hv.op (htok.symm.trans ht)
  obtain rfl := h.agreement.inv.wf.view_unique hu hv hid
  exact ⟨hop, hz⟩

/-- **What is recorded never changes.** -/
theorem Machines.pinned {w : World} {cat : Catalog} {s : St} (h : Machines cat s) {a : Act} {v v' : View} (hv : s.db.IsView v)
    (hv' : (s.act w a).db.IsView v') (hid : v'.op.id = v.op.id) (hp : v.host.providerId ≠ none) :
    v'.host.providerId = v.host.providerId ∧ v'.host.kubernetesProviderId = v.host.kubernetesProviderId := by
  rcases (act_change h.agreement.inv hv hv' hid).identity with h' | ⟨hst, -⟩
  · exact h'
  · cases h.agreement.agrees v hv with
    | waiting _ _ _ hn => exact absurd hn hp
    | launched hs => simp [hst, HostState.launched] at hs
    | ready hs => simp [hst] at hs
    | cancelled hs => simp [hst] at hs

/-- an instance after an action is an old one, or the only new one, of an operation that had none -/
theorem act_instance {w : World} {cat : Catalog} {past : HostState → Prop} {s : St} (hi : Inv cat past s) {a : Act}
    {i : Instance} (hmem : i ∈ (s.act w a).cloud) : i ∈ s.cloud ∨ (s.act w a).cloud = s.cloud ++ [i] ∧
      i.id ∉ s.cloud.map Instance.id ∧ (∀ j ∈ s.cloud, j.input.clientToken ≠ i.input.clientToken) ∧
      ∃ v, (s.act w a).db.IsView v ∧ operationOf i = some v.op.id ∧ i.input.clientToken = v.op.providerToken ∧
        i.zone = cat.providerZone v.op.zoneId := by
  rcases act_cloud (w := w) hi a with hc | ⟨hdb, op, v, hv, hid, htok, hz, hl⟩
  · exact .inl (hc ▸ hmem)
  · rcases hl.new i hmem with hold | ⟨hfor, hzone, hnew, hother, happ⟩
    · exact .inl hold
    · exact .inr ⟨happ, hnew, hother, v, hdb ▸ hv, hid ▸ operationOf_isFor hfor, hfor.token.trans htok.symm,
        hzone.trans hz⟩

/-- what tells the instances of the cloud apart still does after an action -/
theorem act_injective {w : World} {cat : Catalog} {past : HostState → Prop} {s : St} (hi : Inv cat past s) {a : Act}
    {f : Instance → String} (hf : ∀ i ∈ s.cloud, ∀ j ∈ s.cloud, f i = f j → i = j)
    (hnew : ∀ i, i.id ∉ s.cloud.map Instance.id → (∀ j ∈ s.cloud, j.input.clientToken ≠ i.input.clientToken) →
      ∀ j ∈ s.cloud, f j ≠ f i) :
    ∀ i ∈ (s.act w a).cloud, ∀ j ∈ (s.act w a).cloud, f i = f j → i = j := by
  intro i hmem j hmem' heq
  rcases act_instance hi hmem with hold | ⟨happ, hid, htok, -⟩
  · rcases act_instance hi hmem' with hold' | ⟨-, hid, htok, -⟩
    · exact hf i hold j hold' heq
    · exact absurd heq (hnew j hid htok i hold)
  · rw [happ, List.mem_append, List.mem_singleton] at hmem'
    rcases hmem' with hold' | rfl
    · exact absurd heq.symm (hnew i hid htok j hold')
    · rfl

theorem step_machines {w : World} {cat : Catalog} {s : St} (h : Machines cat s) (a : Act) : Machines cat (s.step w a) where
  agreement := step_agreement h.agreement a
  owner i hmem := by
    rcases act_instance h.agreement.inv hmem with hold | ⟨-, -, -, hnew⟩
    · obtain ⟨v, hv, hop, htok, hz⟩ := h.owner i hold
      obtain ⟨v', hv', -, hc⟩ := act_view_of (w := w) (a := a) h.agreement.inv hv
      obtain ⟨hi, hid⟩ := hc.keeps
      simp only [OperationRow.intent, Prod.mk.injEq] at hi
      exact ⟨v', hv', hid ▸ hop, htok.trans hi.2.2.2.2.2.2.1.symm, hi.2.1 ▸ hz⟩
    · exact hnew
  token := act_injective h.agreement.inv h.token fun _ _ htok => htok
  ids := act_injective h.agreement.inv h.ids fun _ hid _ _ hj e => hid (e ▸ List.mem_map_of_mem hj)
  recorded v' hv' := by
    have hold : s.cloud ⊆ (s.act w a).cloud := by
      rcases act_cloud (w := w) h.agreement.inv a with hc | ⟨-, op, v, -, -, -, -, hl⟩
      · exact hc ▸ List.Subset.refl _
      · exact hl.old
    rcases act_view h.agreement.inv hv' with ⟨-, hinit⟩ | ⟨v, hv, hid, hc⟩
    · exact .inl ⟨hinit.host.2.1, hinit.host.2.2.1⟩
    · rcases hc.identity with ⟨hp, hk⟩ | ⟨-, i, hmem, htok, hp, hk⟩
      · exact (h.recorded v hv).mono hold hid hp hk
      · obtain ⟨hop, hz⟩ := h.of_token hmem hv htok
        exact .inr ⟨i, hold hmem, hid ▸ hop, hp, hz ▸ hk⟩

theorem run_machines {w : World} {cat : Catalog} {s : St} (h : Machines cat s) (acts : List Act) :
    Machines cat (s.run w acts) :=
  run_induction (P := fun _ _ => True) (I := Machines cat) (fun _ a _ h => step_machines h a) (allSteps_true w s acts) h

/-- what is recorded stays along a run -/
theorem run_pinned {w : World} {cat : Catalog} {s : St} (h : Machines cat s) (acts : List Act) {v v' : View}
    (hv : s.db.IsView v) (hp : v.host.providerId ≠ none) (hv' : (s.run w acts).db.IsView v') (hid : v'.op.id = v.op.id) :
    v'.host.providerId = v.host.providerId ∧ v'.host.kubernetesProviderId = v.host.kubernetesProviderId := by
  induction acts generalizing s v with
  | nil =>
    obtain rfl := h.agreement.inv.wf.view_unique hv' hv hid
    exact ⟨rfl, rfl⟩
  | cons a acts ih =>
    obtain ⟨u, hu, hidu, -⟩ := act_view_of (w := w) (a := a) h.agreement.inv hv
    obtain ⟨hpu, hku⟩ := h.pinned hv hu hidu hp
    have := ih (step_machines h a) hu (hpu ▸ hp) hv' (hid.trans hidu.symm)
    exact ⟨this.1.trans hpu, this.2.trans hku⟩

/-! ## Results -/

/-- operations and instances match one to one, and hosts name the instance of their operation -/
structure OneMachine (s : St) : Prop where
  unique : ∀ i ∈ s.cloud, ∀ j ∈ s.cloud, operationOf i = operationOf j → i = j
  owned : ∀ i ∈ s.cloud, ∃ v, s.db.IsView v ∧ operationOf i = some v.op.id
  recorded : ∀ v, s.db.IsView v → Recorded s.cloud v
  apart : ∀ u v, s.db.IsView u → s.db.IsView v → u.host.providerId ≠ none → u.host.providerId = v.host.providerId →
    u.op.id = v.op.id

theorem Machines.oneMachine {cat : Catalog} {s : St} (h : Machines cat s) : OneMachine s where
  unique i hi j hj heq := by
    obtain ⟨u, hu, hop, htok, -⟩ := h.owner i hi
    obtain ⟨v, hv, hop', htok', -⟩ := h.owner j hj
    have hid : u.op.id = v.op.id := Option.some.inj (hop.symm.trans (heq.trans hop'))
    obtain rfl := h.agreement.inv.wf.view_unique hu hv hid
    exact h.token i hi j hj (htok.trans htok'.symm)
  owned i hi := by
    obtain ⟨v, hv, hop, -⟩ := h.owner i hi
    exact ⟨v, hv, hop⟩
  recorded := h.recorded
  apart u v hu hv hp heq := by
    rcases h.recorded u hu with ⟨hn, -⟩ | ⟨i, hi, hop, hpi, -⟩
    · exact absurd hn hp
    rcases h.recorded v hv with ⟨hn, -⟩ | ⟨j, hj, hop', hpj, -⟩
    · exact absurd (heq.trans hn) hp
    obtain rfl := h.ids i hi j hj (Option.some.inj (hpi.symm.trans (heq.trans hpj)))
    exact Option.some.inj (hop.symm.trans hop')

/-- **One provision operation yields at most one machine.** In every state of every run instances and operations match
one to one and each host names only the instance of its operation; and what a host names it names in every later state. -/
theorem one_machine (w : World) (cat : Catalog) (acts later : List Act) :
    OneMachine ((St.init cat).run w acts) ∧
    ∀ v v', ((St.init cat).run w acts).db.IsView v → ((St.init cat).run w (acts ++ later)).db.IsView v' →
      v'.op.id = v.op.id → v.host.providerId ≠ none →
        v'.host.providerId = v.host.providerId ∧ v'.host.kubernetesProviderId = v.host.kubernetesProviderId := by
  have h : Machines cat ((St.init cat).run w acts) := run_machines (machines_init cat) acts
  refine ⟨h.oneMachine, fun v v' hv hv' hid hp => ?_⟩
  rw [run_append] at hv'
  exact run_pinned h later hv hp hv' hid

end Crane.Capacity
