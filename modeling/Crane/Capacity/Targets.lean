/-
Does the target account for the live hosts?

Four writers move the two sides: admissions create hosts, decreases cancel operations and mark hosts as excess, named
removals lower the target. `liveHosts` is the side the target should equal. A decrease takes it down by exactly what the
target loses unless it cancels an operation whose host is excess already, or marks a host that a removal owns already;
a removal does unless it names an excess host. Such a decrease leaves a host that nobody accounts for
(`target_miscounts_deleted_host`); runs in which none of this happens keep the balance.
-/
import Crane.Capacity.Agreement

namespace Crane.Capacity

open Tx

/-! ## Live hosts -/

/-- an autoscaler deletion owns the host -/
def deleted (d : DB) (hostId : String) : Bool :=
  d.removals.rows.any fun r => r.hostId = hostId && r.reason = .autoscalerDelete

/-- a host of the group that is not TERMINATED, not excess and not being deleted -/
def live (d : DB) (g : String) (h : Host) : Bool :=
  h.nodeGroupId = some g && h.state ≠ .terminated && !h.excessCapacity && !deleted d h.id

def liveHosts (d : DB) (g : String) : ℕ := d.hosts.count (live d g)

theorem live_iff {d : DB} {g : String} {h : Host} : live d g h = true ↔
    h.nodeGroupId = some g ∧ h.state ≠ .terminated ∧ h.excessCapacity = false ∧ deleted d h.id = false := by
  simp [live, and_assoc]

/-- the hosts of a group are live before and after a change that keeps what `live` reads -/
theorem liveHosts_of_views {d d' : DB} (hw : d.WF) {g : String}
    (hrefs : ∀ k, (d'.hosts.find k).map Host.refs = (d.hosts.find k).map Host.refs) (hrem : d'.removals = d.removals)
    (hv : ∀ v, d.IsView v → v.host.nodeGroupId = some g → ∃ v', d'.IsView v' ∧ v'.host.id = v.host.id ∧
      (v'.host.state = .terminated ↔ v.host.state = .terminated) ∧ v'.host.excessCapacity = v.host.excessCapacity) :
    liveHosts d' g = liveHosts d g := by
  refine Table.count_congr fun k => ?_
  cases hk : d.hosts.find k with
  | none =>
    have := hrefs k
    rw [hk, Option.map_none, Option.map_eq_none_iff] at this
    simp [this]
  | some h =>
    obtain ⟨h', hk', hr⟩ := exists_of_map_eq (hrefs k).symm hk
    simp only [Host.refs, Prod.mk.injEq] at hr
    simp only [hk', Option.any_some]
    by_cases hg : h.nodeGroupId = some g
    · obtain ⟨v, hview, rfl⟩ := hw.view_of_host hk (by simp [hg])
      obtain ⟨v', hview', hid, hst, hex⟩ := hv v hview hg
      have hhid : v.host.id = k := Table.key_of_find hk
      obtain rfl : v'.host = h' := Option.some.inj (hview'.host.symm.trans (by rw [hid, hhid, hk']))
      rw [Bool.eq_iff_iff, live_iff, live_iff, hr.2.1, hst.ne, hex, hid, deleted, deleted, hrem]
    · rw [Bool.eq_iff_iff, live_iff, live_iff, hr.2.1]
      simp [hg]

theorem liveHosts_congr {d d' : DB} (hh : d'.hosts = d.hosts) (hr : d'.removals = d.removals) (g : String) :
    liveHosts d' g = liveHosts d g := by
  unfold liveHosts
  rw [hh]
  have : live d' g = live d g := by
    funext h
    simp only [live, deleted, hr]
  rw [this]

/-! ## Increases -/

/-- every removal names a host that exists -/
def RemovalsHaveHosts (d : DB) : Prop := ∀ r ∈ d.removals.rows, d.hosts.find r.hostId ≠ none

theorem RemovalsHaveHosts.not_deleted {d : DB} (h : RemovalsHaveHosts d) {k : String} (hk : d.hosts.find k = none) :
    deleted d k = false := by
  simp only [deleted, List.any_eq_false, Bool.and_eq_true, decide_eq_true_eq, not_and]
  rintro r hr rfl
  exact absurd hk (h r hr)

theorem Intent.removals {p : Policy} {requestId : String} {revision : ℤ} {u : Uuids} {d d' : DB}
    (h : Intent p requestId revision u d d') : d'.removals = d.removals := by
  rw [h.eq]
  rfl

/-- a new intent adds one live host to its group -/
theorem Intent.liveHosts {p : Policy} {requestId : String} {revision : ℤ} {u : Uuids} {d d' : DB}
    (h : Intent p requestId revision u d d') (hr : RemovalsHaveHosts d) (g : String) :
    liveHosts d' g = liveHosts d g + if p.group.id = g then 1 else 0 := by
  have hlive : ∀ k, live d' g k = live d g k := fun k => by simp only [live, deleted, h.removals]
  have hnew : live d g (intentHost p u d) = true ↔ p.group.id = g := by
    rw [live_iff]
    simp [intentHost, hr.not_deleted h.host]
  split_ifs with hg
  · refine Table.count_eq_add (l := [u 0]) (by simp) (fun k => ?_) (by simp [h.host])
    rw [h.find_host, List.mem_singleton, show Capacity.live d' g = live d g from funext hlive]
    split_ifs with hk
    · simp [hnew, hg, hk]
    · simp [Ne.symm hk]
  · refine Table.count_congr fun k => ?_
    rw [h.find_host, show Capacity.live d' g = live d g from funext hlive]
    split_ifs with hk
    · subst hk
      simpa [h.host, ← Bool.not_eq_true, hnew] using hg
    · rfl

theorem provisionIntents_liveHosts {ans : Operation → Bool} {p : Policy} {requestId : String} {revision : ℤ} {u : Uuids}
    {n : ℕ} {d : DB} {x : Unit × DB} (h : (provisionIntents p requestId revision u n).run ans d = .ok x)
    (hr : RemovalsHaveHosts d) (g : String) :
    x.2.removals = d.removals ∧ liveHosts x.2 g = liveHosts d g + if p.group.id = g then n else 0 := by
  have hI := provisionIntents_induct (I := fun n d' => d'.removals = d.removals ∧ RemovalsHaveHosts d' ∧
    liveHosts d' g = liveHosts d g + if p.group.id = g then n else 0) (fun n d' d'' hi hs => ?_) n ⟨rfl, hr, by simp⟩ h
  · exact ⟨hI.1, hI.2.2⟩
  · obtain ⟨hrem, hhosts, hlive⟩ := hi
    refine ⟨hs.removals.trans hrem, fun r hmem => ?_, ?_⟩
    · rw [hs.removals] at hmem
      obtain ⟨k, hk⟩ := Option.ne_none_iff_exists'.mp (hhosts r hmem)
      simp [hs.hosts hk]
    · rw [hs.liveHosts hhosts, hlive]
      split_ifs <;> omega

/-! ## Decreases -/

/-- no operation that a decrease could cancel has an excess host, and no host it could mark is being deleted -/
def clean (d : DB) (g : String) : Bool :=
  (d.operations.rows.all fun o => !cancellable d g o || (o.hostId.bind d.hosts.find).all fun h => !h.excessCapacity) &&
    d.hosts.rows.all fun h => !markable d g h || !deleted d h.id

theorem live_cancelOne (d : DB) (v : View) (g : String) : live (cancelOne d v) g = live d g := rfl

theorem cancelOne_find (d : DB) (v : View) (k : String) :
    (cancelOne d v).hosts.find k = if v.host.id = k then some (v.host.terminated d.clock) else d.hosts.find k :=
  Table.find_put _ _ _

theorem cancelOne_liveHosts {d : DB} {v : View} {g : String} (hv : d.IsView v) (hl : live d g v.host = true) :
    liveHosts d g = liveHosts (cancelOne d v) g + 1 := by
  refine Table.count_eq_add (l := [v.host.id]) (by simp) (fun k => ?_) ?_
  · rw [cancelOne_find, live_cancelOne, List.mem_singleton]
    split_ifs with hk
    · subst hk
      simp [hv.host, hl]
    · simp [Ne.symm hk]
  · simp [cancelOne_find, live_cancelOne, live, Host.terminated]

/-- the hosts while a decrease cancels: unchanged, or terminated before their launch -/
def OnlyCancelled (d d' : DB) : Prop := ∀ k, d'.hosts.find k = d.hosts.find k ∨
  ∃ h now, d.hosts.find k = some h ∧ HostState.prelaunch h.state ∧ d'.hosts.find k = some (h.terminated now)

theorem OnlyCancelled.cancelOne {d d' : DB} {v : View} (h : OnlyCancelled d d') (hv : d'.IsView v)
    (hs : HostState.prelaunch v.host.state) : OnlyCancelled d (cancelOne d' v) := by
  intro k
  rw [cancelOne_find]
  split_ifs with hk
  · subst hk
    rcases h v.host.id with he | ⟨h', now, -, -, hf⟩
    · exact .inr ⟨v.host, d'.clock, he ▸ hv.host, hs, rfl⟩
    · -- a terminated host is not before its launch
      rw [Option.some.inj (hv.host.symm.trans hf)] at hs
      simp [HostState.prelaunch, Host.terminated] at hs
  · exact h k

/-- the loop over cancelled operations: each takes one live host away -/
structure Cancelling (d : DB) (g : String) (total : ℕ) (l : List OperationRow) (d' : DB) : Prop where
  hosts : OnlyCancelled d d'
  removals : d'.removals = d.removals
  count : liveHosts d g + l.length = liveHosts d' g + total
  nodup : (l.map OperationRow.id).Nodup
  ready : ∀ o ∈ l, ∀ v, d'.IsView v → v.op = o → live d' g v.host = true

theorem Cancelling.step {d : DB} {g : String} {total : ℕ} {o : OperationRow} {l : List OperationRow} {d' : DB} {v : View}
    (h : Cancelling d g total (o :: l) d') (hw : d'.WF) (hv : d'.IsView v) (ho : v.op = o) (hc : v.Cancellable) :
    Cancelling d g total l (cancelOne d' v) := by
  have hnodup := h.nodup
  rw [List.map_cons, List.nodup_cons] at hnodup
  refine ⟨h.hosts.cancelOne hv hc.host, h.removals, ?_, hnodup.2, fun o' ho' u hu hop => ?_⟩
  · have hcount := h.count
    rw [cancelOne_liveHosts hv (h.ready o List.mem_cons_self v hv ho), List.length_cons] at hcount
    omega
  · rw [live_cancelOne]
    obtain ⟨u', hu', hid', ⟨hid, -, -⟩ | ⟨-, rfl⟩⟩ := (cancelOne_effect hw hv).touches u hu
    · -- the cancelled operation is not selected twice
      have hoid : o'.id = o.id := by rw [← hop, ← ho, hid', hid]
      exact absurd (hoid ▸ List.mem_map_of_mem ho') hnodup.1
    · exact h.ready o' (List.mem_cons_of_mem _ ho') u hu' hop

theorem selectMarkable_length (d : DB) (g : String) (n : ℕ) :
    (selectMarkable d g n).length = min n (d.hosts.count (markable d g)) := by
  rw [selectMarkable, List.length_take, List.length_insertionSort, Table.count, List.countP_eq_length_filter]

theorem live_markAll (d : DB) (g : String) (n : ℕ) : live (markAll d g n) g = live d g := rfl

/-- a key is selected if and only if its row is -/
theorem mem_markable_ids {d : DB} {g : String} {n : ℕ} {k : String} :
    k ∈ (selectMarkable d g n).map Host.id ↔ ∃ h, d.hosts.find k = some h ∧ h ∈ selectMarkable d g n := by
  rw [List.mem_map]
  constructor
  · rintro ⟨h, hm, rfl⟩
    exact ⟨h, Table.find_mem (mem_selectMarkable hm).1, hm⟩
  · rintro ⟨h, hf, hm⟩
    exact ⟨h, hm, Table.key_of_find hf⟩

/-- marking takes away the live hosts it marks -/
theorem markAll_liveHosts {d : DB} {g : String} {n : ℕ} (hl : ∀ h ∈ selectMarkable d g n, live d g h = true) :
    liveHosts d g = liveHosts (markAll d g n) g + (selectMarkable d g n).length := by
  rw [← List.length_map Host.id]
  have hmarked : ∀ h : Host, live d g h.marked = false := fun h => by simp [live, Host.marked]
  refine Table.count_eq_add (selectMarkable_nodup d g n) (fun k => ?_) fun k hk => ?_
  · rw [markAll_find, live_markAll, mem_markable_ids]
    cases d.hosts.find k with
    | none => simp
    | some h =>
      by_cases hm : h ∈ selectMarkable d g n
      · simp [hm, hl h hm]
      · simp [hm]
  · obtain ⟨h, hf, hm⟩ := mem_markable_ids.mp hk
    simp [markAll_find, live_markAll, hf, hm, hmarked]

/-- hosts that count as registered, whatever is to become of them -/
def registeredHosts (d : DB) (g : String) : ℕ :=
  d.hosts.count fun h => h.nodeGroupId = some g && HostState.registered h.state

/-- a live host is registered or can still be marked -/
theorem liveHosts_le {d : DB} (hw : d.WF) (hag : ∀ v, d.IsView v → Agrees v) (g : String) :
    liveHosts d g ≤ registeredHosts d g + d.hosts.count (markable d g) := by
  refine Table.count_le_add fun h hh hl => ?_
  obtain ⟨hg, hst, hex, -⟩ := live_iff.mp hl
  obtain ⟨v, hv, rfl⟩ := hw.view_of_host (Table.find_mem hh) (by simp [hg])
  have hop := hw.view_host_op hv
  cases hag v hv with
  | waiting hs ho =>
    refine .inr ?_
    have hnc : v.op.state ≠ .cancelled := by rcases ho with h | h | h <;> simp [h]
    rcases hs with hs | hs <;> simp [markable, hg, hs, hex, hop, hv.op, hnc]
  | launched hs ho =>
    cases hstate : v.host.state <;> simp only [hstate, HostState.launched, reduceCtorEq] at hs
    · exact .inr (by simp [markable, hg, hstate, hex, hop, hv.op, ho])
    · exact .inl (by simp [hg, HostState.registered])
    · exact .inl (by simp [hg, HostState.registered])
  | ready hs => exact .inl (by simp [hg, hs, HostState.registered])
  | cancelled hs => exact absurd hs hst

theorem OnlyCancelled.registeredHosts {d d' : DB} (h : OnlyCancelled d d') (g : String) :
    registeredHosts d' g = registeredHosts d g := by
  refine Table.count_congr fun k => ?_
  rcases h k with he | ⟨x, now, hx, hs, hx'⟩
  · rw [he]
  · rw [hx, hx']
    rcases hs with hs | hs <;> simp [Host.terminated, HostState.registered, hs]

theorem live_of_markable {d : DB} {g : String} {h : Host} (hm : markable d g h = true) (hd : deleted d h.id = false) :
    live d g h = true := by
  simp only [markable, Bool.and_eq_true, Bool.or_eq_true, decide_eq_true_eq, Bool.not_eq_true'] at hm
  obtain ⟨⟨⟨hg, hst⟩, hex⟩, -⟩ := hm
  exact live_iff.mpr ⟨hg, by rcases hst with (h | h) | h <;> simp [h], hex, hd⟩

/-- what can be marked after the cancellations could be marked before them -/
theorem markable_of_cancelled {d d₁ : DB} {g : String} (hd : Decrease g d d₁) (hc : OnlyCancelled d d₁) {h : Host}
    (hh : h ∈ d₁.hosts.rows) (hm : markable d₁ g h = true) : h ∈ d.hosts.rows ∧ markable d g h = true := by
  simp only [markable, Bool.and_eq_true, Bool.or_eq_true, decide_eq_true_eq, Bool.not_eq_true', Option.any_eq_true,
    Option.bind_eq_some_iff] at hm ⊢
  obtain ⟨⟨⟨hg, hst⟩, hex⟩, o, ⟨i, hi, ho⟩, hnc⟩ := hm
  refine ⟨?_, ⟨⟨hg, hst⟩, hex⟩, o, ⟨i, hi, ?_⟩, hnc⟩
  · rcases hc h.id with he | ⟨x, now, -, -, hx⟩
    · exact Table.mem_of_find (he ▸ Table.find_mem hh)
    · rw [Option.some.inj ((Table.find_mem hh).symm.trans hx)] at hst
      simp [Host.terminated] at hst
  · obtain ⟨o', ho', -⟩ := exists_of_map_eq (hd.refs.ops i) ho
    rcases hd.ops i o' ho' with h' | ⟨-, -, h'⟩
    · rwa [Option.some.inj (ho.symm.trans h')]
    · rw [Option.some.inj (ho.symm.trans h')] at hnc
      simp [OperationRow.cancelled] at hnc

/-- the cancellable operations of a clean group have live hosts -/
theorem live_of_cancellable {d : DB} (hw : d.WF) {g : String}
    (hfree : ∀ v, d.IsView v → HostState.prelaunch v.host.state → deleted d v.host.id = false)
    (hclean : clean d g = true) {n : ℕ} {o : OperationRow} (ho : o ∈ selectCancellable d g n) {v : View}
    (hv : d.IsView v) (hop : v.op = o) : live d g v.host = true := by
  obtain ⟨hmem, hc⟩ := mem_selectCancellable ho
  simp only [clean, Bool.and_eq_true, List.all_eq_true, Bool.or_eq_true, Bool.not_eq_true'] at hclean
  have hex := (hclean.1 o hmem).resolve_left (by simp [hc])
  subst hop
  obtain ⟨u, hu, huop, hg, huc⟩ := cancelReady_of_cancellable hw hmem hc
  obtain rfl := hw.view_unique hu hv (by rw [huop])
  have hst : u.host.state ≠ .terminated := by rcases huc.host with h | h <;> simp [h]
  exact live_iff.mpr ⟨(hw.view_host hu).2.trans hg, hst, by simpa [hu.hostId, hu.host] using hex, hfree u hu huc.host⟩

/-- **A clean decrease takes away exactly as many live hosts as it was asked for.** -/
theorem cancelPending_liveHosts {ans : Operation → Bool} {d : DB} (hw : d.WF) (hag : ∀ v, d.IsView v → Agrees v)
    {g : String} (hfree : ∀ v, d.IsView v → HostState.prelaunch v.host.state → deleted d v.host.id = false)
    (hclean : clean d g = true) {n : ℕ} (hn : registeredHosts d g + n ≤ liveHosts d g) {x : Unit × DB}
    (h : (cancelPending g n).run ans d = .ok x) : x.2.removals = d.removals ∧ liveHosts d g = liveHosts x.2 g + n := by
  obtain ⟨d₁, hrun, hw₁, hd₁, hI⟩ := cancelPending_run hw g n
    (I := Cancelling d g (selectCancellable d g n).length) (fun o l d' v hi hw' hv ho _ hc => hi.step hw' hv ho hc)
    ⟨fun _ => .inl rfl, rfl, rfl, selectCancellable_nodup d g n,
      fun o ho v hv hop => live_of_cancellable hw hfree hclean ho hv hop⟩
  rw [hrun] at h
  obtain rfl := Except.ok.inj h
  have hcount := hI.count
  rw [List.length_nil, Nat.add_zero] at hcount
  have hle : (selectCancellable d g n).length ≤ n := List.length_take_le _ _
  dsimp only
  split_ifs with hlt
  · refine ⟨hI.removals, ?_⟩
    have hag₁ : ∀ v, d₁.IsView v → Agrees v := fun v hv => by
      obtain ⟨u, hu, -, hs⟩ := hd₁.view v hv
      exact ((hag u hu).decrease hs).1
    have hbound := liveHosts_le hw₁ hag₁ g
    rw [hI.hosts.registeredHosts] at hbound
    have hlen := selectMarkable_length d₁ g (n - (selectCancellable d g n).length)
    rw [min_eq_left (by omega)] at hlen
    rw [hcount, markAll_liveHosts (n := n - (selectCancellable d g n).length), hlen]
    · omega
    · intro k hk
      obtain ⟨hmem, hm⟩ := mem_selectMarkable hk
      obtain ⟨hmem', hm'⟩ := markable_of_cancelled hd₁ hI.hosts hmem hm
      simp only [clean, Bool.and_eq_true, List.all_eq_true, Bool.or_eq_true, Bool.not_eq_true'] at hclean
      refine live_of_markable hm ?_
      rw [deleted, hI.removals]
      exact (hclean.2 k hmem').resolve_left (by simp [hm'])
  · exact ⟨hI.removals, by omega⟩

/-- a decrease of another group leaves the live hosts alone -/
theorem Decrease.liveHosts_other {g g' : String} {d d' : DB} (hd : Decrease g' d d') (hw : d.WF) (hr : d'.removals = d.removals)
    (hne : g' ≠ g) : liveHosts d' g = liveHosts d g := by
  refine liveHosts_of_views hw hd.refs.hosts hr fun v hv hg => ?_
  obtain ⟨o', ho', hi⟩ := exists_of_map_eq (hd.refs.ops v.op.id).symm hv.op
  simp only [OperationRow.intent, Prod.mk.injEq] at hi
  obtain ⟨v', hv', rfl⟩ := (hw.of_sameRefs hd.refs).exists_view ho' (hi.1.trans hv.kind)
  obtain ⟨u, hu, hid, hs⟩ := hd.view v' hv'
  obtain rfl := hw.view_unique hu hv (hid.symm.trans (Table.key_of_find ho'))
  rcases decrease_outcome hs with (rfl | ⟨rfl, hg'⟩) | ⟨-, hg', -⟩
  · exact ⟨_, hv', rfl, Iff.rfl, rfl⟩
  · exact absurd (Option.some.inj (hg'.symm.trans hg)) hne
  · rw [← (hw.view_host hu).2, hg] at hg'
    exact absurd (Option.some.inj hg').symm hne

/-! ## SetTarget -/

/-- the target of the group accounts for its live hosts -/
def Balance (g : String) (d : DB) : Prop := ∀ row, d.nodeGroups.find g = some row → row.targetNodes = liveHosts d g

/-- intents and cancellations leave groups and removals alone -/
theorem keeps_groups {ans : Operation → Bool} {x : StoreTx Unit} (hx : x.Writes (Of [.operation, .host, .reservation]))
    {d : DB} {y : Unit × DB} (h : x.run ans d = .ok y) : y.2.nodeGroups = d.nodeGroups ∧ y.2.removals = d.removals := by
  refine hx.run_keeps (I := fun d' => d'.nodeGroups = d.nodeGroups ∧ d'.removals = d.removals) (fun r d' hr hd' => ?_) h
    ⟨rfl, rfl⟩
  cases r <;> first | exact hd' | simp [Of, Row.kind] at hr

theorem intents_keep {ans : Operation → Bool} {p : Policy} {requestId : String} {revision : ℤ} {u : Uuids} {n : ℕ} {d : DB}
    {y : Unit × DB} (h : (provisionIntents p requestId revision u n).run ans d = .ok y) :
    y.2.nodeGroups = d.nodeGroups ∧ y.2.removals = d.removals :=
  keeps_groups (writes_provisionIntents (by simp [Of, Row.kind]) (by simp [Of, Row.kind]) (by simp [Of, Row.kind]) n) h

theorem cancels_keep {ans : Operation → Bool} {g : String} {n : ℕ} {d : DB} {y : Unit × DB}
    (h : (cancelPending g n).run ans d = .ok y) : y.2.nodeGroups = d.nodeGroups ∧ y.2.removals = d.removals :=
  keeps_groups (writes_cancelPending (by simp [Of, Row.kind]) (by simp [Of, Row.kind]) (by simp [Of, Row.kind])
    (by simp [Of, Row.kind]) g n) h

section
variable {ans : Operation → Bool} {d : DB} {req : CapacityRequest} {u : Uuids} {x : CapacityResult × DB} {p : Policy}
  {pool : NodePool} {g' : NodeGroup} {d₂ : DB}

/-- the groups after an admission: the requested one has the desired target -/
theorem Admission.groups (h : Admission ans d req u x p pool g' d₂) (i : String) :
    x.2.nodeGroups.find i = (if req.nodeGroupId = i then some g' else d.nodeGroups.find i) ∧
      x.2.removals = d.removals := by
  have hg : g'.id = req.nodeGroupId := by rw [h.group.eq, ← h.policy.id]
  have hput : ∀ d₀ : DB, (d₀.put (.nodeGroup g')).nodeGroups.find i =
      if req.nodeGroupId = i then some g' else d₀.nodeGroups.find i := fun d₀ => by
    rw [← hg]
    exact Table.find_put _ _ _
  have hi := intents_keep h.intents
  rcases h.cancels with ⟨-, hc⟩ | ⟨-, hc⟩
  · have hc := cancels_keep hc
    exact ⟨by rw [hc.1, hi.1, hput]; rfl, hc.2.trans hi.2⟩
  · rw [hc]
    exact ⟨by rw [hi.1, hput]; rfl, hi.2⟩

theorem Admission.increase (h : Admission ans d req u x p pool g' d₂) (hle : p.group.targetNodes ≤ req.desiredTarget)
    (hr : RemovalsHaveHosts d) (g : String) : liveHosts x.2 g =
      liveHosts d g + if req.nodeGroupId = g then (req.desiredTarget - p.group.targetNodes).toNat else 0 := by
  obtain rfl : x.2 = d₂ := by
    rcases h.cancels with ⟨hlt, -⟩ | ⟨-, he⟩
    · omega
    · exact he
  have hl := (provisionIntents_liveHosts h.intents hr g).2
  rw [h.policy.id] at hl
  exact hl

/-- the state a decrease starts to cancel in has the operations, hosts, reservations and removals of the first -/
theorem Admission.cancels_from (h : Admission ans d req u x p pool g' d₂) (hlt : req.desiredTarget < p.group.targetNodes) :
    ∃ d₀ : DB, (d₀.operations = d.operations ∧ d₀.hosts = d.hosts ∧ d₀.reservations = d.reservations ∧
        d₀.removals = d.removals) ∧ Admits d d₀ ∧
      (cancelPending req.nodeGroupId (p.group.targetNodes - req.desiredTarget).toNat).run ans d₀ = .ok ((), x.2) := by
  have hi := h.intents
  rw [Int.toNat_of_nonpos (by omega)] at hi
  obtain rfl := (Prod.mk.inj (Except.ok.inj hi)).2
  rcases h.cancels with ⟨-, hc⟩ | ⟨hle, -⟩
  · refine ⟨_, ?_, ?_, hc⟩
    · exact ⟨rfl, rfl, rfl, rfl⟩
    · exact (admits_put_side d rfl).trans (admits_put_side _ rfl)
  · omega

theorem Admission.decrease (h : Admission ans d req u x p pool g' d₂) (hlt : req.desiredTarget < p.group.targetNodes)
    (hw : d.WF) (hag : ∀ v, d.IsView v → Agrees v)
    (hfree : ∀ v, d.IsView v → HostState.prelaunch v.host.state → deleted d v.host.id = false)
    (hclean : clean d req.nodeGroupId = true) (hb : p.group.targetNodes = liveHosts d req.nodeGroupId) :
    (liveHosts x.2 req.nodeGroupId : ℤ) = req.desiredTarget := by
  obtain ⟨d₀, ⟨ho, hh, hres, hrem⟩, hadm, hc⟩ := h.cancels_from hlt
  have hview : ∀ v, d₀.IsView v → d.IsView v := fun v hv =>
    ⟨ho ▸ hv.op, hv.kind, hv.hostId, hh ▸ hv.host, hres ▸ hv.res, hv.resHost⟩
  have hlive : liveHosts d₀ req.nodeGroupId = liveHosts d req.nodeGroupId := liveHosts_congr hh hrem _
  have hregistered : registeredHosts d₀ req.nodeGroupId = registeredHosts d req.nodeGroupId := by
    simp only [registeredHosts, hh]
  have hreg : (registeredHosts d req.nodeGroupId : ℤ) ≤ req.desiredTarget := h.registered hlt
  have hclean₀ : clean d₀ req.nodeGroupId = true := by
    simpa only [clean, cancellable, markable, deleted, ho, hh, hrem] using hclean
  have hmain := (cancelPending_liveHosts (hadm.wf hw) (fun v hv => hag v (hview v hv))
    (fun v hv hs => by simpa only [deleted, hrem] using hfree v (hview v hv) hs) hclean₀ (by omega) hc).2
  dsimp only at hmain
  omega

theorem Admission.decrease_other (h : Admission ans d req u x p pool g' d₂) (hlt : req.desiredTarget < p.group.targetNodes)
    (hw : d.WF) {g : String} (hne : req.nodeGroupId ≠ g) : liveHosts x.2 g = liveHosts d g := by
  obtain ⟨d₀, ⟨-, hh, -, hrem⟩, hadm, hc⟩ := h.cancels_from hlt
  rw [← liveHosts_congr hh hrem g]
  exact (cancelPending_decrease (hadm.wf hw) hc).liveHosts_other (hadm.wf hw) (cancels_keep hc).2 hne

/-- **An accepted target change keeps the balance**, if a decrease finds its group clean. -/
theorem Admission.balance (h : Admission ans d req u x p pool g' d₂) (hw : d.WF) (hag : ∀ v, d.IsView v → Agrees v)
    (hr : RemovalsHaveHosts d)
    (hfree : ∀ v, d.IsView v → HostState.prelaunch v.host.state → deleted d v.host.id = false)
    (hclean : req.desiredTarget < p.group.targetNodes → clean d req.nodeGroupId = true) {g : String} (hb : Balance g d) :
    Balance g x.2 := by
  intro row hrow
  rw [(h.groups g).1] at hrow
  split_ifs at hrow with hg
  · subst hg
    obtain rfl := Option.some.inj hrow
    have htarget : g'.targetNodes = req.desiredTarget := by rw [h.group.eq]
    have hold := hb _ h.policy.group
    rw [htarget]
    by_cases hlt : req.desiredTarget < p.group.targetNodes
    · exact (h.decrease hlt hw hag hfree (hclean hlt) hold).symm
    · rw [h.increase (not_lt.mp hlt) hr, if_pos rfl]
      omega
  · rw [hb row hrow]
    by_cases hlt : req.desiredTarget < p.group.targetNodes
    · rw [h.decrease_other hlt hw hg]
    · rw [h.increase (not_lt.mp hlt) hr, if_neg hg, Nat.add_zero]

end

/-! ## Removals -/

/-- no removal is ever completed -/
def RemovalsOpen (d : DB) : Prop := ∀ r ∈ d.removals.rows, r.completedAt = none

theorem RemovalsOpen.not_deleted {d : DB} (h : RemovalsOpen d) {k : String} (hf : removalActive d k = false) :
    deleted d k = false := by
  simp only [removalActive, List.any_eq_false, Bool.and_eq_true, decide_eq_true_eq, not_and] at hf
  simp only [deleted, List.any_eq_false, Bool.and_eq_true, decide_eq_true_eq, not_and]
  intro r hr hk
  exact absurd (by simp [h r hr]) (hf r hr hk)

/-- deleting live hosts of group `g'` takes that many from it and none from other groups -/
theorem liveHosts_delete {d d' : DB} {g' : String} {l : List String} (hh : d'.hosts = d.hosts) (hl : l.Nodup)
    (hdel : ∀ k, deleted d' k = true ↔ deleted d k = true ∨ k ∈ l)
    (hlive : ∀ k ∈ l, ∃ h, d.hosts.find k = some h ∧ live d g' h = true) (g : String) :
    liveHosts d g = liveHosts d' g + if g' = g then l.length else 0 := by
  have hiff : ∀ h : Host, live d' g h = true ↔ live d g h = true ∧ h.id ∉ l := fun h => by
    have hd : deleted d' h.id = false ↔ deleted d h.id = false ∧ h.id ∉ l := by
      rw [← Bool.not_eq_true, ← Bool.not_eq_true, hdel, not_or]
    rw [live_iff, live_iff, hd]
    simp only [and_assoc]
  split_ifs with hg
  · subst hg
    refine Table.count_eq_add hl (fun k => ?_) fun k hk => ?_
    · rw [hh, Option.any_eq_true, Option.any_eq_true]
      constructor
      · rintro ⟨h, hf, hlh⟩
        have hid : h.id = k := Table.key_of_find hf
        by_cases hk : k ∈ l
        · exact .inr hk
        · exact .inl ⟨h, hf, (hiff h).mpr ⟨hlh, hid ▸ hk⟩⟩
      · rintro (⟨h, hf, hlh⟩ | hk)
        · exact ⟨h, hf, ((hiff h).mp hlh).1⟩
        · exact hlive k hk
    · obtain ⟨h, hf, -⟩ := hlive k hk
      have hid : h.id = k := Table.key_of_find hf
      rw [hh, hf, Option.any_some, ← Bool.not_eq_true, hiff, hid]
      exact fun hn => hn.2 hk
  · refine Table.count_congr fun k => ?_
    rw [hh, Bool.eq_iff_iff, Option.any_eq_true, Option.any_eq_true]
    refine exists_congr fun h => and_congr_right fun hf => ?_
    rw [hiff]
    refine ⟨fun hlh => ⟨hlh, fun hk => hg ?_⟩, fun hlh => hlh.1⟩
    -- a deleted host belongs to the other group
    have hid : h.id = k := Table.key_of_find hf
    obtain ⟨h', hf', hlh'⟩ := hlive h.id hk
    obtain rfl := Option.some.inj (hf'.symm.trans (hid ▸ hf))
    exact Option.some.inj ((live_iff.mp hlh').1.symm.trans (live_iff.mp hlh).1)

/-- the group whose row is `row`, after its target was set -/
theorem balance_retarget {g : String} {d d' : DB} {row row' : NodeGroup} {target revision : ℤ} {k : ℕ}
    (hrow : d.nodeGroups.find row.id = some row) (hset : Retarget row row' target revision)
    (hgroups : d'.nodeGroups = (d.put (.nodeGroup row')).nodeGroups) (ht : target + k = row.targetNodes)
    (hlive : liveHosts d g = liveHosts d' g + if row.id = g then k else 0) (hb : Balance g d) : Balance g d' := by
  intro r hr
  have hid : row'.id = row.id := by rw [hset.eq]
  have hput : (d.put (.nodeGroup row')).nodeGroups.find g =
      if row.id = g then some row' else d.nodeGroups.find g := by
    rw [← hid]
    exact Table.find_put _ _ _
  rw [hgroups, hput] at hr
  split_ifs at hr hlive with hg
  · obtain rfl := Option.some.inj hr
    have hold := hb row (hg ▸ hrow)
    have htarget : row'.targetNodes = target := by rw [hset.eq]
    omega
  · rw [hb r hr, hlive, Nat.add_zero]

/-- the loop over the named nodes: hosts and groups stay, removals of the nodes so far are there -/
structure Removing (d₀ : DB) (all l : List (RemovalNode × String)) (d : DB) : Prop where
  hosts : d.hosts = d₀.hosts
  groups : d.nodeGroups = d₀.nodeGroups
  deleted : ∀ k, deleted d k = true ∨ k ∈ l.map (fun x => x.1.hostId) ↔
    deleted d₀ k = true ∨ k ∈ all.map fun x => x.1.hostId
  rows : ∀ r ∈ d.removals.rows, r ∈ d₀.removals.rows ∨ (r.completedAt = none ∧ r.hostId ∈ all.map fun x => x.1.hostId)

theorem deleted_put (d : DB) (r : Removal) (hn : d.removals.find r.operationId = none) (k : String) :
    deleted (d.put (.removal r)) k = true ↔ deleted d k = true ∨ (r.hostId = k ∧ r.reason = .autoscalerDelete) := by
  have hmem : ∀ x, x ∈ (d.put (.removal r)).removals.rows ↔ x = r ∨ x ∈ d.removals.rows := by
    intro x
    refine Table.mem_put.trans (or_congr_right ⟨fun h => h.1, fun h => ⟨h, fun e => ?_⟩⟩)
    exact absurd hn (by rw [← e, Table.find_mem h]; simp)
  simp only [deleted, List.any_eq_true, hmem, Bool.and_eq_true, decide_eq_true_eq]
  constructor
  · rintro ⟨x, rfl | hx, h⟩
    · exact .inr h
    · exact .inl ⟨x, hx, h⟩
  · rintro (⟨x, hx, h⟩ | h)
    · exact ⟨x, .inr hx, h⟩
    · exact ⟨r, .inl rfl, h⟩

theorem RemovalInsert.deleted {g : NodeGroup} {hostId : String} {revision : ℤ} {params : Parameters} {u : Uuids}
    {r : Removal} {d d' : DB} (h : RemovalInsert g hostId revision params u r d d') (k : String) :
    deleted d' k = true ↔ deleted d k = true ∨ (r.hostId = k ∧ r.reason = .autoscalerDelete) := by
  rw [h.eq]
  exact deleted_put (d.put (.operation _)) r h.row k

theorem Removing.step {d₀ d d' : DB} {all l : List (RemovalNode × String)} {n : RemovalNode} {providerId : String}
    {g : NodeGroup} {revision : ℤ} {params : Parameters} {u : Uuids} {deadline : ℕ}
    (h : Removing d₀ all ((n, providerId) :: l) d) (hn : n.hostId ∈ all.map fun x => x.1.hostId)
    (hs : RemovalInsert g n.hostId revision params u
      ⟨u 0, g.id, n.hostId, n.nodeName, providerId, .autoscalerDelete, false, deadline, none⟩ d d') :
    Removing d₀ all l d' where
  hosts := by rw [hs.eq]; exact h.hosts
  groups := by rw [hs.eq]; exact h.groups
  deleted k := by
    rw [← h.deleted k, hs.deleted, List.map_cons, List.mem_cons, or_assoc]
    exact or_congr_right (or_congr_left ⟨fun e => e.1.symm, fun e => ⟨e.symm, rfl⟩⟩)
  rows r hr := by
    rw [hs.eq] at hr
    rcases Table.mem_put.mp hr with rfl | ⟨hr, -⟩
    · exact .inr ⟨rfl, hn⟩
    · exact h.rows r hr

theorem insertRemovals_removing {ans : Operation → Bool} {g : NodeGroup} {req : NodeRemovalRequest} {revision : ℤ}
    {deadline : ℕ} {u : Uuids} {l : List (RemovalNode × String)} {d : DB} {x : Unit × DB}
    (h : (insertRemovals g req revision deadline u l).run ans d = .ok x) : Removing d l [] x.2 := by
  have hI := insertRemovals_induct (I := fun l' d' => (∀ y ∈ l', y ∈ l) ∧ Removing d l l' d') (fun n p l' u d' d'' hi hs => ?_)
    l ⟨fun _ hy => hy, ⟨rfl, rfl, fun _ => Iff.rfl, fun _ hr => .inl hr⟩⟩ h
  · exact hI.2
  · have hmem := hi.1 _ List.mem_cons_self
    exact ⟨fun y hy => hi.1 y (List.mem_cons_of_mem _ hy), hi.2.step (List.mem_map.mpr ⟨_, hmem, rfl⟩) hs⟩

/-- a node that passed the checks is live, unless it is excess -/
theorem CheckedNode.isLive {d : DB} {g hostId : String} {h : Host} (hc : CheckedNode d g hostId h) (hg : g ≠ "")
    (ho : RemovalsOpen d) (hex : h.excessCapacity = false) : Capacity.live d g h = true := by
  have hid : h.id = hostId := Table.key_of_find hc.row
  have hgroup : h.nodeGroupId = some g := by
    have := hc.group
    cases hn : h.nodeGroupId with
    | none => exact absurd (by simpa [hn] using this.symm) hg
    | some k => simpa [hn] using this
  exact live_iff.mpr ⟨hgroup, hc.live.1, hex, ho.not_deleted (hid ▸ hc.free)⟩

/-- a request that names no excess host -/
def namesLive (d : DB) (hosts : List String) : Bool := hosts.all fun k => (d.hosts.find k).all fun h => !h.excessCapacity

theorem namesLive_spec {d : DB} {hosts : List String} (h : namesLive d hosts = true) {k : String} (hk : k ∈ hosts)
    {x : Host} (hx : d.hosts.find k = some x) : x.excessCapacity = false := by
  simp only [namesLive, List.all_eq_true] at h
  simpa [hx] using h k hk

section
variable {ans : Operation → Bool} {d d' : DB} {clusterId : String} {req : NodeRemovalRequest} {u : Uuids} {deadline : ℕ}
  {p : Policy} {g' : NodeGroup} {ps : List String}

theorem Removals.removing (h : Removals ans d clusterId req u deadline d' p g' ps) :
    (req.nodes.zip ps).map (fun x => x.1.hostId) = req.nodes.map RemovalNode.hostId ∧
      Removing (d.put (.nodeGroup g')) (req.nodes.zip ps) [] d' := by
  refine ⟨?_, insertRemovals_removing h.inserts⟩
  rw [show (fun x : RemovalNode × String => x.1.hostId) = RemovalNode.hostId ∘ Prod.fst from rfl, ← List.map_map,
    List.map_fst_zip (by rw [h.length])]

/-- **Named removals keep the balance**, if they name no excess host. -/
theorem Removals.balance (h : Removals ans d clusterId req u deadline d' p g' ps) (ho : RemovalsOpen d)
    (hlive : namesLive d (req.nodes.map RemovalNode.hostId) = true) {g : String} (hb : Balance g d) : Balance g d' := by
  obtain ⟨hmap, hr⟩ := h.removing
  have hid := h.policy.id
  refine balance_retarget (k := req.nodes.length) (hid ▸ h.policy.group) h.group hr.groups (by omega) ?_ hb
  rw [hid, ← List.length_map RemovalNode.hostId]
  refine liveHosts_delete hr.hosts h.wellFormed.2.2.2.2.2.2 (fun k => ?_) (fun k hk => ?_) g
  · have := hr.deleted k
    rw [hmap] at this
    simpa using this
  · obtain ⟨n, hn, rfl⟩ := List.mem_map.mp hk
    obtain ⟨x, hx⟩ := h.nodes n hn
    exact ⟨x, hx.row, hx.isLive h.wellFormed.2.1 ho (namesLive_spec hlive hk hx.row)⟩

end

theorem RemovalInsert.frame {g : NodeGroup} {hostId : String} {revision : ℤ} {params : Parameters} {u : Uuids} {r : Removal}
    {d d' : DB} (h : RemovalInsert g hostId revision params u r d d') : d'.hosts = d.hosts ∧ d'.nodeGroups = d.nodeGroups := by
  rw [h.eq]
  exact ⟨rfl, rfl⟩

/-- **A single removal keeps the balance**, if an autoscaler deletion names no excess host. -/
theorem OneRemoval.balance {d d' d₁ : DB} {clusterId : String} {expectedRevision : ℤ} {r : NodeRemovalOperation} {u : Uuids}
    {p : Policy} {h : Host} (hr : OneRemoval d clusterId expectedRevision r u d' p h d₁)
    (ho : RemovalsOpen d) (hlive : r.reason = .autoscalerDelete → namesLive d [r.hostId] = true) {g : String}
    (hb : Balance g d) : Balance g d' := by
  obtain ⟨revision, hins⟩ := hr.insert
  obtain ⟨hhosts, hgroups⟩ := hins.frame
  rcases hr.target with ⟨hpre, -, g', hset, rfl⟩ | ⟨hpre, rfl⟩
  · -- an autoscaler deletion
    have hreason : r.reason = .autoscalerDelete := by simpa [hr.preserve] using hpre
    have hid := hr.policy.id
    have hchecked : CheckedNode d r.nodeGroupId r.hostId h :=
      ⟨hr.host, hr.hostGroup, hr.hostProvider ▸ hr.wellFormed.2.2.2.2.1, hr.live, hins.free⟩
    refine balance_retarget (k := 1) (hid ▸ hr.policy.group) hset hgroups (by omega) ?_ hb
    rw [hid]
    refine liveHosts_delete (l := [r.hostId]) hhosts (by simp) (fun k => ?_) (fun k hk => ?_) g
    · rw [hins.deleted k, List.mem_singleton]
      exact or_congr_right ⟨fun e => e.1.symm, fun e => ⟨e.symm, hreason⟩⟩
    · obtain rfl := List.mem_singleton.mp hk
      exact ⟨h, hr.host, hchecked.isLive hr.wellFormed.2.1 ho (namesLive_spec (hlive hreason) hk hr.host)⟩
  · -- the capacity is preserved: neither side moves
    have hreason : r.reason ≠ .autoscalerDelete := by simpa [hr.preserve] using hpre
    intro row hrow
    rw [hgroups] at hrow
    have hsame : ∀ k, deleted d' k = true ↔ deleted d₁ k = true ∨ k ∈ ([] : List String) := fun k => by
      rw [hins.deleted k]
      simp [hreason]
    have hcount := liveHosts_delete hhosts List.nodup_nil hsame (show ∀ k ∈ [], ∃ h, _ ∧ Capacity.live d₁ g h = true by simp) g
    simpa [hcount] using hb row hrow

/-! ## Other calls -/

section
variable {ext : Externals} {ans : Operation → Bool} {c : Call} {d : DB} {x : Reply × DB}

theorem code_target (h : (code ext c).run ans d = .ok x) (hc : c.retargets = false) (i : String) :
    (x.2.nodeGroups.find i).map NodeGroup.targetNodes = (d.nodeGroups.find i).map NodeGroup.targetNodes := by
  refine (code_writes ext c).run_keeps
    (I := fun d' => (d'.nodeGroups.find i).map NodeGroup.targetNodes = (d.nodeGroups.find i).map NodeGroup.targetNodes)
    (fun r d' hr hd' => ?_) h rfl
  cases r with
  | nodeGroup g' =>
    obtain ⟨g, hg, -, ht⟩ := hr.step
    have hg : d'.nodeGroups.find g'.id = some g := by simpa [DB.look, Row.key] using hg
    rw [← hd']
    have hgroup : c.group ≠ some g'.id := by simp [Option.not_isSome_iff_eq_none.mp (by simpa [Call.retargets] using hc)]
    exact Table.map_find_put g' _ hg (congrArg Prod.fst (ht hgroup)) i
  | _ => exact hd'

theorem code_removals_eq (h : (code ext c).run ans d = .ok x) (hw : RowKind.removal ∉ c.writes) :
    x.2.removals = d.removals := by
  refine code_keeps (I := fun d' => d'.removals = d.removals) h (fun r d' hr hd' => ?_) rfl
  cases r <;> first | exact hd' | exact absurd hr hw

theorem code_hosts_eq (h : (code ext c).run ans d = .ok x) (hw : RowKind.host ∉ c.writes) : x.2.hosts = d.hosts := by
  refine code_keeps (I := fun d' => d'.hosts = d.hosts) h (fun r d' hr hd' => ?_) rfl
  cases r <;> first | exact hd' | exact absurd hr hw

theorem ViewStep.live_host {now : ℕ} {v v' : View} (h : ViewStep now c v v') :
    (v'.host.state = .terminated ↔ v.host.state = .terminated) ∧ v'.host.excessCapacity = v.host.excessCapacity := by
  cases h with
  | recordLaunch _ op p ip np z endpoint host hh hl hp hr =>
    have hspec := Host.launchedAs_spec hr
    refine ⟨?_, hspec.excess⟩
    rw [hspec.state]
    split_ifs with hs
    · rcases hs with hs | hs <;> simp [hs]
    · rfl
  | setState _ op expected next hh hl hs hn =>
    subst hs
    refine ⟨?_, rfl⟩
    cases hv : v.host.state <;> simp only [hv, HostState.handoff, Option.some.injEq, reduceCtorEq] at hn <;> simp [← hn]
  | finalize _ op version hh hl hs => exact ⟨by simp [hs], rfl⟩
  | _ => exact ⟨Iff.rfl, rfl⟩

theorem code_liveHosts (hw : d.WF) (h : (code ext c).run ans d = .ok x) (hc : c.retargets = false) (g : String) :
    liveHosts x.2 g = liveHosts d g := by
  have hrem : x.2.removals = d.removals := code_removals_eq h (by cases c <;> simp_all [Call.retargets, Call.group, Call.writes])
  by_cases hh : RowKind.host ∈ c.writes
  · obtain ⟨op, hf⟩ : ∃ op, c.fenced = some op := by
      cases c <;> simp_all [Call.retargets, Call.group, Call.writes, Call.fenced]
    refine liveHosts_of_views hw (fenced_effect hf hw h).refs.hosts hrem fun v hv _ => ?_
    obtain ⟨r, d'⟩ := x
    obtain ⟨v', hv', hid, hch⟩ := code_view_of hw h hv
    cases hch with
    | same => exact ⟨_, hv', rfl, Iff.rfl, rfl⟩
    | fenced _ _ _ hs => exact ⟨v', hv', hs.intent.2.2, hs.live_host.1, hs.live_host.2⟩
    | claim => simp [Call.fenced] at hf
    | decrease => simp [Call.fenced] at hf
  · exact liveHosts_congr (code_hosts_eq h hh) hrem g

end

/-- a removal after a call was there before, or is open and names a host of a group that has a provider ID -/
theorem code_removals {ext : Externals} {ans : Operation → Bool} {c : Call} {d : DB} {x : Reply × DB}
    (h : (code ext c).run ans d = .ok x) {r : Removal} (hr : r ∈ x.2.removals.rows) : r ∈ d.removals.rows ∨
      (r.completedAt = none ∧ ∃ k, d.hosts.find r.hostId = some k ∧ k.nodeGroupId ≠ none ∧ k.providerId.getD "" ≠ "") := by
  by_cases hw : RowKind.removal ∈ c.writes
  · cases c <;> simp only [Call.writes, List.mem_cons, List.not_mem_nil, reduceCtorEq, or_false, or_self] at hw
    case createAutoscalerRemovals cl req u t =>
      simp only [code, bind_eq, run_bind_ok, pure_eq, run_done, Except.ok.injEq] at h
      obtain ⟨y, hy, rfl⟩ := h
      rcases createAutoscalerRemovals_ok hy with ⟨-, -, -, hd⟩ | ⟨p, g', ps, hrem⟩
      · exact .inl (hd ▸ hr)
      · obtain ⟨hmap, hloop⟩ := hrem.removing
        rcases hloop.rows r hr with hold | ⟨ho, hn⟩
        · exact .inl hold
        · rw [hmap] at hn
          obtain ⟨n, hn, hid⟩ := List.mem_map.mp hn
          obtain ⟨k, hk⟩ := hrem.nodes n hn
          refine .inr ⟨ho, k, hid ▸ hk.row, fun e => hrem.wellFormed.2.1 ?_, hk.providerId⟩
          rw [← hk.group, e]
          rfl
    case createRemoval cl e req u =>
      simp only [code, bind_eq, run_bind_ok, pure_eq, run_done, Except.ok.injEq] at h
      obtain ⟨y, hy, rfl⟩ := h
      obtain ⟨p, k, d₁, hrem⟩ := createRemoval_ok hy
      obtain ⟨revision, hins⟩ := hrem.insert
      have hd₁ : d₁.removals = d.removals := by
        rcases hrem.target with ⟨-, -, g', -, rfl⟩ | ⟨-, rfl⟩ <;> rfl
      dsimp only at hr
      rw [hins.eq] at hr
      rcases Table.mem_put.mp hr with rfl | ⟨hr, -⟩
      · refine .inr ⟨rfl, k, hrem.host, fun e => hrem.wellFormed.2.1 ?_, hrem.hostProvider ▸ hrem.wellFormed.2.2.2.2.1⟩
        rw [← hrem.hostGroup, e]
        rfl
      · exact .inl (hd₁ ▸ hr)
  · exact .inl (code_removals_eq h hw ▸ hr)

/-! ## Runs -/

/-- the action keeps the two sides of the balance together: a decrease finds its group clean, and an autoscaler deletion
names no excess host -/
def accountable (s : St) : Act → Bool
  | .call (.setTarget req _) => (s.db.nodeGroups.find req.nodeGroupId).all fun row =>
      row.targetNodes ≤ req.desiredTarget || clean s.db req.nodeGroupId
  | .call (.createAutoscalerRemovals _ req _ _) => namesLive s.db (req.nodes.map RemovalNode.hostId)
  | .call (.createRemoval _ _ r _) => r.reason ≠ .autoscalerDelete || namesLive s.db [r.hostId]
  | _ => true

structure Balanced (cat : Catalog) (g : String) (s : St) : Prop where
  agreement : Agreement cat s
  removed : ∀ r ∈ s.db.removals.rows, r.completedAt = none ∧
    ∃ v, s.db.IsView v ∧ v.host.id = r.hostId ∧ ¬ HostState.prelaunch v.host.state
  balance : Balance g s.db

theorem Next.past {s s' : HostState} (h : Next s s') (hs : ¬ HostState.prelaunch s) : ¬ HostState.prelaunch s' := by
  cases h <;> simp_all [HostState.prelaunch]

theorem Agrees.past {v : View} (h : Agrees v) (hp : v.host.providerId.getD "" ≠ "") :
    ¬ HostState.prelaunch v.host.state := by
  cases h with
  | waiting _ _ _ hn => simp [hn] at hp
  | launched hs => exact fun hpre => by simp [HostState.not_launched hpre] at hs
  | ready hs => simp [hs, HostState.prelaunch]
  | cancelled hs => simp [hs, HostState.prelaunch]

section
variable {cat : Catalog} {g : String} {s : St}

theorem Balanced.removalsOpen (h : Balanced cat g s) : RemovalsOpen s.db := fun r hr => (h.removed r hr).1

theorem Balanced.removalsHaveHosts (h : Balanced cat g s) : RemovalsHaveHosts s.db := fun r hr => by
  obtain ⟨-, v, hv, hid, -⟩ := h.removed r hr
  rw [← hid, hv.host]
  simp

/-- nobody deletes a host before its launch -/
theorem Balanced.free (h : Balanced cat g s) {v : View} (hv : s.db.IsView v) (hs : HostState.prelaunch v.host.state) :
    deleted s.db v.host.id = false := by
  simp only [deleted, List.any_eq_false, Bool.and_eq_true, decide_eq_true_eq, not_and]
  intro r hr hid
  obtain ⟨-, u, hu, huid, hpast⟩ := h.removed r hr
  have hop := h.agreement.inv.wf.op_eq_of_host hu hv (huid.trans hid)
  obtain rfl := h.agreement.inv.wf.view_unique hu hv hop
  exact absurd hs hpast

theorem Balance.of_target {d d' : DB} (hb : Balance g d)
    (ht : (d'.nodeGroups.find g).map NodeGroup.targetNodes = (d.nodeGroups.find g).map NodeGroup.targetNodes)
    (hl : liveHosts d' g = liveHosts d g) : Balance g d' := by
  intro row hrow
  obtain ⟨row', hrow', he⟩ := exists_of_map_eq ht hrow
  rw [hl, ← hb row' hrow', he]

/-- a call that moves a target keeps the balance if it is accountable -/
theorem retarget_balance {w : World} (h : Balanced cat g s) {c : Call} {ans : Operation → Bool} {r : Reply} {d : DB}
    (hc : c.retargets = true) (ha : accountable s (.call c) = true) (hrun : (code w.ext c).run ans s.db = .ok (r, d)) :
    Balance g d := by
  cases c <;> simp only [Call.retargets, Call.group, Option.isSome_none, Bool.false_eq_true] at hc <;>
    simp only [code, bind_eq, run_bind_ok, pure_eq, run_done, Except.ok.injEq, Prod.mk.injEq] at hrun <;>
    obtain ⟨⟨y, d⟩, hy, -, rfl⟩ := hrun
  case setTarget req u =>
    rcases setTarget_ok hy with ⟨row, -, -, hx⟩ | ⟨p, pool, g', d₂, hadm⟩
    · obtain rfl := (Prod.mk.inj hx).2
      exact h.balance
    · refine hadm.balance h.agreement.inv.wf h.agreement.agrees h.removalsHaveHosts (fun v => h.free) (fun hlt => ?_) h.balance
      simp only [accountable, hadm.policy.group, Option.all_some, Bool.or_eq_true, decide_eq_true_eq] at ha
      exact ha.resolve_left (by omega)
  case createAutoscalerRemovals cl req u t =>
    rcases createAutoscalerRemovals_ok hy with ⟨-, -, -, hd⟩ | ⟨p, g', ps, hrem⟩
    · obtain rfl : d = s.db := hd
      exact h.balance
    · exact hrem.balance h.removalsOpen ha h.balance
  case createRemoval cl e req u =>
    obtain ⟨p, k, d₁, hrem⟩ := createRemoval_ok hy
    refine hrem.balance h.removalsOpen (fun hreason => ?_) h.balance
    simpa [accountable, hreason] using ha

theorem act_balance {w : World} (h : Balanced cat g s) {a : Act} (ha : accountable s a = true) :
    Balance g (s.act w a).db := by
  rcases act_commit (w := w) h.agreement.inv a with ⟨n, hn⟩ | ⟨c, r, ans, hrun, hwho, -⟩
  · rw [hn]
    exact h.balance
  · cases hc : c.retargets with
    | false => exact h.balance.of_target (code_target hrun hc g) (code_liveHosts h.agreement.inv.wf hrun hc g)
    | true =>
      have hcall : a = .call c := by
        cases c <;> simp_all [Call.retargets, Call.group, Call.isClaim, Call.fenced]
      exact retarget_balance h hc (hcall ▸ ha) hrun

theorem act_removed {w : World} (h : Balanced cat g s) (a : Act) {r : Removal} (hr : r ∈ (s.act w a).db.removals.rows) :
    r.completedAt = none ∧ ∃ v, (s.act w a).db.IsView v ∧ v.host.id = r.hostId ∧ ¬ HostState.prelaunch v.host.state := by
  -- the host was past its launch before the action
  have hold : r.completedAt = none ∧ ∃ v, s.db.IsView v ∧ v.host.id = r.hostId ∧ ¬ HostState.prelaunch v.host.state := by
    rcases act_commit (w := w) h.agreement.inv a with ⟨n, hn⟩ | ⟨c, rep, ans, hrun, -, -⟩
    · rw [hn] at hr
      exact h.removed r hr
    · rcases code_removals hrun hr with hr | ⟨ho, k, hk, hg, hp⟩
      · exact h.removed r hr
      · obtain ⟨v, hv, rfl⟩ := h.agreement.inv.wf.view_of_host hk hg
        exact ⟨ho, v, hv, Table.key_of_find hk, (h.agreement.agrees v hv).past hp⟩
  obtain ⟨ho, v, hv, hid, hpast⟩ := hold
  obtain ⟨v', hv', -, hc⟩ := act_view_of (w := w) (a := a) h.agreement.inv hv
  refine ⟨ho, v', hv', hc.hostId.trans hid, ?_⟩
  rcases ((h.agreement.agrees v hv).change hc).2 with he | hn
  · rwa [he]
  · exact hn.past hpast

theorem step_balanced {w : World} {a : Act} (ha : accountable s a = true) (h : Balanced cat g s) :
    Balanced cat g (s.step w a) where
  agreement := step_agreement h.agreement a
  removed _ hr := act_removed h a hr
  balance := act_balance h ha

theorem balanced_init (cat : Catalog) {g : String} (h : ∀ row, cat.nodeGroups.find g = some row → row.targetNodes = 0) :
    Balanced cat g (St.init cat) where
  agreement := agreement_init cat
  removed _ hr := by simp [St.init, Catalog.db, Table.empty] at hr
  balance row hrow := by
    have hnone : liveHosts cat.db g = 0 := by
      refine List.countP_eq_zero.mpr fun k hk => ?_
      simp [live, (cat.unmanaged k hk).2]
    rw [h row hrow]
    exact (congrArg Nat.cast hnone).symm

end

/-! ## Results -/

/-- **The target accounts for the live hosts as long as every action is accountable.** In every run from an empty group in
which decreases find their group clean and autoscaler deletions name no excess host, the target of the group is the
number of its hosts that are not TERMINATED, not excess and not being deleted. -/
theorem target_counts_live_hosts (w : World) (cat : Catalog) (g : String)
    (hempty : ∀ row, cat.nodeGroups.find g = some row → row.targetNodes = 0) (acts : List Act)
    (h : AllSteps w (fun s a => accountable s a = true) (St.init cat) acts) (row : NodeGroup)
    (hrow : ((St.init cat).run w acts).db.nodeGroups.find g = some row) :
    row.targetNodes = liveHosts ((St.init cat).run w acts).db g := by
  have hb : Balanced cat g ((St.init cat).run w acts) :=
    run_induction (fun _ _ ha h => step_balanced ha h) h (balanced_init cat hempty)
  exact hb.balance row hrow

/-- a decrease that marks a BOOTING host -/
theorem target_counts_marked_host :
    ∃ row, (Fleet.after (Fleet.launched false ++ [.ask 0 {}, Fleet.retarget "r2" 1 0])).db.nodeGroups.find "g" = some row ∧
      row.targetRevision = 2 ∧
      row.targetNodes = liveHosts (Fleet.after (Fleet.launched false ++ [.ask 0 {}, Fleet.retarget "r2" 1 0])).db "g" := by
  have hany : ((Fleet.after (Fleet.launched false ++ [.ask 0 {}, Fleet.retarget "r2" 1 0])).db.nodeGroups.find "g").any
      (fun row => row.targetRevision = 2) = true := by decide +kernel
  obtain ⟨row, hrow, hrev⟩ := (Option.any_eq_true _ _).mp hany
  refine ⟨row, hrow, by simpa using hrev, target_counts_live_hosts Fleet.world Fleet.catalog "g" ?_ _ ?_ row hrow⟩
  · intro row hrow
    obtain rfl := Option.some.inj (hrow : some Fleet.group = some row)
    rfl
  · decide +kernel

/-- two hosts: the controller of the older one crashed after the claim, the newer one was launched and its deletion was
requested; then the target is lowered -/
def Fleet.deletedHost : List Act := [retarget "r1" 0 1, .tick 1, retarget "r2" 1 2, claim, .crash 0, claim, .ask 0 {},
  .ask 0 {}, .ask 0 {}, .ask 0 {}, launch false, .ask 0 {},
  .call (.createAutoscalerRemovals "c" ⟨"g", "d1", 2, [⟨"r2-1", "node", "aws:///r-a/i-1"⟩]⟩ (fun n => "d1-" ++ toString n) 0),
  retarget "r3" 3 0]

/-- the decrease marks the host that is being deleted, so the older host outlives the target -/
theorem target_miscounts_deleted_host :
    ((Fleet.after Fleet.deletedHost).db.nodeGroups.find "g").map (fun row => row.targetNodes) = some 0 ∧
    liveHosts (Fleet.after Fleet.deletedHost).db "g" = 1 ∧
    ((Fleet.after Fleet.deletedHost).db.hosts.find "r1-1").map (fun h => (h.state, h.excessCapacity)) =
      some (.requested, false) ∧
    ((Fleet.after Fleet.deletedHost).db.hosts.find "r2-1").map (fun h => h.excessCapacity) = some true ∧
    deleted (Fleet.after Fleet.deletedHost).db "r2-1" = true := by
  decide +kernel

end Crane.Capacity
