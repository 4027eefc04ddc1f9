/-
One provision operation as the store sees it: the operation row, its host row and its reservation row.

`IsView d v` says that the database holds exactly these three rows and that they refer to each other. `WF` is the
referential integrity behind it: every provision operation has a host that names it back and one reservation, no host
belongs to two operations, provider tokens are unique. The columns that carry the references never change
(`SameRefs`), so an UPDATE keeps `WF`, and the lemmas on `put` say which views an UPDATE of one row can touch.
-/
import Crane.Capacity.Calls

namespace Crane.Capacity

/-- a provision operation with its host and reservation -/
structure View where
  op : OperationRow
  host : Host
  res : Reservation

structure DB.IsView (d : DB) (v : View) : Prop where
  op : d.operations.find v.op.id = some v.op
  kind : v.op.kind = .provision
  hostId : v.op.hostId = some v.host.id
  host : d.hosts.find v.host.id = some v.host
  res : d.reservations.find v.res.id = some v.res
  resHost : v.res.hostId = v.host.id

/-- the records of provision operation `i` -/
def DB.view (d : DB) (i : String) : Option View := do
  let o ← (d.operations.find i).filter fun o => o.kind = .provision
  let h ← o.hostId.bind d.hosts.find
  let r ← d.reservations.rows.find? fun r => r.hostId = h.id
  return ⟨o, h, r⟩

theorem DB.isView_of_view {d : DB} {i : String} {v : View} (h : d.view i = some v) : d.IsView v ∧ v.op.id = i := by
  simp only [DB.view, Option.bind_eq_bind, Option.bind_eq_some_iff, Option.filter_eq_some_iff, decide_eq_true_eq, pure] at h
  obtain ⟨o, ⟨ho, hk⟩, x, ⟨k, hk', hx⟩, r, hr, h⟩ := h
  obtain rfl := Option.some.inj h
  obtain rfl : x.id = k := Table.key_of_find hx
  have hoi : o.id = i := Table.key_of_find ho
  exact ⟨⟨hoi ▸ ho, hk, hk', hx, Table.find_mem (List.mem_of_find?_eq_some hr), by simpa using List.find?_some hr⟩, hoi⟩

/-! ## Referential integrity -/

/-- the columns the trigger `immutable_operation` protects -/
def OperationRow.intent (o : OperationRow) :
    OperationKind × String × Option String × Option String × Option String × ℤ × String × Parameters :=
  (o.kind, o.zoneId, o.groupId, o.hostId, o.capacityRequestId, o.targetRevision, o.providerToken, o.parameters)

/-- the columns of a host that say to what it belongs -/
def Host.refs (h : Host) : Option String × Option String × Option String × Option String :=
  (h.operationId, h.nodeGroupId, h.nodePoolId, h.craneZone)

/-- the columns of a reservation other than its state -/
def Reservation.refs (r : Reservation) : String × String × ℤ × ℤ × ℤ := (r.groupId, r.hostId, r.vcpu, r.memoryMib, r.nodes)

/-- `i` is a provision operation of host `k` -/
def DB.Owns (d : DB) (i k : String) : Prop :=
  ∃ o, d.operations.find i = some o ∧ o.kind = .provision ∧ o.hostId = some k

/-- every operation, host and reservation of one state is in the other, with the same references; a new node binding
names a host and its operation -/
structure SameRefs (d d' : DB) : Prop where
  ops : ∀ i, (d'.operations.find i).map OperationRow.intent = (d.operations.find i).map OperationRow.intent
  hosts : ∀ i, (d'.hosts.find i).map Host.refs = (d.hosts.find i).map Host.refs
  res : ∀ i, (d'.reservations.find i).map Reservation.refs = (d.reservations.find i).map Reservation.refs
  bindings : ∀ k b', d'.provisioning.find k = some b' →
    (∃ b, d.provisioning.find k = some b ∧ b.operationId = b'.operationId) ∨ d.Owns b'.operationId k

theorem DB.Owns.congr {d d' : DB} {i k : String} (h : d.Owns i k)
    (hs : (d'.operations.find i).map OperationRow.intent = (d.operations.find i).map OperationRow.intent) :
    d'.Owns i k := by
  obtain ⟨o, ho, hk, hh⟩ := h
  obtain ⟨o', ho', hi⟩ := exists_of_map_eq hs.symm ho
  simp only [OperationRow.intent, Prod.mk.injEq] at hi
  exact ⟨o', ho', hi.1.trans hk, hi.2.2.2.1.trans hh⟩

theorem SameRefs.refl (d : DB) : SameRefs d d :=
  ⟨fun _ => rfl, fun _ => rfl, fun _ => rfl, fun _ b hb => .inl ⟨b, hb, rfl⟩⟩

theorem SameRefs.trans {d d' d'' : DB} (h : SameRefs d d') (h' : SameRefs d' d'') : SameRefs d d'' := by
  refine ⟨fun i => (h'.ops i).trans (h.ops i), fun i => (h'.hosts i).trans (h.hosts i),
    fun i => (h'.res i).trans (h.res i), fun k b'' hb'' => ?_⟩
  rcases h'.bindings k b'' hb'' with ⟨b', hb', e⟩ | ho
  · rw [← e]
    exact h.bindings k b' hb'
  · exact .inr (ho.congr (h.ops _).symm)

theorem SameRefs.put_operation {d : DB} {o o' : OperationRow} (h : d.operations.find o'.id = some o)
    (hi : o'.intent = o.intent) : SameRefs d (d.put (.operation o')) :=
  ⟨Table.map_find_put _ _ h hi, fun _ => rfl, fun _ => rfl, fun _ b hb => .inl ⟨b, hb, rfl⟩⟩

theorem SameRefs.put_host {d : DB} {h h' : Host} (hf : d.hosts.find h'.id = some h) (hr : h'.refs = h.refs) :
    SameRefs d (d.put (.host h')) :=
  ⟨fun _ => rfl, Table.map_find_put _ _ hf hr, fun _ => rfl, fun _ b hb => .inl ⟨b, hb, rfl⟩⟩

/-- storing a node binding of a host and its operation -/
theorem SameRefs.put_provisioning {d : DB} {b : ProvisioningState} (h : (∃ b', d.provisioning.find b.hostId = some b' ∧
    b'.operationId = b.operationId) ∨ d.Owns b.operationId b.hostId) : SameRefs d (d.put (.provisioning b)) := by
  refine ⟨fun _ => rfl, fun _ => rfl, fun _ => rfl, fun k b' hb' => ?_⟩
  simp only [DB.put, Table.find_put] at hb'
  split_ifs at hb' with hk
  · obtain rfl := Option.some.inj hb'
    exact hk ▸ h
  · exact .inl ⟨b', hb', rfl⟩

/-- every provision operation has a host of its group that names it back and a reservation; hosts, reservations and
tokens are not shared; the hosts of a group have an operation; node bindings name a host and its operation -/
structure DB.WF (d : DB) : Prop where
  opHost : ∀ i o, d.operations.find i = some o → o.kind = .provision →
    ∃ k h, o.hostId = some k ∧ d.hosts.find k = some h ∧ h.operationId = some i ∧ h.nodeGroupId = o.groupId
  opRes : ∀ i o, d.operations.find i = some o → o.kind = .provision →
    ∃ j r, d.reservations.find j = some r ∧ o.hostId = some r.hostId
  hostOp : ∀ k h i, d.hosts.find k = some h → h.operationId = some i →
    ∃ o, d.operations.find i = some o ∧ o.kind = .provision ∧ o.hostId = some k
  managed : ∀ k h, d.hosts.find k = some h → h.nodeGroupId ≠ none → h.operationId ≠ none
  resOne : ∀ j j' r r', d.reservations.find j = some r → d.reservations.find j' = some r' → r.hostId = r'.hostId → j = j'
  token : ∀ i i' o o', d.operations.find i = some o → d.operations.find i' = some o' →
    o.providerToken = o'.providerToken → i = i'
  bound : ∀ k b, d.provisioning.find k = some b → d.Owns b.operationId k

theorem DB.WF.of_sameRefs {d d' : DB} (hw : d.WF) (hs : SameRefs d d') : d'.WF where
  opHost i o' ho' hk := by
    obtain ⟨o, ho, hi⟩ := exists_of_map_eq (hs.ops i) ho'
    simp only [OperationRow.intent, Prod.mk.injEq] at hi
    obtain ⟨k, h, h₁, h₂, h₃⟩ := hw.opHost i o ho (hi.1.trans hk)
    obtain ⟨h', hh', hr⟩ := exists_of_map_eq (hs.hosts k).symm h₂
    simp only [Host.refs, Prod.mk.injEq] at hr
    exact ⟨k, h', hi.2.2.2.1 ▸ h₁, hh', hr.1.trans h₃.1, hr.2.1.trans (h₃.2.trans hi.2.2.1)⟩
  opRes i o' ho' hk := by
    obtain ⟨o, ho, hi⟩ := exists_of_map_eq (hs.ops i) ho'
    simp only [OperationRow.intent, Prod.mk.injEq] at hi
    obtain ⟨j, r, h₁, h₂⟩ := hw.opRes i o ho (hi.1.trans hk)
    obtain ⟨r', hr', hr⟩ := exists_of_map_eq (hs.res j).symm h₁
    simp only [Reservation.refs, Prod.mk.injEq] at hr
    exact ⟨j, r', hr', by rw [← hi.2.2.2.1, h₂, hr.2.1]⟩
  hostOp k h' i hh' hi' := by
    obtain ⟨h, hh, hr⟩ := exists_of_map_eq (hs.hosts k) hh'
    simp only [Host.refs, Prod.mk.injEq] at hr
    obtain ⟨o, h₁, h₂, h₃⟩ := hw.hostOp k h i hh (hr.1.trans hi')
    obtain ⟨o', ho', hi⟩ := exists_of_map_eq (hs.ops i).symm h₁
    simp only [OperationRow.intent, Prod.mk.injEq] at hi
    exact ⟨o', ho', hi.1.trans h₂, hi.2.2.2.1.trans h₃⟩
  managed k h' hh' hg := by
    obtain ⟨h, hh, hr⟩ := exists_of_map_eq (hs.hosts k) hh'
    simp only [Host.refs, Prod.mk.injEq] at hr
    rw [← hr.1]
    exact hw.managed k h hh (hr.2.1 ▸ hg)
  resOne j j' r₁ r₂ h₁ h₂ he := by
    obtain ⟨s₁, g₁, e₁⟩ := exists_of_map_eq (hs.res j) h₁
    obtain ⟨s₂, g₂, e₂⟩ := exists_of_map_eq (hs.res j') h₂
    simp only [Reservation.refs, Prod.mk.injEq] at e₁ e₂
    exact hw.resOne j j' s₁ s₂ g₁ g₂ (by rw [e₁.2.1, e₂.2.1, he])
  token i i' o₁ o₂ h₁ h₂ he := by
    obtain ⟨s₁, g₁, e₁⟩ := exists_of_map_eq (hs.ops i) h₁
    obtain ⟨s₂, g₂, e₂⟩ := exists_of_map_eq (hs.ops i') h₂
    simp only [OperationRow.intent, Prod.mk.injEq] at e₁ e₂
    exact hw.token i i' s₁ s₂ g₁ g₂ (by rw [e₁.2.2.2.2.2.2.1, e₂.2.2.2.2.2.2.1, he])
  bound k b hb := by
    rcases hs.bindings k b hb with ⟨b', hb', e⟩ | ho
    · exact e ▸ (hw.bound k b' hb').congr (hs.ops _)
    · exact ho.congr (hs.ops _)

theorem Catalog.wf (c : Catalog) : c.db.WF where
  opHost _ _ h := by simp [Catalog.db] at h
  opRes _ _ h := by simp [Catalog.db] at h
  hostOp _ h _ hf hi := by simp [(c.unmanaged h (Table.mem_of_find hf)).1] at hi
  managed _ h hf hg := absurd (c.unmanaged h (Table.mem_of_find hf)).2 hg
  resOne _ _ _ _ h := by simp [Catalog.db] at h
  token _ _ _ _ h := by simp [Catalog.db] at h
  bound _ _ h := by simp [Catalog.db] at h

theorem Catalog.not_isView (c : Catalog) (v : View) : ¬c.db.IsView v := fun h => by simpa [Catalog.db] using h.op

/-! ## Views under WF -/

theorem DB.WF.exists_view {d : DB} (hw : d.WF) {i : String} {o : OperationRow} (ho : d.operations.find i = some o)
    (hk : o.kind = .provision) : ∃ v, d.IsView v ∧ v.op = o := by
  obtain ⟨k, h, h₁, h₂, -⟩ := hw.opHost i o ho hk
  obtain ⟨j, r, h₃, h₄⟩ := hw.opRes i o ho hk
  have hid := Table.key_of_find ho
  have hhid := Table.key_of_find h₂
  have hrid := Table.key_of_find h₃
  have hr : r.hostId = k := by simpa [h₁] using h₄.symm
  exact ⟨⟨o, h, r⟩, ⟨hid ▸ ho, hk, hhid ▸ h₁, hhid ▸ h₂, hrid ▸ h₃, hr.trans hhid.symm⟩, rfl⟩

theorem DB.isView_tick {d : DB} {v : View} {n : ℕ} : (d.tick n).IsView v ↔ d.IsView v :=
  ⟨fun h => ⟨h.op, h.kind, h.hostId, h.host, h.res, h.resHost⟩, fun h => ⟨h.op, h.kind, h.hostId, h.host, h.res, h.resHost⟩⟩

theorem DB.WF.tick {d : DB} (hw : d.WF) (n : ℕ) : (d.tick n).WF :=
  ⟨hw.opHost, hw.opRes, hw.hostOp, hw.managed, hw.resOne, hw.token, hw.bound⟩

/-- the host of a view names its operation -/
theorem DB.WF.view_host {d : DB} (hw : d.WF) {v : View} (hv : d.IsView v) :
    v.host.operationId = some v.op.id ∧ v.host.nodeGroupId = v.op.groupId := by
  obtain ⟨k, h, h₁, h₂, h₃⟩ := hw.opHost _ _ hv.op hv.kind
  have hk : k = v.host.id := by simpa [hv.hostId] using h₁.symm
  subst hk
  rw [hv.host] at h₂
  exact (Option.some.inj h₂) ▸ h₃

theorem DB.WF.view_host_op {d : DB} (hw : d.WF) {v : View} (hv : d.IsView v) : v.host.operationId = some v.op.id :=
  (hw.view_host hv).1

/-- the host of a group is the host of a view -/
theorem DB.WF.view_of_host {d : DB} (hw : d.WF) {k : String} {h : Host} (hf : d.hosts.find k = some h)
    (hg : h.nodeGroupId ≠ none) : ∃ v, d.IsView v ∧ v.host = h := by
  obtain ⟨i, hi⟩ := Option.ne_none_iff_exists'.mp (hw.managed k h hf hg)
  obtain ⟨o, ho, hk, hoh⟩ := hw.hostOp k h i hf hi
  obtain ⟨v, hv, rfl⟩ := hw.exists_view ho hk
  have hid : v.host.id = k := Option.some.inj (hv.hostId.symm.trans hoh)
  exact ⟨v, hv, Option.some.inj (hv.host.symm.trans (hid ▸ hf))⟩

/-- a host belongs to one view -/
theorem DB.WF.op_eq_of_host {d : DB} (hw : d.WF) {v w : View} (hv : d.IsView v) (hv' : d.IsView w)
    (h : v.host.id = w.host.id) : v.op.id = w.op.id := by
  have e : v.host = w.host := Option.some.inj (hv.host.symm.trans ((congrArg d.hosts.find h).trans hv'.host))
  have := hw.view_host_op hv
  rw [e, hw.view_host_op hv'] at this
  exact (Option.some.inj this).symm

/-- an operation has one view -/
theorem DB.WF.view_unique {d : DB} (hw : d.WF) {v w : View} (hv : d.IsView v) (hv' : d.IsView w)
    (h : v.op.id = w.op.id) : v = w := by
  have ho : v.op = w.op := Option.some.inj (hv.op.symm.trans ((congrArg d.operations.find h).trans hv'.op))
  have hid : v.host.id = w.host.id := by
    have := hv.hostId
    rw [ho, hv'.hostId] at this
    exact (Option.some.inj this).symm
  have hh : v.host = w.host := Option.some.inj (hv.host.symm.trans ((congrArg d.hosts.find hid).trans hv'.host))
  have hrid : v.res.id = w.res.id := hw.resOne _ _ _ _ hv.res hv'.res (by rw [hv.resHost, hv'.resHost, hid])
  have hr : v.res = w.res := Option.some.inj (hv.res.symm.trans ((congrArg d.reservations.find hrid).trans hv'.res))
  cases v; cases w
  simp_all

/-! ## What an UPDATE of one row can do to a view -/

theorem isView_put_operation {d : DB} {o o' : OperationRow} (h : d.operations.find o'.id = some o)
    (hi : o'.intent = o.intent) {v : View} (hv : (d.put (.operation o')).IsView v) :
    (v.op.id ≠ o'.id ∧ d.IsView v) ∨ (v.op = o' ∧ d.IsView { v with op := o }) := by
  have hop := hv.op
  simp only [DB.put, Table.find_put] at hop
  split_ifs at hop with hid
  · obtain rfl : o' = v.op := Option.some.inj hop
    simp only [OperationRow.intent, Prod.mk.injEq] at hi
    have hoid := Table.key_of_find h
    refine .inr ⟨rfl, ⟨?_, hi.1 ▸ hv.kind, hi.2.2.2.1 ▸ hv.hostId, hv.host, hv.res, hv.resHost⟩⟩
    simpa [hoid] using h
  · exact .inl ⟨fun e => hid e.symm, ⟨hop, hv.kind, hv.hostId, hv.host, hv.res, hv.resHost⟩⟩

theorem isView_put_host {d : DB} {h h' : Host} (hf : d.hosts.find h'.id = some h) {v : View}
    (hv : (d.put (.host h')).IsView v) :
    (v.host.id ≠ h'.id ∧ d.IsView v) ∨ (v.host = h' ∧ d.IsView { v with host := h }) := by
  have hh := hv.host
  simp only [DB.put, Table.find_put] at hh
  split_ifs at hh with hid
  · obtain rfl : h' = v.host := Option.some.inj hh
    have hhid : h.id = v.host.id := Table.key_of_find hf
    refine .inr ⟨rfl, ⟨hv.op, hv.kind, hv.hostId.trans (by rw [hhid]), ?_, hv.res, hv.resHost.trans hhid.symm⟩⟩
    simpa [hhid] using hf
  · exact .inl ⟨fun e => hid e.symm, ⟨hv.op, hv.kind, hv.hostId, hh, hv.res, hv.resHost⟩⟩

theorem putAll_reservations (l : List Reservation) (d : DB) :
    RowStore.putAll (l.map Row.reservation) d = { d with reservations := d.reservations.putAll l } := by
  induction l generalizing d with
  | nil => rfl
  | cons r l ih => exact ih _

theorem putAll_hosts (l : List Host) (d : DB) :
    RowStore.putAll (l.map Row.host) d = { d with hosts := d.hosts.putAll l } := by
  induction l generalizing d with
  | nil => rfl
  | cons r l ih => exact ih _

/-! ## Steps of one operation -/

/-- only the view of operation `i` changes, as `S` says -/
def Touches (d d' : DB) (i : String) (S : View → View → Prop) : Prop :=
  ∀ v', d'.IsView v' → ∃ v, d.IsView v ∧ v'.op.id = v.op.id ∧ ((v.op.id = i ∧ S v v') ∨ (v.op.id ≠ i ∧ v' = v))

theorem Touches.mono {d d' : DB} {i : String} {S T : View → View → Prop} (h : Touches d d' i S)
    (hST : ∀ v v', d.IsView v → v.op.id = i → S v v' → T v v') : Touches d d' i T := by
  intro v' hv'
  obtain ⟨v, hv, hid, ⟨hi, hs⟩ | hn⟩ := h v' hv'
  · exact ⟨v, hv, hid, .inl ⟨hi, hST v v' hv hi hs⟩⟩
  · exact ⟨v, hv, hid, .inr hn⟩

theorem Touches.trans {d d' d'' : DB} {i : String} {S T : View → View → Prop} (h : Touches d d' i S)
    (h' : Touches d' d'' i T) : Touches d d'' i fun v v'' => ∃ v', S v v' ∧ T v' v'' := by
  intro v'' hv''
  obtain ⟨v', hv', hid', hs'⟩ := h' v'' hv''
  obtain ⟨v, hv, hid, hs⟩ := h v' hv'
  refine ⟨v, hv, hid'.trans hid, ?_⟩
  rcases hs with ⟨hi, hS⟩ | ⟨hi, rfl⟩
  · rcases hs' with ⟨-, hT⟩ | ⟨hi', -⟩
    · exact .inl ⟨hi, v', hS, hT⟩
    · exact absurd (hid.trans hi) hi'
  · rcases hs' with ⟨hi', -⟩ | ⟨-, rfl⟩
    · exact absurd hi' hi
    · exact .inr ⟨hi, rfl⟩

/-- an UPDATE of one operation row -/
theorem touches_put_operation {d : DB} {o o' : OperationRow} (ho : d.operations.find o'.id = some o)
    (hi : o'.intent = o.intent) :
    Touches d (d.put (.operation o')) o'.id fun v v' => v.op = o ∧ v' = { v with op := o' } := by
  intro v' hv'
  rcases isView_put_operation ho hi hv' with ⟨hne, hv⟩ | ⟨rfl, hv⟩
  · exact ⟨v', hv, rfl, .inr ⟨hne, rfl⟩⟩
  · have hid : o.id = v'.op.id := Table.key_of_find ho
    exact ⟨{ v' with op := o }, hv, hid.symm, .inl ⟨hid, rfl, rfl⟩⟩

/-- an UPDATE of the host row of operation `i` -/
theorem touches_put_host {d : DB} (hw : d.WF) {i : String} {o : OperationRow} {h h' : Host}
    (ho : d.operations.find i = some o) (hk : o.kind = .provision) (hh : o.hostId = some h.id)
    (hf : d.hosts.find h.id = some h) (hid : h'.id = h.id) :
    Touches d (d.put (.host h')) i fun v v' => v.op = o ∧ v.host = h ∧ v' = { v with host := h' } := by
  obtain ⟨w, hwv, rfl⟩ := hw.exists_view ho hk
  have hwi : w.op.id = i := Table.key_of_find ho
  have hwh : w.host.id = h.id := by simpa [hwv.hostId] using hh
  intro v' hv'
  rcases isView_put_host (hid ▸ hf) hv' with ⟨hne, hv⟩ | ⟨rfl, hv⟩
  · refine ⟨v', hv, rfl, .inr ⟨fun e => hne ?_, rfl⟩⟩
    rw [hw.view_unique hv hwv (e.trans hwi.symm), hwh, hid]
  · have hop : v'.op.id = w.op.id := hw.op_eq_of_host (v := { v' with host := h }) hv hwv hwh.symm
    have e := hw.view_unique hv hwv hop
    exact ⟨{ v' with host := h }, hv, rfl, .inl ⟨hop.trans hwi, by rw [← e], rfl, rfl⟩⟩

/-- UPDATE infrastructure_reservations of one host -/
theorem touches_put_reservations {d : DB} (hw : d.WF) {i k : String} {o : OperationRow} (p : Reservation → Bool)
    (f : Reservation → Reservation) (hf : ∀ r, (f r).id = r.id ∧ (f r).refs = r.refs)
    (ho : d.operations.find i = some o) (hk : o.kind = .provision) (hh : o.hostId = some k) :
    Touches d (RowStore.putAll (((d.reservations.rows.filter fun r => r.hostId = k && p r).map f).map .reservation) d) i
      fun v v' => v' = { v with res := if p v.res then f v.res else v.res } := by
  rw [putAll_reservations]
  intro v' hv'
  have hres := hv'.res
  rw [Table.find_putAll_map _ f (fun r => (hf r).1) _ (fun r hr => (List.mem_filter.mp hr).1)] at hres
  obtain ⟨r, hr, hr'⟩ := Option.map_eq_some_iff.mp hres
  have hrid : r.id = v'.res.id := Table.key_of_find hr
  have hmem : r ∈ d.reservations.rows.filter (fun r => r.hostId = k && p r) ↔ r.hostId = k ∧ p r = true := by
    simp [List.mem_filter, Table.mem_of_find hr]
  have hhost : r.hostId = v'.host.id := by
    rw [← hv'.resHost, ← hr']
    split_ifs
    · have := (hf r).2
      simp only [Reservation.refs, Prod.mk.injEq] at this
      exact this.2.1.symm
    · rfl
  have hv : d.IsView { v' with res := r } := ⟨hv'.op, hv'.kind, hv'.hostId, hv'.host, hrid ▸ hr, hhost⟩
  refine ⟨{ v' with res := r }, hv, rfl, ?_⟩
  by_cases hi : v'.op.id = i
  · have hkk : v'.host.id = k := by
      have : v'.op = o := Option.some.inj ((hi ▸ hv'.op).symm.trans ho)
      simpa [this, hh] using hv'.hostId.symm
    refine .inl ⟨hi, ?_⟩
    simp only [hmem, hhost, hkk, true_and] at hr'
    simp only [hr']
  · -- another operation's reservation belongs to another host
    have hkk : r.hostId ≠ k := by
      intro e
      obtain ⟨w, hwv, rfl⟩ := hw.exists_view ho hk
      have hwk : w.host.id = k := by simpa [hwv.hostId] using hh
      exact hi ((hw.op_eq_of_host hv hwv (by rw [← hhost, e, hwk])).trans (Table.key_of_find ho))
    refine .inr ⟨hi, ?_⟩
    rw [if_neg (by simp [hmem, hkk])] at hr'
    rw [hr']

theorem sameRefs_put_reservations {d : DB} (p : Reservation → Bool) (f : Reservation → Reservation)
    (hf : ∀ r, (f r).id = r.id ∧ (f r).refs = r.refs) :
    SameRefs d (RowStore.putAll (((d.reservations.rows.filter p).map f).map .reservation) d) := by
  rw [putAll_reservations]
  refine ⟨fun _ => rfl, fun _ => rfl, fun i => ?_, fun _ b hb => .inl ⟨b, hb, rfl⟩⟩
  rw [Table.find_putAll_map _ f (fun r => (hf r).1) _ (fun r hr => (List.mem_filter.mp hr).1)]
  cases d.reservations.find i with
  | none => rfl
  | some r =>
    simp only [Option.map_some]
    split_ifs
    · rw [(hf r).2]
    · rfl

end Crane.Capacity
