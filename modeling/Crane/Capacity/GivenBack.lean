/-
Is capacity given back for a machine that may exist?

A controller that called the provider and got an error back gives its lease up: the operation is `pending` again, without
a lease, while its host stays PROVISIONING. `cancelPending` takes such an operation for one that was never launched, so a
decrease of the target cancels it, terminates its host and releases its reservation although the machine may be running
(`given_back_after_lost_launch`). A decrease that meets no such operation gives nothing back that may exist.
-/
import Crane.Capacity.Agreement

namespace Crane.Capacity

/-- the host is past the REQUESTED state and was not given up -/
def Started (s : HostState) : Prop := s ≠ .requested ∧ s ≠ .terminated

theorem ViewStep.started {now : ℕ} {c : Call} {v v' : View} (h : ViewStep now c v v') (hs : Started v.host.state) :
    Started v'.host.state := by
  cases h with
  | recordLaunch _ op p ip np z endpoint host hh hl hp hr =>
    rw [(Host.launchedAs_spec hr).state]
    split_ifs
    · exact ⟨by simp, by simp⟩
    · exact hs
  | setState _ op expected next hh hl hst hn =>
    cases expected <;> simp only [HostState.handoff, Option.some.injEq, reduceCtorEq] at hn <;> subst hn <;>
      exact ⟨by simp, by simp⟩
  | finalize => exact ⟨by simp, by simp⟩
  | _ => exact hs

/-! ## Orphaned operations -/

/-- `pending` without a lease, with a host that is PROVISIONING already -/
def orphaned (d : DB) (o : OperationRow) : Bool :=
  o.kind = .provision && o.state = .pending && o.lease.isNone &&
    (o.hostId.bind d.hosts.find).any fun h => h.state = .provisioning

/-- the action does not lower the target of a group that has an orphaned operation -/
def sparesOrphans (s : St) : Act → Bool
  | .call (.setTarget req _) => (s.db.nodeGroups.find req.nodeGroupId).all fun g =>
      g.targetNodes ≤ req.desiredTarget ||
        s.db.operations.rows.all fun o => !(o.groupId = some req.nodeGroupId && orphaned s.db o)
  | _ => true

theorem not_orphaned {s : St} {req : CapacityRequest} {u : Uuids} {g : NodeGroup} {v : View}
    (h : sparesOrphans s (.call (.setTarget req u)) = true) (hg : s.db.nodeGroups.find req.nodeGroupId = some g)
    (hlt : req.desiredTarget < g.targetNodes) (hv : s.db.IsView v) (hvg : v.op.groupId = some req.nodeGroupId)
    (hc : v.Cancellable) : v.host.state ≠ .provisioning := by
  intro hs
  simp only [sparesOrphans, hg, Option.all_some, Bool.or_eq_true, decide_eq_true_eq, List.all_eq_true] at h
  have ho := h.resolve_left (by omega) v.op (Table.mem_of_find hv.op)
  simp [orphaned, hvg, hv.kind, hc.pending, hc.lease, hv.hostId, hv.host, hs] at ho

/-! ## Runs that spare orphans -/

/-- every operation whose provider call was sent keeps a host that was started -/
structure Kept (cat : Catalog) (s : St) : Prop where
  inv : Inv cat Started s
  agrees : ∀ v, s.db.IsView v → Agrees v
  issued : ∀ j ∈ s.issued, ∃ v, s.db.IsView v ∧ v.op.id = j ∧ Started v.host.state

theorem kept_init (cat : Catalog) : Kept cat (St.init cat) where
  inv := inv_init cat _
  agrees v hv := absurd hv (cat.not_isView v)
  issued _ h := by simp [St.init] at h

theorem Change.started {cat : Catalog} {s : St} {a : Act} {v v' : View} (h : Change cat s a v v')
    (ha : sparesOrphans s a = true) (hv : s.db.IsView v) (hs : Started v.host.state) : Started v'.host.state := by
  cases h with
  | same => exact hs
  | step c hstep => exact hstep.started hs
  | decrease req u g he hg hlt hsteps =>
    subst he
    rcases decrease_outcome hsteps with (rfl | ⟨rfl, -⟩) | ⟨hc, hvg, -⟩
    · exact hs
    · exact hs
    · rcases hc.host with h | h
      · exact absurd h hs.1
      · exact absurd h (not_orphaned ha hg hlt hv hvg hc)

theorem step_kept {w : World} {cat : Catalog} {s : St} {a : Act} (ha : sparesOrphans s a = true) (h : Kept cat s) :
    Kept cat (s.step w a) where
  inv := (act_inv ⟨by simp, by simp⟩ h.inv a fun _ _ hv hv' hid hs =>
    (act_change h.inv hv hv' hid).started ha hv hs).observe
  agrees v' hv' := by
    rcases act_view h.inv hv' with ⟨-, hinit⟩ | ⟨v, hv, -, hc⟩
    · exact hinit.agrees
    · exact ((h.agrees v hv).change hc).1
  issued j hj := by
    rcases act_issued h.inv hj with hj | ⟨v, hv, hid, hs⟩
    · obtain ⟨v, hv, hid, hs⟩ := h.issued j hj
      obtain ⟨v', hv', hid', hc⟩ := act_view_of (w := w) (a := a) h.inv hv
      exact ⟨v', hv', hid'.trans hid, hc.started ha hv hs⟩
    · exact ⟨v, hv, hid, hs⟩

/-! ## Results -/

/-- **A machine that may exist keeps its capacity as long as orphans are spared.** In every run in which no decrease of a
target meets an orphaned operation of its group: once the provider was called for an operation, the operation is not
`cancelled`, its host is not TERMINATED and its reservation is not `released`. -/
theorem not_given_back (w : World) (cat : Catalog) (acts : List Act)
    (h : AllSteps w (fun s a => sparesOrphans s a = true) (St.init cat) acts) (j : String)
    (hj : j ∈ ((St.init cat).run w acts).issued) (v : View) (hv : ((St.init cat).run w acts).db.IsView v)
    (hid : v.op.id = j) : v.op.state ≠ .cancelled ∧ v.host.state ≠ .terminated ∧ v.res.state ≠ .released := by
  have hk : Kept cat ((St.init cat).run w acts) := run_induction (fun _ _ ha h => step_kept ha h) h (kept_init cat)
  obtain ⟨u, hu, hidu, hs⟩ := hk.issued j hj
  obtain rfl := hk.inv.wf.view_unique hu hv (hidu.trans hid.symm)
  have hc := (hk.agrees u hu).consistent
  exact ⟨fun e => hs.2 (hc.cancelled.mp e), hs.2, fun e => hs.2 (hc.released.mpr e)⟩

/-- a decrease after the launch was recorded: the host is kept and marked -/
theorem not_given_back_recorded : ∃ v, (Fleet.after (Fleet.launched false ++ [.ask 0 {}, Fleet.retarget "r2" 1 0])).db.view
    "r1-2" = some v ∧ v.host.excessCapacity = true ∧ v.op.state ≠ .cancelled ∧ v.host.state ≠ .terminated ∧
    v.res.state ≠ .released := by
  have hany : ((Fleet.after (Fleet.launched false ++ [.ask 0 {}, Fleet.retarget "r2" 1 0])).db.view "r1-2").any
      (fun v => v.host.excessCapacity) = true := by decide +kernel
  obtain ⟨v, hv, he⟩ := (Option.any_eq_true _ _).mp hany
  obtain ⟨hview, hid⟩ := DB.isView_of_view hv
  exact ⟨v, hv, he, not_given_back Fleet.world Fleet.catalog _ (by decide +kernel) "r1-2" (by decide +kernel) v hview hid⟩

/-- the answer to the launch is lost, so the controller records the failure and gives the lease back; then the target
is lowered -/
def Fleet.lostLaunch : List Act := Fleet.launched true ++ [.ask 0 {}, .ask 0 {}, Fleet.retarget "r2" 1 0]

/-- the machine exists and its capacity was given back -/
theorem given_back_after_lost_launch :
    (Fleet.after Fleet.lostLaunch).cloud.map (fun i => (i.id, i.input.tags.lookup "CraneOperationID")) =
      [("i-1", some "r1-2")] ∧
    "r1-2" ∈ (Fleet.after Fleet.lostLaunch).issued ∧
    ((Fleet.after Fleet.lostLaunch).db.view "r1-2").map (fun v => (v.op.state, v.host.state, v.res.state)) =
      some (.cancelled, .terminated, .released) := by
  decide +kernel

end Crane.Capacity
