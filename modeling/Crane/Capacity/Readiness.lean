/-
READY only through the complete handoff.

Bind, pin, prepare and finalize may each be repeated by another owner after a crash, and any other call may run in
between. Three facts carry the proof. A binding and its pin are only ever extended, whoever writes them. Apart from
finalize no call makes a host READY, and apart from the pin, which holds the host's row while the host is REGISTERING, no
call gives a READY host another version. Finalize holds the six rows it has checked until it commits, so that what it has
checked is true at that moment and was true while the release ran.

Results:
- `readiness_handoff`: in every interleaving, a managed host is READY only with a complete binding of its own operation,
  and became READY at a moment when its membership, zone and cluster admitted it;
- and a release runs only under the current fence, after its intent was committed;
- and bindings and pins, once set, never change.
-/
import Crane.Capacity.Concurrent

namespace Crane.Capacity

open Tx RowStore Interleave

/-! ## Operations and their hosts -/

/-- `h` is the host that operation `o` was admitted with -/
structure HostOf (o : OperationRow) (h : Host) : Prop where
  id : o.hostId = some h.id
  operation : h.operationId = some o.id
  group : h.nodeGroupId = o.groupId

def Paired (d : DB) : Prop := ∀ o ∈ d.operations.rows, o.kind = .provision → ∃ h ∈ d.hosts.rows, HostOf o h

/-- new provision operations come with their hosts -/
def Accompanied (ws : List Row) : Prop :=
  ∀ o, Row.operation o ∈ ws → o.state = .pending → ∃ h, Row.host h ∈ ws ∧ HostOf o h

section Pairs
variable {x : Externals} {c : Call} {d : DB} {ws : List Row}

theorem HostOf.congr {o o' : OperationRow} {h h' : Host} (hp : HostOf o h) (hid : o'.id = o.id)
    (hint : o'.intent = o.intent) (hid' : h'.id = h.id) (hrefs : h'.refs = h.refs) : HostOf o' h' := by
  simp only [OperationRow.intent, Prod.mk.injEq] at hint
  simp only [Host.refs, Prod.mk.injEq] at hrefs
  refine ⟨?_, ?_, ?_⟩
  · rw [hint.2.2.2.1, hp.id, hid']
  · rw [hrefs.1, hp.operation, hid]
  · rw [hrefs.2.1, hp.group, hint.2.2.1]

theorem exists_host_of_columns {d : DB} {k : String} {h : Host}
    (hlook : (look d (Key.host k)).map Row.columns = some (Row.host h).columns) :
    ∃ h' ∈ d.hosts.rows, h'.id = k ∧ h'.refs = h.refs := by
  obtain ⟨r, hr, hcol⟩ := Option.map_eq_some_iff.mp hlook
  obtain ⟨h', hh', rfl⟩ := Option.map_eq_some_iff.mp hr
  exact ⟨h', Table.mem_of_find hh', Table.key_of_find hh', Columns.host.inj hcol⟩

theorem host_kept (hf : Follow (Follows x c) d ws) {h : Host} (hh : h ∈ d.hosts.rows) :
    ∃ h' ∈ (putAll ws d).hosts.rows, h'.id = h.id ∧ h'.refs = h.refs := by
  refine exists_host_of_columns (hf.columns_kept (k := .host h.id) (Follows.columns rfl) ?_)
  simp [DB.look, Table.find_mem hh]

theorem host_stored (hf : Follow (Follows x c) d ws) {h : Host} (hh : Row.host h ∈ ws) :
    ∃ h' ∈ (putAll ws d).hosts.rows, h'.id = h.id ∧ h'.refs = h.refs :=
  exists_host_of_columns (hf.columns_mem (k := .host h.id) (Follows.columns rfl) hh rfl)

/-- provision operations are admitted by `SetTarget` only -/
theorem Call.admits_provision {o : OperationRow} (ha : c.admits o) (hk : o.kind = .provision) :
    c.isSetTarget = true ∧ o.state = .pending := by
  cases c <;> simp_all [Call.admits, Call.isSetTarget]

theorem Paired.putAll (hp : Paired d) (hf : Follow (Follows x c) d ws)
    (hacc : c.isSetTarget = true → Accompanied ws) : Paired (putAll ws d) := by
  intro o ho hk
  have hlook : look (RowStore.putAll ws d) (Key.operation o.id) = some (.operation o) := by
    simp [DB.look, Table.find_mem ho]
  rcases hf.origin (k := .operation o.id) (Follows.columns rfl) hlook with ⟨r, hr, hcol⟩ | ⟨r, hr, hkey, hnew, hcol⟩
  · obtain ⟨o₀, ho₀, rfl⟩ := Option.map_eq_some_iff.mp hr
    have hint := Columns.operation.inj hcol
    have hk₀ : o₀.kind = .provision := (congrArg Prod.fst hint).symm.trans hk
    obtain ⟨h, hh, hof⟩ := hp o₀ (Table.mem_of_find ho₀) hk₀
    obtain ⟨h', hh', hid, hrefs⟩ := host_kept hf hh
    exact ⟨h', hh', hof.congr (Table.key_of_find ho₀).symm hint hid hrefs⟩
  · cases r with
    | operation o₁ =>
      have hint := Columns.operation.inj hcol
      have hk₁ : o₁.kind = .provision := (congrArg Prod.fst hint).symm.trans hk
      rcases hnew.step with ⟨-, hadm⟩ | ⟨_, h, -⟩
      · obtain ⟨hset, hpend⟩ := Call.admits_provision hadm hk₁
        obtain ⟨h, hh, hof⟩ := hacc hset o₁ hr hpend
        obtain ⟨h', hh', hid, hrefs⟩ := host_stored hf hh
        exact ⟨h', hh', hof.congr (Key.operation.inj hkey).symm hint hid hrefs⟩
      · simp at h
    | _ => simp [key_eq, Row.key] at hkey

end Pairs

/-! ## What an admission stores -/

theorem Accompanied.append {ws vs : List Row} (hw : Accompanied ws) (hv : Accompanied vs) : Accompanied (ws ++ vs) := by
  intro o ho hs
  rcases List.mem_append.mp ho with ho | ho
  · obtain ⟨h, hh, hof⟩ := hw o ho hs
    exact ⟨h, List.mem_append_left _ hh, hof⟩
  · obtain ⟨h, hh, hof⟩ := hv o ho hs
    exact ⟨h, List.mem_append_right _ hh, hof⟩

/-- a row that is no pending operation -/
def Row.NoIntent : Row → Prop
  | .operation o => o.state ≠ .pending
  | _ => True

theorem accompanied_of_noIntent {ws : List Row} (h : ∀ r ∈ ws, r.NoIntent) : Accompanied ws :=
  fun _ ho hs => absurd hs (h _ ho)

theorem emits_noIntent {α : Type} {t : StoreTx α} (ht : t.Writes fun _ r => r.NoIntent) :
    t.Emits fun _ ws => Accompanied ws :=
  ht.emits.mono fun _ _ => accompanied_of_noIntent

theorem accompanied_provisionIntent (p : Policy) (requestId : String) (revision : ℤ) (u : Uuids) :
    (provisionIntent p requestId revision u).Emits fun _ ws => Accompanied ws := by
  refine Emits.bind (R := fun _ ws => ∃ d, ws = [.operation (intentOperation p requestId revision u d)])
    (emits_execute fun d rows hr => ?_) fun _ ws hws => Emits.bind (R := fun _ vs => ∃ d, vs = [.host (intentHost p u d)])
    (emits_execute fun d rows hr => ?_) fun _ vs hvs => emits_execute fun d rows hr => ?_
  · split_ifs at hr
    obtain rfl := Except.ok.inj hr
    exact ⟨d, rfl⟩
  · split_ifs at hr
    obtain rfl := Except.ok.inj hr
    exact ⟨d, rfl⟩
  · split_ifs at hr
    obtain rfl := Except.ok.inj hr
    obtain ⟨d₁, rfl⟩ := hws
    obtain ⟨d₂, rfl⟩ := hvs
    intro o ho _
    simp only [List.mem_append, List.mem_singleton, Row.operation.injEq, reduceCtorEq, or_false] at ho
    subst ho
    exact ⟨intentHost p u d₂, by simp, rfl, rfl, rfl⟩

theorem accompanied_provisionIntents (p : Policy) (requestId : String) (revision : ℤ) (u : Uuids) (n : ℕ) :
    (provisionIntents p requestId revision u n).Emits fun _ ws => Accompanied ws := by
  induction n with
  | zero => exact accompanied_of_noIntent (by simp)
  | succ n ih =>
    refine ih.bind fun _ ws hws => (accompanied_provisionIntent p _ _ _).mono fun _ vs hvs => ?_
    exact hws.append hvs

theorem accompanied_bind {α β : Type} {t : StoreTx α} {f : α → StoreTx β} (ht : t.Writes fun _ r => r.NoIntent)
    (hf : ∀ a, (f a).Emits fun _ ws => Accompanied ws) : (t.bind f).Emits fun _ ws => Accompanied ws :=
  (emits_noIntent ht).bind fun a _ hws => (hf a).mono fun _ _ hvs => hws.append hvs

/-- `SetTarget` stores each new operation together with its host -/
theorem accompanied_setTarget (req : CapacityRequest) (u : Uuids) :
    (setTarget req u).Emits fun _ ws => Accompanied ws := by
  have hnil : ∀ {α : Type} (a : α), (done a : StoreTx α).Emits fun _ ws => Accompanied ws := fun _ =>
    accompanied_of_noIntent (by simp)
  refine accompanied_bind (writes_require _ _) fun _ => accompanied_bind (writes_loadPolicy _) fun p =>
    accompanied_bind (writes_require _ _) fun _ => accompanied_bind (writes_select _) fun prev => ?_
  cases prev with
  | some row => exact accompanied_bind (writes_require _ _) fun _ => hnil _
  | none =>
    refine accompanied_bind (writes_require _ _) fun _ => accompanied_bind (writes_require _ _) fun _ =>
      accompanied_bind (writes_require _ _) fun _ => accompanied_bind (writes_require _ _) fun _ =>
      accompanied_bind (writes_selectForUpdate _ _) fun _ => accompanied_bind (writes_orFail _ _) fun _ =>
      accompanied_bind (Writes.when ?_) fun _ => accompanied_bind (Writes.when ?_) fun _ =>
      accompanied_bind (writes_execute fun d rows hr => ?_) fun _ =>
      accompanied_bind (writes_updateTarget (fun _ _ _ _ => trivial) _ _) fun _ =>
      (accompanied_provisionIntents _ _ _ _ _).bind fun _ ws hws => ?_
    · exact (writes_require _ _).bind fun _ => (writes_select _).bind fun _ => writes_require _ _
    · exact (writes_select _).bind fun _ => writes_require _ _
    · split_ifs at hr
      obtain rfl := Except.ok.inj hr
      exact ⟨trivial, trivial⟩
    · refine Emits.mono (fun _ vs hvs => hws.append hvs) (accompanied_bind (Writes.when ?_) fun _ => hnil _)
      exact writes_cancelPending (fun o n => by simp [Row.NoIntent, OperationRow.cancelled]) (fun _ _ => trivial)
        (fun _ => trivial) (fun _ => trivial) _ _

/-! ## Complete bindings -/

def Host.managed (h : Host) : Bool := h.nodeGroupId.isSome

/-- the binding `b` of host `h` went through the whole handoff -/
structure Complete (x : Externals) (h : Host) (b : ProvisioningState) : Prop where
  operation : h.operationId = some b.operationId
  name : b.nodeName = x.workerNodeName h.id
  started : b.releaseStarted = true
  pinned : ∃ e, b.expectedState = some e ∧ e.revision = 1 ∧ e.version = h.desiredStateVersion

def ReadyComplete (x : Externals) (d : DB) : Prop :=
  ∀ h ∈ d.hosts.rows, h.managed = true → h.state = .ready → ∃ b, d.provisioning.find h.id = some b ∧ Complete x h b

def Named (x : Externals) (d : DB) : Prop := ∀ b ∈ d.provisioning.rows, b.nodeName = x.workerNodeName b.hostId

/-- bindings are only extended -/
def Extended (d d' : DB) : Prop :=
  ∀ i b, d.provisioning.find i = some b → ∃ b', d'.provisioning.find i = some b' ∧ b.Extends b'

section Puts
variable {x : Externals} {c : Call} {d : DB} {ws : List Row} {r : Row}

theorem ProvisioningState.Extends.trans {b b' b'' : ProvisioningState} (h : b.Extends b') (h' : b'.Extends b'') :
    b.Extends b'' :=
  ⟨h'.identity.trans h.identity, fun e he => h'.pinned e (h.pinned e he), fun hs => h'.started (h.started hs)⟩

theorem Extended.refl (d : DB) : Extended d d := fun _ b hb => ⟨b, hb, .refl b⟩

theorem Extended.trans {d d' d'' : DB} (h : Extended d d') (h' : Extended d' d'') : Extended d d'' := by
  intro i b hb
  obtain ⟨b', hb', he⟩ := h i b hb
  obtain ⟨b'', hb'', he'⟩ := h' i b' hb'
  exact ⟨b'', hb'', he.trans he'⟩

theorem extended_put (hr : Follows x c (d.look r.key) r) : Extended d (d.put r) := by
  cases r with
  | provisioning b' =>
    intro i b hb
    by_cases hi : b'.hostId = i
    · subst hi
      rcases hr.step with ⟨hnone, -⟩ | ⟨b₀, hold, he⟩
      · simp [DB.look, Row.key, hb] at hnone
      · obtain rfl : b = b₀ := by simpa [DB.look, Row.key, hb] using hold
        exact ⟨b', by simp [DB.put], he⟩
    · exact ⟨b, by simpa [DB.put, Table.find_put_ne _ hi] using hb, .refl b⟩
  | _ => exact Extended.refl d

theorem extended_putAll (hf : Follow (Follows x c) d ws) : Extended d (putAll ws d) :=
  hf.keeps (I := Extended d) (fun _ _ hr hd => hd.trans (extended_put hr)) (.refl d)

theorem Named.put (h : Named x d) (hr : Follows x c (d.look r.key) r) : Named x (d.put r) := by
  cases r with
  | provisioning b' =>
    intro b hb
    rcases Table.mem_put.mp hb with rfl | ⟨hb, -⟩
    · rcases hr.step with ⟨-, hname⟩ | ⟨b₀, hold, he⟩
      · exact hname
      · have hold : d.provisioning.find b.hostId = some b₀ := by simpa [DB.look, Row.key] using hold
        have hid := he.identity
        simp only [ProvisioningState.identity, Prod.mk.injEq] at hid
        rw [hid.2.1, h b₀ (Table.mem_of_find hold), Table.key_of_find hold]
    · exact h b hb
  | _ => exact h

theorem Complete.extends {h : Host} {b b' : ProvisioningState} (hc : Complete x h b) (he : b.Extends b') :
    Complete x h b' := by
  have hid := he.identity
  simp only [ProvisioningState.identity, Prod.mk.injEq] at hid
  obtain ⟨e, hpin, hrev, hver⟩ := hc.pinned
  exact ⟨hid.1 ▸ hc.operation, hid.2.1.trans hc.name, he.started hc.started, e, he.pinned e hpin, hrev, hver⟩

theorem Complete.congr {h h' : Host} {b : ProvisioningState} (hc : Complete x h b) (hid : h'.id = h.id)
    (hrefs : h'.refs = h.refs) (hv : h'.desiredStateVersion = h.desiredStateVersion) : Complete x h' b := by
  simp only [Host.refs, Prod.mk.injEq] at hrefs
  exact ⟨hrefs.1.trans hc.operation, hid ▸ hc.name, hc.started, hv ▸ hc.pinned⟩

/-- a version that makes no host READY and gives no READY host another version keeps the bindings complete -/
theorem ReadyComplete.put (h : ReadyComplete x d) (hr : Follows x c (d.look r.key) r)
    (hhost : ∀ k k', r = .host k' → d.hosts.find k'.id = some k → k'.state = .ready →
      k.state = .ready ∧ k'.desiredStateVersion = k.desiredStateVersion) : ReadyComplete x (d.put r) := by
  cases r with
  | host k' =>
    intro k hk hm hready
    rcases Table.mem_put.mp hk with rfl | ⟨hk, -⟩
    · rcases hr.step with ⟨-, hreq⟩ | ⟨k₀, hold, hf⟩
      · simp [hready] at hreq
      · have hold : d.hosts.find k.id = some k₀ := by simpa [DB.look, Row.key] using hold
        have hid : k.id = k₀.id := (Table.key_of_find hold).symm
        obtain ⟨hready₀, hv⟩ := hhost k₀ k rfl hold hready
        have hm₀ : k₀.managed = true := by
          have hrefs := hf.refs
          simp only [Host.refs, Prod.mk.injEq] at hrefs
          rw [Host.managed, ← hrefs.2.1]
          exact hm
        obtain ⟨b, hb, hc⟩ := h k₀ (Table.mem_of_find hold) hm₀ hready₀
        exact ⟨b, hid ▸ hb, hc.congr hid hf.refs hv⟩
    · exact h k hk hm hready
  | provisioning b' =>
    intro k hk hm hready
    obtain ⟨b, hb, hc⟩ := h k hk hm hready
    obtain ⟨b', hb', he⟩ := extended_put hr k.id b hb
    exact ⟨b', hb', hc.extends he⟩
  | _ => exact h

end Puts

/-! ## The protocol -/

/-- membership, zone and cluster of the host's group admit it -/
def GroupReady (d : DB) (h : Host) : Prop :=
  ∃ g m z k, h.nodeGroupId.bind d.nodeGroups.find = some g ∧
    d.clusterZones.find (g.clusterId, g.zoneId) = some m ∧ m.admitted = true ∧
    d.zones.find g.zoneId = some z ∧ z.enabled = true ∧ z.lifecycle = .ready ∧
    d.clusters.find g.clusterId = some k ∧ k.lifecycle = .ready

/-- host `h` was READY before already -/
def WasReady (d : DB) (h : Host) : Prop := ∃ h₀ ∈ d.hosts.rows, h₀.id = h.id ∧ h₀.state = .ready

structure Handoff (cat : Catalog) (x : Externals) (w : StoreWorld) : Prop where
  topology : SameTopology cat w.db
  paired : Paired w.db
  named : Named x w.db
  ready : ReadyComplete x w.db
  moments : ∀ e ∈ w.log, ∀ h ∈ e.after.hosts.rows, h.managed = true → h.state = .ready →
    WasReady e.before h ∨ GroupReady e.before h

/-- the release of `op` may run: its intent is committed and its fence is the current one -/
def MayRelease (d : DB) (op : Operation) : Prop :=
  ∃ o b, d.operations.find op.id = some o ∧ o.fence = op.fence ∧ o.lease.map Lease.owner = some op.leaseOwner ∧
    d.provisioning.find op.hostId = some b ∧ b.operationId = op.id ∧ b.releaseStarted = true

def readinessProtocol (cat : Catalog) (x : Externals) : StoreProtocol where
  Inv := Handoff cat x
  rely _ w w' := Extended w.db w'.db
  guard := Follows x
  atCall c _ _ w := match c with
    | .finalizeProvision op _ => MayRelease w.db op
    | _ => True
  refl _ w := .refl w.db
  trans h h' := h.trans h'
  mono _ h := h

section Endings
variable {cat : Catalog} {x : Externals} {c : Call} {h : Set Key} {ws : List Row} {w : StoreWorld}
  {out : Except Err Reply}

theorem Handoff.finish (hi : Handoff cat x w) (hf : Follow (Follows x c) w.db ws)
    (hacc : c.isSetTarget = true → Accompanied ws) (hready : ReadyComplete x (putAll ws w.db))
    (hmom : ∀ h ∈ (putAll ws w.db).hosts.rows, h.managed = true → h.state = .ready → WasReady w.db h ∨ GroupReady w.db h) :
    Handoff cat x (w.finish c out ws) where
  topology := hi.topology.putAll hf
  paired := hi.paired.putAll hf hacc
  named := hf.keeps (I := Named x) (fun _ _ hr hd => hd.put hr) hi.named
  ready := hready
  moments e he := by
    rcases List.mem_append.mp he with he | he
    · exact hi.moments e he
    · obtain rfl := List.mem_singleton.mp he
      exact hmom

/-- a call ends well if it keeps the bindings complete and admits the hosts it makes READY -/
theorem readiness_ends (hacc : c.isSetTarget = true → Accompanied ws)
    (hend : ∀ w', (readinessProtocol cat x).Rely h w w' → Ending (readinessProtocol cat x) c h ws w' →
      ReadyComplete x (putAll ws w'.db) ∧
      ∀ h ∈ (putAll ws w'.db).hosts.rows, h.managed = true → h.state = .ready → WasReady w'.db h ∨ GroupReady w'.db h) :
    Ends (readinessProtocol cat x) c out h ws w := by
  intro w' hr he
  obtain ⟨hready, hmom⟩ := hend w' hr he
  exact ⟨he.inv.finish he.follow hacc hready hmom, fun _ _ => extended_putAll he.follow⟩

theorem wasReady_of_mem {d : DB} {h : Host} (hh : h ∈ d.hosts.rows) (hs : h.state = .ready) : WasReady d h :=
  ⟨h, hh, rfl, hs⟩

/-- a call that stores nothing -/
theorem readiness_ends_nil : Ends (readinessProtocol cat x) c out h [] w :=
  readiness_ends (fun _ => accompanied_of_noIntent (by simp)) fun _ _ he =>
    ⟨he.inv.ready, fun _ hh _ hs => .inl (wasReady_of_mem hh hs)⟩

/-- only finalize makes hosts READY -/
theorem wasReady_putAll (hc : c.isFinalize = false) {d : DB} (hf : Follow (Follows x c) d ws) :
    ∀ h ∈ (putAll ws d).hosts.rows, h.state = .ready → WasReady d h := by
  refine hf.keeps (I := fun d' : DB => ∀ h ∈ d'.hosts.rows, h.state = .ready → WasReady d h) (fun r d' hr hd => ?_)
    fun h hh hs => wasReady_of_mem hh hs
  cases r with
  | host h' =>
    intro h hh hs
    rcases Table.mem_put.mp hh with rfl | ⟨hh, -⟩
    · rcases hr.step with ⟨-, hreq⟩ | ⟨h₀, hold, hfol⟩
      · simp [hs] at hreq
      · have hold : d'.hosts.find h.id = some h₀ := by simpa [DB.look, Row.key] using hold
        have hs₀ : h₀.state = .ready := (hfol.ready hs).resolve_right (by simp [hc])
        obtain ⟨h₁, hh₁, hid, hs₁⟩ := hd h₀ (Table.mem_of_find hold) hs₀
        exact ⟨h₁, hh₁, hid.trans (Table.key_of_find hold), hs₁⟩
    · exact hd h hh hs
  | _ => exact hd

theorem readyComplete_putAll (hc : c.isFinalize = false) (hp : c.isPin = false) {d : DB} (h : ReadyComplete x d)
    (hf : Follow (Follows x c) d ws) : ReadyComplete x (putAll ws d) := by
  refine hf.keeps (I := ReadyComplete x) (fun r d' hr hd => hd.put hr fun k k' hk' hk hs => ?_) h
  subst hk'
  rcases hr.step with ⟨hnone, -⟩ | ⟨k₀, hold, hfol⟩
  · simp [DB.look, Row.key, hk] at hnone
  · obtain rfl : k = k₀ := by simpa [DB.look, Row.key, hk] using hold
    have hready : k.state = .ready := (hfol.ready hs).resolve_right (by simp [hc])
    exact ⟨hready, (hfol.desired hready).resolve_right (by simp [hp])⟩

/-- a host with a complete binding may become READY -/
theorem ReadyComplete.put_ready {d : DB} (h : ReadyComplete x d) {k : Host} {b : ProvisioningState}
    (hb : d.provisioning.find k.id = some b) (hc : Complete x k b) : ReadyComplete x (d.put (.host k)) := by
  intro k' hk' hm hs
  rcases Table.mem_put.mp hk' with rfl | ⟨hk', -⟩
  · exact ⟨b, hb, hc⟩
  · exact h k' hk' hm hs

theorem readyComplete_of_rows {d : DB} (h : ReadyComplete x d) (hf : Follow (Follows x c) d ws)
    (hws : ∀ k, Row.host k ∈ ws → k.state ≠ .ready) : ReadyComplete x (putAll ws d) := by
  refine hf.keeps_mem (I := ReadyComplete x) (fun r hr d' hstep hd => hd.put hstep fun k k' hk' _ hs => ?_) h
  subst hk'
  exact absurd hs (hws k' hr)

/-- calls that are neither the pin nor the last step -/
theorem readiness_other (hc : c.isFinalize = false) (hp : c.isPin = false) (w : StoreWorld) :
    Interleave.Safe (readinessProtocol cat x) c (code x c) ∅ [] w := by
  have hemits : (code x c).Emits fun _ ws => c.isSetTarget = true → Accompanied ws := by
    cases hs : c.isSetTarget with
    | false => exact (emits_true _).mono fun _ _ _ h => by simp at h
    | true =>
      cases c <;> simp only [Call.isSetTarget, Bool.false_eq_true] at hs
      refine (accompanied_setTarget _ _).bind fun _ ws hws => ?_
      exact fun _ => by simpa using hws
  refine safe_of_emits hemits (fun y vs w' => ?_) fun out h ws w' hok herr he => ?_
  · cases c <;> trivial
  · have hacc : c.isSetTarget = true → Accompanied ws := by
      cases out with
      | ok a => exact hok a rfl
      | error e =>
        obtain rfl := herr e rfl
        exact fun _ => accompanied_of_noIntent (by simp)
    refine ⟨he.inv.finish he.follow hacc (readyComplete_putAll hc hp he.inv.ready he.follow) ?_,
      fun _ _ => extended_putAll he.follow⟩
    exact fun k hk _ hs => .inl (wasReady_putAll hc he.follow k hk hs)

/-! ## The pin -/

theorem pinTarget_spec {d : DB} {op : Operation} {t : OperationRow × Host} (h : pinTarget d op = some t) :
    d.hosts.find op.hostId = some t.2 ∧ t.2.state = .registering := by
  simp only [pinTarget, Option.bind_eq_bind, Option.bind_eq_some_iff, Option.ite_none_right_eq_some,
    Option.some.injEq] at h
  obtain ⟨o, -, k, hk, hs, rfl⟩ := h
  exact ⟨hk, hs⟩

/-- the pin gives another version only to a host that is REGISTERING, and holds its row -/
theorem readiness_pin (op : Operation) (e : ExpectedHostState) :
    Interleave.Safe (readinessProtocol cat x) (.pinProvisionExpectedState op e) (code x (.pinProvisionExpectedState op e)) ∅ [] w := by
  refine wp_bind (wp_require_bind (fun _ => readiness_ends_nil) fun _ => wp_selectForUpdate_bind fun w₁ hr₁ hi₁ =>
    wp_orFail_bind (fun _ => readiness_ends_nil) fun t ht => wp_updateReturning_bind fun w₂ hr₂ hi₂ =>
    wp_orFail_bind (fun _ => readiness_ends_nil) fun pinned hpin => wp_require_bind (fun _ => readiness_ends_nil) fun _ =>
    wp_update_bind fun w₃ hr₃ hi₃ => ?_)
  obtain ⟨hk, hs⟩ := pinTarget_spec ht
  -- the host's row is held from the first statement on
  have hlock : Key.host op.hostId ∈ (∅ ∪ {k | k ∈ (pinTarget (putAll [] w₁.db) op).toList.flatMap fun t =>
      [Key.operation t.1.id, Key.host t.2.id]} : Set Key) := by
    rw [ht]
    simp [Table.key_of_find hk]
  have hk₂ : w₂.db.hosts.find op.hostId = some t.2 := by
    simpa [DB.look, show w₁.db.hosts.find op.hostId = some t.2 from hk] using hr₂.frozen _ hlock
  have hk₃ : w₃.db.hosts.find op.hostId = some t.2 := by
    simpa [DB.look, hk₂] using hr₃.frozen _ (.inl hlock)
  obtain ⟨⟨row, p⟩, hq, rfl⟩ := Option.map_eq_some_iff.mp hpin
  obtain ⟨b, -, hb⟩ := Option.map_eq_some_iff.mp hq
  obtain ⟨rfl, rfl⟩ := Prod.mk.inj hb
  refine readiness_ends (by simp [Call.isSetTarget]) fun w' hr he => ?_
  refine ⟨readyComplete_of_rows he.inv.ready he.follow fun k hmem => ?_,
    fun k hk' _ hs' => .inl (wasReady_putAll rfl he.follow k hk' hs')⟩
  rw [hq] at hmem
  have hhosts : ∀ d : DB, (putAll ([] ++ [Row.provisioning
      { b with expectedState := some (b.expectedState.getD e) }]) d).hosts = d.hosts := fun _ => rfl
  simp only [Option.toList_some, List.map_cons, List.map_nil, hhosts, hk₃] at hmem
  simp only [List.nil_append, List.cons_append, List.mem_cons, reduceCtorEq, List.not_mem_nil, or_false, false_or,
    Row.host.injEq] at hmem
  simp [hmem, hs]

/-! ## The last step -/

/-- what finalize has found of the rows it locks, apart from the clock -/
structure Checked (op : Operation) (version : String) (t : FinalizeTarget) (d : DB) : Prop where
  row : d.operations.find op.id = some t.op
  fence : t.op.fence = op.fence
  owner : t.op.lease.map Lease.owner = some op.leaseOwner
  kind : t.op.kind = .provision
  hostId : t.op.hostId = some op.hostId
  host : d.hosts.find op.hostId = some t.host
  converging : t.host.state = .converging
  desired : t.host.desiredStateVersion = version
  binding : d.provisioning.find op.hostId = some t.binding
  bindingOp : t.binding.operationId = op.id
  started : t.binding.releaseStarted = true
  pins : t.binding.pins version = true
  group : ∃ g, t.op.groupId.bind d.nodeGroups.find = some g ∧
    d.clusterZones.find (g.clusterId, g.zoneId) = some t.membership ∧ t.membership.admitted = true ∧
    d.zones.find g.zoneId = some t.zone ∧ t.zone.enabled = true ∧ t.zone.lifecycle = .ready ∧
    d.clusters.find g.clusterId = some t.cluster ∧ t.cluster.lifecycle = .ready

theorem checked_of_target {d : DB} {op : Operation} {version : String} {t : FinalizeTarget}
    (h : finalizeTarget d op version = some t) : Checked op version t d := by
  have hs := finalizeTarget_spec h
  obtain ⟨g, hg, hm, hz, hk⟩ := hs.group
  have hheld := hs.held
  simp only [OperationRow.heldBy, Bool.and_eq_true, decide_eq_true_eq, Option.any_eq_true] at hheld
  obtain ⟨hfence, l, hl, howner, -⟩ := hheld
  exact ⟨hs.row, hfence, by simp [hl, howner], hs.kind, hs.hostId, hs.host, hs.converging, hs.desired, hs.binding,
    hs.bindingOp, hs.started, hs.pins, g, hg, hm, hs.admitted, hz, hs.zoneReady.1, hs.zoneReady.2, hk, hs.clusterReady⟩

/-- the six rows are held, so what was found of them stays true -/
theorem Checked.rely {op : Operation} {version : String} {t : FinalizeTarget} {w w' : StoreWorld} {h : Set Key}
    (hc : Checked op version t w.db) (hlock : ∀ k ∈ t.keys, k ∈ h) (hi : Handoff cat x w) (hi' : Handoff cat x w')
    (hr : (readinessProtocol cat x).Rely h w w') : Checked op version t w'.db := by
  obtain ⟨g, hg, hm, hadm, hz, hen, hzr, hk, hkr⟩ := hc.group
  obtain ⟨i, hgi, hgrow⟩ := Option.bind_eq_some_iff.mp hg
  obtain ⟨g', hg', hfix⟩ := exists_of_map_eq ((hi'.topology.groups i).trans (hi.topology.groups i).symm).symm hgrow
  simp only [NodeGroup.fixed, Prod.mk.injEq] at hfix
  have hrow : w'.db.operations.find op.id = some t.op := by
    have := hr.frozen (.operation op.id) (hlock _ (by simp [FinalizeTarget.keys, Table.key_of_find hc.row]))
    simpa [DB.look, hc.row] using this
  have hhost : w'.db.hosts.find op.hostId = some t.host := by
    have := hr.frozen (.host op.hostId) (hlock _ (by simp [FinalizeTarget.keys, Table.key_of_find hc.host]))
    simpa [DB.look, hc.host] using this
  have hbind : w'.db.provisioning.find op.hostId = some t.binding := by
    have := hr.frozen (.provisioning op.hostId) (hlock _ (by simp [FinalizeTarget.keys, Table.key_of_find hc.binding]))
    simpa [DB.look, hc.binding] using this
  have hmem : w'.db.clusterZones.find (g.clusterId, g.zoneId) = some t.membership := by
    have := hr.frozen (.clusterZone (g.clusterId, g.zoneId))
      (hlock _ (by simp [FinalizeTarget.keys, Table.key_of_find hm]))
    simpa [DB.look, hm] using this
  have hzone : w'.db.zones.find g.zoneId = some t.zone := by
    have := hr.frozen (.zone g.zoneId) (hlock _ (by simp [FinalizeTarget.keys, Table.key_of_find hz]))
    simpa [DB.look, hz] using this
  have hcl : w'.db.clusters.find g.clusterId = some t.cluster := by
    have := hr.frozen (.cluster g.clusterId) (hlock _ (by simp [FinalizeTarget.keys, Table.key_of_find hk]))
    simpa [DB.look, hk] using this
  refine { hc with row := hrow, host := hhost, binding := hbind, group := ⟨g', ?_, ?_, hadm, ?_, hen, hzr, ?_, hkr⟩ }
  · rw [hgi]
    exact hg'
  · rw [hfix.1, hfix.2.1]
    exact hmem
  · rw [hfix.2.1]
    exact hzone
  · rw [hfix.1]
    exact hcl

theorem Checked.mayRelease {op : Operation} {version : String} {t : FinalizeTarget} {d : DB}
    (hc : Checked op version t d) : MayRelease d op :=
  ⟨t.op, t.binding, hc.row, hc.fence, hc.owner, hc.binding, hc.bindingOp, hc.started⟩

/-- the host that becomes READY has a complete binding, and its group admits it -/
theorem Checked.complete {op : Operation} {version : String} {t : FinalizeTarget}
    (hc : Checked op version t w.db) (hi : Handoff cat x w) : Complete x t.host t.binding ∧ GroupReady w.db t.host := by
  obtain ⟨h, hh, hof⟩ := hi.paired t.op (Table.mem_of_find hc.row) hc.kind
  have hid : h.id = op.hostId := Option.some.inj (hof.id.symm.trans hc.hostId)
  obtain rfl : h = t.host := Option.some.inj ((Table.find_mem hh).symm.trans (hid ▸ hc.host))
  have hop : t.op.id = t.binding.operationId := (Table.key_of_find hc.row).trans hc.bindingOp.symm
  have hname := hi.named t.binding (Table.mem_of_find hc.binding)
  rw [Table.key_of_find hc.binding, ← hid] at hname
  have hpins := hc.pins
  simp only [ProvisioningState.pins, Option.any_eq_true, Bool.and_eq_true, decide_eq_true_eq] at hpins
  obtain ⟨e, he, hver, hrev⟩ := hpins
  obtain ⟨g, hg, hm, hadm, hz, hen, hzr, hk, hkr⟩ := hc.group
  refine ⟨⟨hop ▸ hof.operation, hname, hc.started, e, he, hrev, hver.trans hc.desired.symm⟩, ?_⟩
  exact ⟨g, t.membership, t.zone, t.cluster, hof.group ▸ hg, hm, hadm, hz, hen, hzr, hk, hkr⟩

/-- finalize releases under its fence and makes only the host it has checked READY -/
theorem readiness_finalize (op : Operation) (version : String) :
    Interleave.Safe (readinessProtocol cat x) (.finalizeProvision op version) (code x (.finalizeProvision op version)) ∅ [] w := by
  refine wp_bind (wp_selectForUpdate_bind fun w₁ hr₁ hi₁ => wp_orFail_bind (fun _ => readiness_ends_nil) fun t ht => ?_)
  have hc₁ : Checked op version t w₁.db := checked_of_target ht
  have hlock : ∀ k ∈ t.keys, k ∈ (∅ ∪ {k | k ∈ (finalizeTarget (putAll [] w₁.db) op version).toList.flatMap
      FinalizeTarget.keys} : Set Key) := by
    rw [ht]
    simp
  refine wp_external_bind (fun w₂ hr₂ hi₂ => (hc₁.rely hlock hi₁ hi₂ hr₂).mayRelease) fun w₂ released hr₂ hi₂ =>
    wp_require_bind (fun _ => readiness_ends_nil) fun _ => wp_bind (wp_updateOne (fun _ _ => readiness_ends_nil)
    fun w₃ r hr₃ hi₃ hfinal => wp_updateOne (fun _ _ => readiness_ends_nil) fun w₄ r' hr₄ hi₄ hdone => ?_)
  have hc₂ := hc₁.rely hlock hi₁ hi₂ hr₂
  have hc₃ := hc₂.rely hlock hi₂ hi₃ hr₃
  have hc₄ := hc₃.rely (fun k hk => .inl (hlock k hk)) hi₃ hi₄ hr₄
  obtain ⟨k, hfin, rfl⟩ := Option.map_eq_some_iff.mp hfinal
  obtain ⟨o', -, rfl⟩ := Option.map_eq_some_iff.mp hdone
  -- the host found again is the one that was checked
  obtain ⟨o, ho, -, hok, hk, -⟩ := finalHost_spec hfin
  obtain rfl : t.op = o := Option.some.inj (hc₃.row.symm.trans ho)
  have hid : k.id = op.hostId := Option.some.inj (hok.symm.trans hc₃.hostId)
  obtain rfl : k = t.host := Option.some.inj (hk.symm.trans (hid ▸ hc₃.host))
  refine readiness_ends (by simp [Call.isSetTarget]) fun w' hr he => ?_
  have hc := hc₄.rely (fun k hk => .inl (.inl (hlock k hk))) hi₄ he.inv hr
  obtain ⟨hcomp, hgroup⟩ := hc.complete he.inv
  refine ⟨he.inv.ready.put_ready (hid ▸ hc.binding) (hcomp.congr rfl rfl rfl), fun k' hk' _ hs' => ?_⟩
  rcases Table.mem_put.mp hk' with rfl | ⟨hk', -⟩
  · exact .inr hgroup
  · exact .inl (wasReady_of_mem hk' hs')

theorem readiness_implements (cat : Catalog) (x : Externals) :
    Implements (readinessProtocol cat x) (code x) DB.tick where
  writes c := code_writes x c
  safe c w _ := by
    cases hf : c.isFinalize with
    | true =>
      cases c <;> simp only [Call.isFinalize, Bool.false_eq_true] at hf
      exact readiness_finalize _ _
    | false =>
      cases hp : c.isPin with
      | true =>
        cases c <;> simp only [Call.isPin, Bool.false_eq_true] at hp
        exact readiness_pin _ _
      | false => exact readiness_other hf hp w
  tick_look := DB.look_tick
  tick_inv _ _ hi := { hi with topology := { hi.topology with } }
  tick_rely _ _ w _ := Extended.refl w.db

end Endings

/-! ## Readiness -/

/-- the fenced handoff, as seen in the run `acts` and in all its continuations -/
structure FencedHandoff (x : Externals) (cat : Catalog) (acts : List StoreAct) : Prop where
  /-- READY needs the complete binding of the host's own operation -/
  ready : ReadyComplete x (concurrently x cat acts).world.db
  /-- hosts become READY only while membership, zone and cluster of their group admit them -/
  moments : ∀ e ∈ (concurrently x cat acts).world.log, ∀ h ∈ e.after.hosts.rows, h.managed = true →
    h.state = .ready → WasReady e.before h ∨ GroupReady e.before h
  /-- whenever finalize stands at its release, the intent is committed and the fence is current -/
  release : ∀ i op version called next ws,
    (concurrently x cat acts).txns i = some ⟨.finalizeProvision op version, .call called next, ws⟩ →
    MayRelease (concurrently x cat acts).world.db op
  /-- bindings, pins and release intents never change once set -/
  kept : ∀ more i b, (concurrently x cat acts).world.db.provisioning.find i = some b →
    ∃ b', (concurrently x cat (acts ++ more)).world.db.provisioning.find i = some b' ∧ b.Extends b'

/-- **READY is reached only through the complete fenced handoff.** From any catalog, in every interleaving of the store's
calls, with releases that fail or whose answer is lost. -/
theorem readiness_handoff (x : Externals) (cat : Catalog) (acts : List StoreAct) : FencedHandoff x cat acts := by
  have hinit : Handoff cat x ⟨cat.db, []⟩ := by
    refine ⟨⟨fun _ => rfl, fun _ => rfl, fun _ => rfl, fun _ => rfl, fun _ => rfl⟩, fun o ho => ?_, fun b hb => ?_,
      fun h hh hm => ?_, fun e he => ?_⟩
    · simp [Catalog.db, Table.empty] at ho
    · simp [Catalog.db, Table.empty] at hb
    · have hnone := (cat.unmanaged h hh).2
      simp [Host.managed, hnone] at hm
    · simp at he
  have hP := readiness_implements cat x
  have hi := run_inv hP acts cat.db hinit
  exact ⟨hi.ready, hi.moments, fun i op version called next ws ht => run_call hP acts cat.db hinit i _ called next ws ht,
    fun more => run_rely hP acts more cat.db hinit⟩

namespace Fleet

/-- the claimed operation of the first host of the group -/
def provisioning : Operation := { id := "r1-2", hostId := "r1-1", leaseOwner := "dom", fence := 1 }

/-- the stages from the admission to READY, each a transaction of its own -/
def handoff : List Call :=
  [retargeting "r1" 0 1, .claimDominator "z" .provision "dom" oneDay fun _ => false,
    .beginLaunch provisioning, .setProvisionState provisioning .requested .provisioning,
    .recordLaunchWithAddress provisioning "i-1" ⟨"10.0.0.1", true⟩ "aws:///r-a/i-1",
    .setProvisionState provisioning .booting .registering,
    .bindProvisionNode provisioning ⟨"r1-1", "uid", "aws:///r-a/i-1", String.ofList (List.replicate 64 'a')⟩,
    .pinProvisionExpectedState provisioning { revision := 1, version := "v1" },
    .setProvisionState provisioning .registering .converging, .prepareProvisionRelease provisioning "v1",
    .finalizeProvision provisioning "v1"]

end Fleet

-- the handoff completes: after the last stage the host is READY
example : ((concurrently Fleet.externals Fleet.catalog (Fleet.handoff.flatMap fun c =>
    [.begin 0 c] ++ List.replicate 20 (.exec 0) ++ [.answer 0 true, .exec 0, .exec 0, .finish 0])).world.db.hosts.find
    "r1-1").map Host.state = some .ready := by
  decide +kernel

end Crane.Capacity
