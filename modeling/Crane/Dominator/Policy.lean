/-
Policy results on their way to a host: the resolver (`internal/dominator/resolver.go`) reads three texts out of what the
policy returns, `PinProvisionExpectedState` stores them for good, and Subd checks them again (`validateExpected`).

The three checks differ. The resolver takes any text, the pin looks at the version only, and Subd wants an image and a
track with every version. Results, over all runs of the fleet:
- if every policy result has an image of 1 to 256 bytes and a track of 1 to 64, whatever is pinned passes Subd's checks,
  all deliveries of an operation send one content, and a Subd that accepted nothing or that content does not refuse it;
- a policy with an empty image gets pinned for good, and Subd refuses every delivery.

Texts are UTF-8. A Starlark text that is not grows when it is stored as JSON, and its length was checked before.
-/
import Crane.Capacity.System
import Crane.Subd.Server

namespace Crane.Dominator

open Capacity

/-! ## The resolver -/

/-- what `resolve` of a policy returns; a member that is not a text is `none` -/
inductive StarlarkValue where
  | dict (members : List (String × Option String))
  | other
deriving DecidableEq, Repr

inductive ResolveError where
  | notDict
  | missing (key : String)
  | panic -- a member of another type
deriving DecidableEq, Repr

/-- `get` of `starlarkResultToDesiredState` -/
def member (members : List (String × Option String)) (key : String) : Except ResolveError String :=
  match members.lookup key with
  | none => .error (.missing key)
  | some none => .error .panic
  | some (some s) => .ok s

def starlarkResultToDesiredState : StarlarkValue → Except ResolveError DesiredState
  | .other => .error .notDict
  | .dict members => do
    let imageId ← member members "image_id"
    let track ← member members "track"
    let version ← member members "version"
    return ⟨imageId, track, version, [], []⟩

theorem resolved_plain {v : StarlarkValue} {d : DesiredState} (h : starlarkResultToDesiredState v = .ok d) :
    d.services = [] ∧ d.packages = [] := by
  cases v with
  | other => simp [starlarkResultToDesiredState] at h
  | dict members =>
    simp only [starlarkResultToDesiredState, bind, Except.bind] at h
    split at h
    · simp at h
    split at h
    · simp at h
    split at h
    · simp at h
    obtain rfl := Except.ok.inj h
    exact ⟨rfl, rfl⟩

/-- an image and a track that Subd takes -/
def Deliverable (d : DesiredState) : Prop :=
  d.imageId ≠ "" ∧ d.imageId.utf8ByteSize ≤ 256 ∧ d.track ≠ "" ∧ d.track.utf8ByteSize ≤ 64

instance (d : DesiredState) : Decidable (Deliverable d) := inferInstanceAs (Decidable (_ ∧ _))

/-- a policy result with such an image and track -/
def Resolved (d : DesiredState) : Prop := (∃ v, starlarkResultToDesiredState v = .ok d) ∧ Deliverable d

/-- the policy result in an action -/
def resolution : Act → Option DesiredState
  | .ask _ a => a.desired
  | _ => none

/-- the policy answers with such results only -/
def Resolves (a : Act) : Prop := ∀ d, resolution a = some d → Resolved d

/-! ## What is stored -/

/-- Subd takes the state as it is, and it is the first one -/
def Good (e : ExpectedHostState) : Prop := e.revision = 1 ∧ (Subd.update e).accepted = some e

/-- the pin's checks and the policy's cover Subd's -/
theorem good_expected {d : DesiredState} (hd : Resolved d) (hv : d.version ≠ "") (hl : d.version.utf8ByteSize ≤ 128) :
    Good d.expected := by
  obtain ⟨⟨v, h⟩, hi, hi', ht, ht'⟩ := hd
  obtain ⟨hs, hp⟩ := resolved_plain h
  refine ⟨rfl, ?_⟩
  simp [Subd.HostStateUpdate.accepted, Subd.validateExpected, Subd.versionFields, Subd.update, DesiredState.expected,
    hs, hp, hi, hi', ht, ht', hv, hl]

/-- the operation's binding holds the state -/
def Pinned (d : DB) (op : Operation) (e : ExpectedHostState) : Prop :=
  ∃ b, d.provisioning.find op.hostId = some b ∧ b.operationId = op.id ∧ b.expectedState = some e

/-- an expected state in the row was there before -/
def KeepsState (old : Option Row) : Row → Prop
  | .provisioning b' => ∀ e, b'.expectedState = some e → ∃ b, old = some (.provisioning b) ∧ b.expectedState = some e
  | _ => True

theorem keepsState_other {x : Externals} {c : Call} (hc : RowKind.provisioning ∉ c.writes) (old : Option Row) (new : Row)
    (h : Follows x c old new) : KeepsState old new := by
  cases new with
  | provisioning b => exact absurd h.kind hc
  | _ => trivial

theorem bindProvisionNode_keepsState (x : Externals) (op : Operation) (n : NodeBinding) :
    (bindProvisionNode x.workerNodeName op n).Writes KeepsState := by
  refine (Tx.writes_require _ _).bind fun _ => Tx.writes_execute fun d rows hr => ?_
  split at hr
  · simp at hr
  · simp at hr
  · rename_i b hb
    obtain rfl := Except.ok.inj hr
    obtain ⟨o, -, -, -, hbh, -, -, hold | ⟨-, hnone, -⟩⟩ := bindRow_spec hb
    · rw [← hbh] at hold
      exact ⟨fun e he => ⟨b, by simp [look_eq, key_eq, DB.look, Row.key, hold], he⟩, trivial⟩
    · exact ⟨fun e he => by simp [hnone] at he, trivial⟩

theorem prepareProvisionRelease_keepsState (op : Operation) (v : String) :
    (prepareProvisionRelease op v).Writes KeepsState := by
  refine writes_updateOne_map fun d b hb => ?_
  obtain ⟨o, k, -, -, -, -, -, hf, -⟩ := prepareRow_spec hb
  rw [DB.look_provisioning { b with releaseStarted := true } hf rfl]
  exact fun e he => ⟨b, rfl, he⟩

/-- only the pin sets an expected state -/
theorem code_keepsState (x : Externals) {c : Call} (hc : c.isPin = false) : (code x c).Writes KeepsState := by
  cases c with
  | bindProvisionNode op n => exact (bindProvisionNode_keepsState x op n).bind fun _ => trivial
  | prepareProvisionRelease op v => exact (prepareProvisionRelease_keepsState op v).bind fun _ => trivial
  | pinProvisionExpectedState op e => simp [Call.isPin] at hc
  | _ => exact (code_writes x _).mono (keepsState_other (by simp [Call.writes]))

section Call
variable {x : Externals} {ans : Operation → Bool} {c : Call} {d : DB} {y : Reply × DB}

/-- a pinned state stays -/
theorem Pinned.code {op : Operation} {e : ExpectedHostState} (h : Pinned d op e)
    (hr : (code x c).run ans d = .ok y) : Pinned y.2 op e := by
  refine (code_writes x c).run_keeps (I := fun d' => Pinned d' op e) (fun r d' hf hd => ?_) hr h
  obtain ⟨b, hb, ho, he⟩ := hd
  cases r with
  | provisioning b' =>
    by_cases hk : b'.hostId = op.hostId
    · have hlook : d'.look (Row.provisioning b').key = some (.provisioning b) := by simp [DB.look, Row.key, hk, hb]
      have hs := hf.step
      simp only [RowStep, look_eq, key_eq, hlook, reduceCtorEq, false_and, Option.some.injEq, Row.provisioning.injEq,
        exists_eq_left', false_or] at hs
      have hid : b'.operationId = b.operationId := congrArg Prod.fst hs.identity
      exact ⟨b', by simpa [DB.put, hk] using Table.find_put_self d'.provisioning b', hid.trans ho, hs.pinned e he⟩
    · exact ⟨b, by simpa [DB.put] using (Table.find_put_ne d'.provisioning hk).trans hb, ho, he⟩
  | _ => exact ⟨b, hb, ho, he⟩

/-- every stored expected state is good -/
def AllGood (d : DB) : Prop := ∀ k b e, d.provisioning.find k = some b → b.expectedState = some e → Good e

theorem AllGood.put {b' : ProvisioningState} (h : AllGood d) (hb : ∀ e, b'.expectedState = some e → Good e) :
    AllGood (d.put (.provisioning b')) := by
  intro k b e hk he
  simp only [DB.put, Table.find_put] at hk
  split_ifs at hk
  · obtain rfl := Option.some.inj hk
    exact hb e he
  · exact h k b e hk he

/-- a pin whose state comes from the policy or from the store -/
theorem AllGood.pin {op : Operation} {e : ExpectedHostState} (h : AllGood d)
    (he : Pinned d op e ∨ ∃ s, Resolved s ∧ e = s.expected)
    (hr : (Capacity.code x (.pinProvisionExpectedState op e)).run ans d = .ok y) :
    AllGood y.2 ∧ ∀ e', y.1 = .pinned e' → Pinned y.2 op e' := by
  simp only [Capacity.code, Tx.bind_eq, Tx.run_bind_ok] at hr
  obtain ⟨z, hz, hy⟩ := hr
  obtain ⟨o, k, b, -, hb, hbo, hchecked, hz1, -, -, hz2⟩ := pinProvisionExpectedState_ok hz
  obtain rfl := Except.ok.inj hy
  have hid : b.hostId = op.hostId := Table.key_of_find hb
  have hgood : Good z.1 := by
    rw [hz1]
    cases hp : b.expectedState with
    | some e' => exact h _ b e' hb hp
    | none =>
      rcases he with ⟨b', hb', -, hp'⟩ | ⟨s, hs, rfl⟩
      · obtain rfl := Option.some.inj (hb.symm.trans hb')
        simp [hp] at hp'
      · exact good_expected hs hchecked.2.1 hchecked.2.2.1
  refine ⟨?_, fun e' he' => ?_⟩
  · simp only [hz2]
    exact h.put fun e' he' => Option.some.inj he' ▸ hgood
  · obtain rfl := Reply.pinned.inj he'
    simp only [hz2]
    exact ⟨{ b with expectedState := some z.1 }, by simp [DB.put, hid], hbo, rfl⟩

theorem AllGood.code (h : AllGood d) (hc : c.isPin = false) (hr : (code x c).run ans d = .ok y) : AllGood y.2 := by
  refine (code_keepsState x hc).run_keeps (I := AllGood) (fun r d' hk hd => ?_) hr h
  cases r with
  | provisioning b' =>
    refine hd.put fun e he => ?_
    obtain ⟨b, hb, hbe⟩ := hk e he
    have hb : d'.provisioning.find b'.hostId = some b := by simpa [DB.look, Row.key] using hb
    exact hd _ b e hb hbe
  | _ => exact hd

end Call

/-! ## What a controller knows -/

/-- what an answer told a controller -/
inductive Known where
  | stored (op : Operation) (e : ExpectedHostState)
  | resolved (d : DesiredState)

def Known.Holds (d : DB) : Known → Prop
  | .stored op e => Pinned d op e
  | .resolved s => Resolved s

/-- a controller pins what it read or resolved, and delivers what it read -/
def backed : Request → List Known → Prop
  | .store (.pinProvisionExpectedState op e), g => .stored op e ∈ g ∨ ∃ s, .resolved s ∈ g ∧ e = s.expected
  | .deliver op _ e, g => .stored op e ∈ g
  | _, _ => True

def learn : (q : Request) → q.Answer → List Known → List Known
  | .binding op, .ok b, g => (b.expectedState.map (Known.stored op)).toList ++ g
  | .resolve _ _, some s, g => .resolved s :: g
  | .store (.pinProvisionExpectedState op _), .ok (.pinned e), g => .stored op e :: g
  | _, _, g => g

/-- the rest of a round keeps to what the controller knows -/
abbrev Backed (p : Ctl Unit) (g : List Known) : Prop :=
  p.Along backed (fun _ _ => True) learn (fun _ _ => True) g

/-- neither a pin nor a delivery -/
def Free : Request → Prop
  | .store c => c.isPin = false
  | .deliver _ _ _ => False
  | _ => True

theorem backed_of_free {q : Request} (h : Free q) (g : List Known) : backed q g := by
  cases q with
  | store c =>
    cases c with
    | pinProvisionExpectedState op e => simp [Free, Call.isPin] at h
    | _ => trivial
  | deliver op h e => exact absurd h id
  | _ => trivial

theorem free_store {c : Call} (hc : c.isPin = false) : (store c).Asks Free :=
  ⟨hc, fun r => by cases r <;> trivial⟩

theorem free_retryable (op : Operation) (category : String) : (retryable op category).Asks Free :=
  Prog.asks_bind (free_store rfl) fun _ => Prog.asks_bind (free_store rfl) fun _ => trivial

theorem free_release (op : Operation) : ((store (.releaseProvisionLease op)).bind fun _ => .ret ()).Asks Free :=
  Prog.asks_bind (free_store rfl) fun _ => trivial

theorem free_launchStage (op : Operation) (h : Host) : (launchStage op h).Asks Free := by
  unfold launchStage
  refine Prog.asks_bind (free_store rfl) fun _ => ?_
  by_cases hs : h.state = .requested
  · rw [if_pos hs]
    refine Prog.asks_bind (free_store rfl) fun _ => ⟨trivial, fun r => ?_⟩
    cases r with
    | none => exact free_retryable op _
    | some r =>
      simp only [Prog.ret_bind]
      exact Prog.asks_bind (free_store rfl) fun _ => free_release op
  · rw [if_neg hs]
    refine ⟨trivial, fun r => ?_⟩
    cases r with
    | none => exact free_retryable op _
    | some r =>
      simp only [Prog.ret_bind]
      exact Prog.asks_bind (free_store rfl) fun _ => free_release op

theorem free_readinessStage (op : Operation) (h : Host) : (readinessStage op h).Asks Free := by
  refine ⟨trivial, fun r => ?_⟩
  rcases r with _ | _ | _
  · exact free_retryable op _
  · exact free_release op
  · change ((store (.prepareProvisionRelease op h.desiredStateVersion)).bind _).Asks _
    refine Prog.asks_bind (free_store rfl) fun _ => ⟨rfl, fun r => ?_⟩
    cases r with
    | error e => exact free_retryable op _
    | ok _ => trivial

theorem backed_free {p : Ctl Unit} (hp : p.Asks Free) (g : List Known) : Backed p g :=
  Prog.along_of_asks (fun _ _ => trivial) (hp.mono fun _ => backed_of_free) g

/-- the pin offers what was read or resolved, and what the pin returns is delivered -/
theorem backed_deliver (op : Operation) (h : Host) (g : List Known) :
    (deliverExpectedState op h).Along backed (fun _ _ => True) learn (fun _ _ => True) g := by
  refine ⟨trivial, fun b _ => ?_⟩
  cases b with
  | error e => trivial
  | ok b =>
    change ((expectedRequest op h b).bind _).Along _ _ _ _ _
    unfold expectedRequest
    cases hb : b.expectedState with
    | some e =>
      refine ⟨.inl (by simp [learn, hb]), fun r _ => ?_⟩
      rcases r with _ | (_ | _ | _ | _ | _) <;>
        first | trivial | exact ⟨List.mem_cons_self, fun _ _ => trivial⟩
    | none =>
      refine ⟨trivial, fun s _ => ?_⟩
      cases s with
      | none => trivial
      | some s =>
        refine ⟨.inr ⟨s, List.mem_cons_self, rfl⟩, fun r _ => ?_⟩
        rcases r with _ | (_ | _ | _ | _ | _) <;>
          first | trivial | exact ⟨List.mem_cons_self, fun _ _ => trivial⟩

theorem backed_enrollAndJoin (op : Operation) (h : Host) (g : List Known) :
    (enrollAndJoin op h).Along backed (fun _ _ => True) learn (fun _ _ => True) g := by
  refine ⟨trivial, fun b _ => ?_⟩
  cases b with
  | false => trivial
  | true =>
    refine ⟨trivial, fun n _ => ?_⟩
    cases n with
    | none => trivial
    | some n =>
      refine ⟨trivial, fun r _ => ?_⟩
      cases r with
      | error e => trivial
      | ok _ =>
        refine ⟨trivial, fun b _ => ?_⟩
        cases b with
        | false => trivial
        | true => exact backed_deliver op h _

theorem backed_enrollmentStage (op : Operation) (h : Host) (g : List Known) : Backed (enrollmentStage op h) g := by
  refine Prog.along_bind (Prog.along_mono (fun b g _ => ?_) (backed_enrollAndJoin op h g))
  cases b with
  | false => exact backed_free (free_retryable op _) g
  | true => exact backed_free (Prog.asks_bind (free_store rfl) fun _ => free_release op) g

/-- every round of a controller keeps to what it knows -/
theorem backed_provision (op : Operation) : Backed (provision op) [] := by
  refine ⟨trivial, fun r _ => ?_⟩
  cases r with
  | error e => trivial
  | ok op =>
    refine ⟨trivial, fun r _ => ?_⟩
    cases r with
    | error e => trivial
    | ok host =>
      simp only [Prog.ret_bind]
      cases host.state with
      | requested => exact backed_free (free_launchStage op host) _
      | provisioning => exact backed_free (free_launchStage op host) _
      | booting =>
        refine ⟨trivial, fun r _ => ?_⟩
        cases r with
        | error e => trivial
        | ok _ => exact backed_enrollmentStage op host _
      | registering => exact backed_enrollmentStage op host _
      | converging => exact backed_free (free_readinessStage op host) _
      | ready => exact backed_free (Prog.asks_bind (f := fun _ => .ret ()) (free_store rfl) fun _ => trivial) _
      | _ => trivial

/-! ## Runs -/

/-- the store is intact, what it pins is good, and no controller goes beyond what it knows -/
structure PinInv (s : St) : Prop where
  wf : s.db.WF
  good : AllGood s.db
  backed : ∀ i x, s.sessions i = some x → ∃ g, (∀ k ∈ g, Known.Holds s.db k) ∧ Backed x.prog g

theorem pinInv_init (cat : Catalog) : PinInv (St.init cat) where
  wf := cat.wf
  good _ _ _ h := by simp [St.init, Catalog.db] at h
  backed _ _ h := by simp [St.init] at h

section Step
variable {w : World} {s : St}

/-- the invariant after a change of one session -/
theorem PinInv.set (h : PinInv s) {i : ℕ} {y : Option Session}
    (hy : ∀ x, y = some x → ∃ g, (∀ k ∈ g, Known.Holds s.db k) ∧ Backed x.prog g) : PinInv (s.set i y) where
  wf := h.wf
  good := h.good
  backed j x hx := by
    simp only [St.set] at hx
    split_ifs at hx
    · exact hy x hx
    · exact h.backed j x hx

theorem Known.Holds.code {x : Externals} {ans : Operation → Bool} {c : Call} {d : DB} {y : Reply × DB} {k : Known}
    (h : k.Holds d) (hr : (code x c).run ans d = .ok y) : k.Holds y.2 := by
  cases k with
  | stored op e => exact Pinned.code h hr
  | resolved s => exact h

/-- the invariant after a call that keeps the stored states good -/
theorem PinInv.commit (h : PinInv s) {ans : Operation → Bool} {c : Call} {r : Reply} {d : DB}
    (hr : (code w.ext c).run ans s.db = .ok (r, d)) (hgood : AllGood d) : PinInv { s with db := d } where
  wf := code_wf h.wf hr
  good := hgood
  backed i x hx := by
    obtain ⟨g, hg, hp⟩ := h.backed i x hx
    exact ⟨g, fun k hk => (hg k hk).code hr, hp⟩

theorem learn_error (c : Call) (e : Err) (g : List Known) : learn (.store c) (.error e) g = g := by cases c <;> rfl

/-- what a controller learns from a read is so -/
theorem learn_read {i : ℕ} {a : Answers} (ha : Resolves (.ask i a)) {q : Request} (hq : ∀ c, q ≠ .store c) {g : List Known}
    (hg : ∀ k ∈ g, Known.Holds s.db k) : ∀ k ∈ learn q (exec w s a q).2 g, Known.Holds s.db k := by
  cases q with
  | store c => exact absurd rfl (hq c)
  | binding op =>
    simp only [exec]
    cases hr : query s.db (provisionBinding op) a with
    | error e => exact hg
    | ok b =>
      obtain ⟨d, hrun⟩ := query_ok hr
      simp only [provisionBinding, Tx.bind_eq, Tx.run_select_bind, Tx.run_orFail] at hrun
      obtain ⟨hb, ho⟩ := Option.filter_eq_some_iff.mp hrun.1
      intro k hk
      rcases List.mem_append.mp hk with hk | hk
      · obtain ⟨e, he, rfl⟩ : ∃ e, b.expectedState = some e ∧ Known.stored op e = k := by simpa using hk
        exact ⟨b, hb, by simpa using ho, he⟩
      · exact hg k hk
  | resolve op h =>
    simp only [exec]
    cases hd : a.desired with
    | none => exact hg
    | some d =>
      intro k hk
      rcases List.mem_cons.mp hk with rfl | hk
      · exact ha d hd
      · exact hg k hk
  | _ => exact hg

/-- what a controller learns from a call that committed is so -/
theorem learn_store {ans : Operation → Bool} {c : Call} {r : Reply} {d : DB} {r' : Except Err Reply} {g : List Known}
    (h : PinInv s) (hg : ∀ k ∈ g, Known.Holds s.db k) (hb : backed (.store c) g)
    (hr : (code w.ext c).run ans s.db = .ok (r, d)) (hr' : ∀ y, r' = .ok y → y = r) :
    AllGood d ∧ ∀ k ∈ learn (.store c) r' g, Known.Holds d k := by
  have hold : ∀ k ∈ g, Known.Holds d k := fun k hk => (hg k hk).code hr
  cases c with
  | pinProvisionExpectedState op e =>
    have hoffer : Pinned s.db op e ∨ ∃ d, Resolved d ∧ e = d.expected := by
      rcases hb with hb | ⟨d, hd, he⟩
      · exact .inl (hg _ hb)
      · exact .inr ⟨d, hg _ hd, he⟩
    obtain ⟨hgood, hpin⟩ := h.good.pin hoffer hr
    refine ⟨hgood, ?_⟩
    cases r' with
    | error e' => exact hold
    | ok y =>
      cases y with
      | pinned e' =>
        intro k hk
        rcases List.mem_cons.mp hk with rfl | hk
        · exact hpin e' (hr' _ rfl).symm
        · exact hold k hk
      | _ => exact hold
  | _ => exact ⟨h.good.code rfl hr, hold⟩

theorem act_pinInv {a : Act} (ha : Resolves a) (h : PinInv s) : PinInv (s.act w a) := by
  have hdoes := act_does w s a
  generalize s.act w a = s' at hdoes
  cases hdoes with
  | skip => exact h
  | stop => exact h.set fun x hx => absurd hx (by simp)
  | tick n => exact ⟨h.wf.tick n, h.good, h.backed⟩
  | @call c r d hc hr =>
    refine h.commit hr (h.good.code ?_ hr)
    cases c <;> first | rfl | simp [Call.fenced] at hc
  | claim _ hr =>
    refine (h.commit hr (h.good.code rfl hr)).set fun x hx => ?_
    obtain rfl := Option.some.inj hx
    exact ⟨[], fun k hk => absurd hk List.not_mem_nil, backed_provision _⟩
  | renew _ hr => exact h.commit hr (h.good.code rfl hr)
  | store r' hi hr hr' =>
    obtain ⟨g, hg, hp⟩ := h.backed _ _ hi
    obtain ⟨hgood, hlearn⟩ := learn_store h hg hp.1 hr hr'
    refine (h.commit hr hgood).set fun x hx => ?_
    obtain rfl := Option.some.inj hx
    exact ⟨_, hlearn, hp.2 r' trivial⟩
  | storeFailed e hi =>
    obtain ⟨g, hg, hp⟩ := h.backed _ _ hi
    refine h.set fun x hx => ?_
    obtain rfl := Option.some.inj hx
    refine ⟨g, hg, ?_⟩
    have hnext := hp.2 (.error e) trivial
    rwa [learn_error] at hnext
  | launch hi =>
    obtain ⟨g, hg, hp⟩ := h.backed _ _ hi
    have hcloud (c : Provider.Cloud) (l : List String) : PinInv { s with cloud := c, issued := l } :=
      ⟨h.wf, h.good, h.backed⟩
    refine (hcloud _ _).set fun x hx => ?_
    obtain rfl := Option.some.inj hx
    exact ⟨g, hg, hp.2 _ trivial⟩
  | read hi hq =>
    obtain ⟨g, hg, hp⟩ := h.backed _ _ hi
    refine h.set fun x hx => ?_
    obtain rfl := Option.some.inj hx
    exact ⟨_, learn_read ha hq.1 hg, hp.2 _ trivial⟩

/-- a pinned state stays pinned -/
theorem Pinned.act {a : Act} {op : Operation} {e : ExpectedHostState} (h : Pinned s.db op e) : Pinned (s.act w a).db op e := by
  have hdoes := act_does w s a
  generalize s.act w a = s' at hdoes
  cases hdoes with
  | call _ hr => exact h.code hr
  | claim _ hr => exact h.code hr
  | renew _ hr => exact h.code hr
  | store _ _ hr => exact h.code hr
  | _ => exact h

end Step

theorem run_pinInv {w : World} {s : St} {acts : List Act} (ha : ∀ a ∈ acts, Resolves a) (h : PinInv s) :
    PinInv (s.run w acts) := by
  induction acts generalizing s with
  | nil => exact h
  | cons a acts ih =>
    have hact := act_pinInv (w := w) (ha a List.mem_cons_self) h
    exact ih (fun b hb => ha b (List.mem_cons_of_mem a hb)) ⟨hact.wf, hact.good, hact.backed⟩

theorem Pinned.run {w : World} {s : St} {op : Operation} {e : ExpectedHostState} (h : Pinned s.db op e)
    (acts : List Act) : Pinned (s.run w acts).db op e := by
  induction acts generalizing s with
  | nil => exact h
  | cons a acts ih => exact ih (s := s.step w a) h.act

/-- one operation has one pinned state -/
theorem Pinned.unique {d : DB} (hw : d.WF) {op op' : Operation} {e e' : ExpectedHostState} (h : Pinned d op e)
    (h' : Pinned d op' e') (hid : op'.id = op.id) : e' = e := by
  obtain ⟨b, hb, ho, he⟩ := h
  obtain ⟨b', hb', ho', he'⟩ := h'
  obtain ⟨o, hf, -, hh⟩ := hw.bound _ b hb
  obtain ⟨o', hf', -, hh'⟩ := hw.bound _ b' hb'
  rw [ho', hid, ← ho, hf] at hf'
  obtain rfl := Option.some.inj hf'
  obtain hhost : op.hostId = op'.hostId := Option.some.inj (hh.symm.trans hh')
  rw [← hhost, hb] at hb'
  obtain rfl := Option.some.inj hb'
  exact Option.some.inj (he'.symm.trans he)

/-! ## Deliveries -/

/-- the PUT of an expected state to the Subd of a host -/
structure Delivery where
  op : Operation
  host : Host
  state : ExpectedHostState
deriving DecidableEq

/-- the PUT a session is about to send -/
def delivery (x : Session) : Option Delivery :=
  match x.prog with
  | .ask (.deliver op host e) _ => some ⟨op, host, e⟩
  | _ => none

def Delivers (s : St) (p : Delivery) : Prop := ∃ i, (s.sessions i).bind delivery = some p

theorem delivery_ask {x : Session} {p : Delivery} (h : delivery x = some p) :
    ∃ k, x.prog = .ask (.deliver p.op p.host p.state) k := by
  unfold delivery at h
  split at h
  · rename_i op host e k hx
    obtain rfl := Option.some.inj h
    exact ⟨k, hx⟩
  · simp at h

/-- what is delivered is pinned -/
theorem PinInv.delivers {s : St} (h : PinInv s) {p : Delivery} (hd : Delivers s p) : Pinned s.db p.op p.state := by
  obtain ⟨i, hi⟩ := hd
  obtain ⟨x, hx, hdel⟩ := Option.bind_eq_some_iff.mp hi
  obtain ⟨k, hprog⟩ := delivery_ask hdel
  obtain ⟨g, hg, hp⟩ := h.backed i x hx
  rw [hprog] at hp
  exact hg _ hp.1

section Subd
variable {H : Type} [DecidableEq H] (x : Subd.Env H)

/-- not an answer 400 or 409 -/
def Unrefused (q : Subd.Effect H) : Prop := ∀ r, q = .respond r → r.refused = false

/-- the handler answers neither 400 nor 409 -/
def Accepts (saved : Subd.SavedState H) (u : Subd.HostStateUpdate) : Prop :=
  (Subd.updateState x saved (some u)).Asks Unrefused

/-- nothing was accepted yet, or this content was -/
def Receptive (saved : Subd.SavedState H) (e : ExpectedHostState) : Prop :=
  saved.request.revision = 0 ∨ (saved.request = e ∧ saved.digest = some (x.digest e))

omit [DecidableEq H] in
theorem not_conflicts {saved : Subd.SavedState H} {e : ExpectedHostState} (h : Receptive x saved e)
    (he : e.revision ≠ 0) : ¬Subd.Conflicts x saved e := by
  rintro (hlt | ⟨heq, hne⟩)
  · rcases h with h | ⟨rfl, -⟩ <;> omega
  · rcases h with h | ⟨-, hd⟩
    · exact he (heq.trans h)
    · exact hne hd.symm

omit [DecidableEq H] in
theorem unrefused_respond {e : ExpectedHostState} {code : ℕ} {body : Option (Subd.SavedState H)} (hc : code ≠ 409) :
    Unrefused (.respond (.update e code body)) := by
  rintro r ⟨⟩
  simpa [Subd.Reply.refused] using hc

omit [DecidableEq H] in
theorem unrefused_of_carries {q : Subd.Effect H} (h : q.carries) : Unrefused q := by
  rintro r rfl
  cases r with
  | update e code body => rcases h with rfl | rfl <;> rfl
  | _ => exact h.elim

/-- an update that passes the checks and does not conflict is not refused -/
theorem accepts_of_receptive {saved : Subd.SavedState H} {e : ExpectedHostState} (hg : Good e)
    (h : Receptive x saved e) : Accepts x saved (Subd.update e) := by
  have hrev : e.revision ≠ 0 := by simp [hg.1]
  unfold Accepts Subd.updateState
  rw [Option.bind_some, hg.2]
  refine ⟨nofun, fun cancelled => ?_⟩
  cases cancelled with
  | true => exact ⟨unrefused_respond (by decide), fun _ => trivial⟩
  | false =>
    show Prog.Asks Unrefused (if _ then _ else if _ then _ else _)
    rw [if_neg (not_conflicts x h hrev)]
    split_ifs
    · exact ⟨unrefused_respond (by decide), fun _ => trivial⟩
    · exact (Subd.carryOut_carries x saved e).asks.mono fun _ => unrefused_of_carries

end Subd

/-- what holds of a state that was pinned for `op` when the deliveries of `s` are sent -/
structure Accepted {H : Type} [DecidableEq H] (x : Subd.Env H) (s : St) (op : Operation) (e : ExpectedHostState) :
    Prop where
  valid : Subd.validateExpected (Subd.update e) = true
  same : ∀ p, Delivers s p → p.op.id = op.id → x.digest p.state = x.digest e
  taken : ∀ saved, Receptive x saved e → Accepts x saved (Subd.update e)

/-- **Nothing is pinned that the host will refuse.** If policy results have an image and a track that Subd takes, a state
that is pinned passes Subd's checks, every delivery from then on sends it, and Subd does not refuse it. -/
theorem pinned_accepted {H : Type} [DecidableEq H] (x : Subd.Env H) (w : World) (cat : Catalog) (acts later : List Act)
    (hpolicy : ∀ a ∈ acts ++ later, Resolves a) {op : Operation} {e : ExpectedHostState}
    (hpin : Pinned ((St.init cat).run w acts).db op e) :
    Accepted x ((St.init cat).run w (acts ++ later)) op e := by
  have hinv := run_pinInv (w := w) hpolicy (pinInv_init cat)
  have hlater : Pinned ((St.init cat).run w (acts ++ later)).db op e := by
    rw [run_append]
    exact hpin.run later
  have hgood : Good e := by
    obtain ⟨b, hb, -, he⟩ := hlater
    exact hinv.good _ b e hb he
  refine ⟨?_, fun p hdel hid => ?_, fun saved hs => accepts_of_receptive x hgood hs⟩
  · have := hgood.2
    unfold Subd.HostStateUpdate.accepted at this
    split_ifs at this with hv
    exact hv
  · rw [Pinned.unique hinv.wf hlater (hinv.delivers hdel) hid]

/-! ## A delivery -/

namespace Sample

/-- a policy that names this image -/
def policy (imageId : String) : StarlarkValue :=
  .dict [("image_id", some imageId), ("track", some "stable"), ("version", some "v2")]

def desired (imageId : String) : DesiredState := ⟨imageId, "stable", "v2", [], []⟩

def node : NodeBinding := ⟨"r1-1", "uid", "aws:///r-a/i-1", String.ofList (List.replicate 64 'a')⟩

/-- the launched host joins the cluster, and the controller pins what the policy answers -/
def pinning (imageId : String) : List Act :=
  Fleet.launched false ++
    [.ask 0 {}, .ask 0 {}, .ask 0 {}, Fleet.claim, .ask 0 {}, .ask 0 {}, .ask 0 {}, .ask 0 {},
      .ask 0 { joined := some node }, .ask 0 {}, .ask 0 {}, .ask 0 {}, .ask 0 { desired := some (desired imageId) }, .ask 0 {}]

/-- the operation whose host joins, as far as the pin is about it -/
def op : Operation := { id := "r1-2", hostId := "r1-1" }

theorem pinning_pinned (imageId : String) (h : imageId = "ami-1" ∨ imageId = "") :
    Pinned (Fleet.after (pinning imageId)).db op (desired imageId).expected := by
  have hrow : ((Fleet.after (pinning imageId)).db.provisioning.find "r1-1").map (fun b => (b.operationId, b.expectedState))
      = some ("r1-2", some (desired imageId).expected) := by
    rcases h with rfl | rfl <;> decide +kernel
  obtain ⟨b, hb, hrow⟩ := Option.map_eq_some_iff.mp hrow
  obtain ⟨ho, he⟩ := Prod.mk.inj hrow
  exact ⟨b, hb, ho, he⟩

theorem pinned_accepted_ami : Pinned (Fleet.after (pinning "ami-1")).db op (desired "ami-1").expected ∧
    Accepted Subd.Sample.env (Fleet.after (pinning "ami-1" ++ [])) op (desired "ami-1").expected := by
  have hpin := pinning_pinned "ami-1" (.inl rfl)
  refine ⟨hpin, pinned_accepted _ _ _ _ _ (fun a ha d hd => ?_) hpin⟩
  have hall : ∀ a ∈ pinning "ami-1" ++ [], resolution a = none ∨ resolution a = some (desired "ami-1") := by decide
  rcases hall a ha with h | h
  · simp [h] at hd
  · obtain rfl := Option.some.inj (h.symm.trans hd)
    exact ⟨⟨policy "ami-1", rfl⟩, by decide⟩

/-- a policy without an image is pinned for good, and Subd refuses it in every state -/
theorem emptyImage_pinned : starlarkResultToDesiredState (policy "") = .ok (desired "") ∧
    (∀ later, Pinned (Fleet.after (pinning "" ++ later)).db op (desired "").expected) ∧
    (∃ p, Delivers (Fleet.after (pinning "")) p ∧ p.op.id = op.id ∧ p.state = (desired "").expected) ∧
    Subd.validateExpected (Subd.update (desired "").expected) = false ∧
    ∀ saved, ¬Accepts Subd.Sample.env saved (Subd.update (desired "").expected) := by
  refine ⟨rfl, fun later => ?_, ?_, by decide, fun saved h => ?_⟩
  · rw [Fleet.after, run_append]
    exact (pinning_pinned "" (.inr rfl)).run later
  · have hsession : (((Fleet.after (pinning "")).sessions 0).bind delivery).map (fun p => (p.op.id, p.state)) =
        some ("r1-2", (desired "").expected) := by decide +kernel
    obtain ⟨p, hp, he⟩ := Option.map_eq_some_iff.mp hsession
    obtain ⟨hid, hstate⟩ := Prod.mk.inj he
    exact ⟨p, ⟨0, hp⟩, hid, hstate⟩
  · exact absurd (h.1 _ rfl) (by decide)

end Sample

end Crane.Dominator
