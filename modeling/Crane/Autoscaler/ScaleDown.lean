/-
Named scale-down end to end: `NodeGroupDeleteNodes` (`internal/adapter/autoscaler/server.go`) against the input checks of
`CreateAutoscalerRemovals` (`internal/capacity/removals.go`).

`Submits` is about every run of the callback whose answers are valid: however often the retry loop goes round, it sends
one removal request, and it does send it. `deleteNodes_submits` says which one: every node with the host, the provider
ID and the name of its inventory entry. The name is the weak spot: a discovered inventory has no names
(`discovered_nameless`), so the request it leads to never passes the store's checks (`discovered_refused`).
-/
import Crane.Autoscaler.Adapter
import Crane.Capacity.Removals

namespace Crane.Autoscaler

open Capacity

/-! ## What a callback submits -/

/-- the answers under which `nodes` can be removed: the snapshot is `groups`, the verifier accepts each of the nodes, the
target is read, and the caller waits; the API may answer the removal itself in any way -/
def Accepting (groups : List StaticNodeGroup) (nodes : List (String × String)) (requestId : String)
    (out : CapacityResult) : (q : Query) → q.Answer → Prop
  | .snapshot, r => r = groups
  | .uuid, r => r = requestId
  | .target _, r => r = .decoded out
  | .verifyNode name providerId, r => (name, providerId) ∈ nodes → r = none
  | .context, r => r = none
  | _, _ => True

def Query.isRemoval : Query → Bool
  | .removeNodes _ => true
  | _ => false

/-- `req` is submitted, and no other removal -/
def SubmitsFrom {α : Type} (valid : (q : Query) → q.Answer → Prop) (req : NodeRemovalRequest) (post : α → Bool → Prop)
    (p : Adapter α) (sent : Bool) : Prop :=
  p.Along (fun q _ => ∀ r, q = .removeNodes r → r = req) valid (fun q _ sent => sent || q.isRemoval) post sent

def Submits (valid : (q : Query) → q.Answer → Prop) (req : NodeRemovalRequest) (p : Adapter (Except Code Unit)) : Prop :=
  SubmitsFrom valid req (fun _ sent => sent = true) p false

section Rules
variable {α β : Type} {valid : (q : Query) → q.Answer → Prop} {req : NodeRemovalRequest}

theorem submits_bind {post : β → Bool → Prop} {p : Adapter α} {f : α → Adapter β} {sent : Bool}
    (h : SubmitsFrom valid req (fun a sent => SubmitsFrom valid req post (f a) sent) p sent) :
    SubmitsFrom valid req post (p.bind f) sent := Prog.along_bind h

theorem submits_mono {post post' : α → Bool → Prop} {p : Adapter α} {sent : Bool}
    (hpost : ∀ a s, post a s → post' a s) (h : SubmitsFrom valid req post p sent) : SubmitsFrom valid req post' p sent :=
  Prog.along_mono hpost h

/-- a request that is no removal -/
theorem submits_ask {post : α → Bool → Prop} {q : Query} {k : q.Answer → Adapter α} {sent : Bool}
    (hq : q.isRemoval = false) (h : ∀ r, valid q r → SubmitsFrom valid req post (k r) sent) :
    SubmitsFrom valid req post (.ask q k) sent := by
  refine ⟨?_, fun r hr => ?_⟩
  · rintro r rfl
    cases hq
  · show SubmitsFrom valid req post (k r) (sent || q.isRemoval)
    rw [hq, Bool.or_false]
    exact h r hr

theorem submits_removal {post : α → Bool → Prop} {k : Response Unit → Adapter α} {sent : Bool}
    (h : ∀ r, SubmitsFrom valid req post (k r) true) : SubmitsFrom valid req post (.ask (.removeNodes req) k) sent := by
  refine ⟨?_, fun r _ => ?_⟩
  · rintro r ⟨⟩
    rfl
  · show SubmitsFrom valid req post (k r) (sent || true)
    rw [Bool.or_true]
    exact h r

/-- a callback goes on after a part that succeeds with `a` and submits nothing -/
theorem submits_andThen {post : Except Code β → Bool → Prop} {p : Adapter (Except Code α)}
    {f : α → Adapter (Except Code β)} {sent : Bool} {a : α}
    (hp : SubmitsFrom valid req (fun r s => r = .ok a ∧ s = sent) p sent) (hf : SubmitsFrom valid req post (f a) sent) :
    SubmitsFrom valid req post (andThen p f) sent := by
  refine submits_bind (submits_mono ?_ hp)
  rintro _ _ ⟨rfl, rfl⟩
  exact hf

end Rules

/-! ## The parts of NodeGroupDeleteNodes -/

section Parts
variable {groups : List StaticNodeGroup} {nodes : List (String × String)} {requestId : String} {out : CapacityResult}
  {req : NodeRemovalRequest}

/-- every attempt sends the same request, and the first one is made -/
theorem retry_submits (left : ℕ) (sent : Bool) :
    SubmitsFrom (Accepting groups nodes requestId out) req (fun _ sent => sent = true)
      (retry (do return (← ask (.removeNodes req)).accepted) left) sent := by
  induction left generalizing sent with
  | zero =>
    refine submits_ask rfl ?_
    rintro _ rfl
    refine submits_removal fun r => ?_
    cases hr : r.accepted with
    | ok u => simp [hr, SubmitsFrom, Prog.Along]
    | error c => cases c <;> simp [hr, SubmitsFrom, Prog.Along]
  | succ left ih =>
    refine submits_ask rfl ?_
    rintro _ rfl
    refine submits_removal fun r => ?_
    cases hr : r.accepted with
    | ok u => simp [hr, SubmitsFrom, Prog.Along]
    | error c =>
      cases c with
      | unavailable =>
        simp only [Prog.pure_eq, Prog.ret_bind, hr]
        refine submits_ask rfl fun ended _ => ?_
        cases ended with
        | some c => rfl
        | none => exact ih true
      | _ => simp [hr, SubmitsFrom, Prog.Along]

/-- how the request names the node of an inventory entry -/
def Node.removal (k : Node) : RemovalNode := ⟨k.hostId, k.name, k.providerId⟩

theorem removalNodes_submits {s : Server} {g : StaticNodeGroup} {named : List (String × String)} {known : List Node}
    {seen : List String} (hmatch : List.Forall₂ (fun n k => matchNode s g n.1 n.2 = some k) named known)
    (hsub : named ⊆ nodes) (hosts : (known.map Node.hostId).Nodup) (hseen : ∀ k ∈ known, k.hostId ∉ seen) :
    SubmitsFrom (Accepting groups nodes requestId out) req
      (fun r sent => r = .ok (known.map Node.removal) ∧ sent = false) (removalNodes s g seen named) false := by
  induction hmatch generalizing seen with
  | nil => exact ⟨rfl, rfl⟩
  | @cons n k named known hk _ ih =>
    obtain ⟨name, providerId⟩ := n
    rw [List.map_cons, List.nodup_cons] at hosts
    have hk : matchNode s g name providerId = some k := hk
    have hrest : SubmitsFrom (Accepting groups nodes requestId out) req
        (fun r sent => r = .ok ((k :: known).map Node.removal) ∧ sent = false)
        (andThen (removalNodes s g (k.hostId :: seen) named) fun nodes =>
          .ret (.ok (⟨k.hostId, k.name, k.providerId⟩ :: nodes))) false := by
      refine submits_andThen (ih (fun x hx => hsub (List.mem_cons_of_mem _ hx)) hosts.2 fun x hx => ?_) ⟨rfl, rfl⟩
      rw [List.mem_cons, not_or]
      exact ⟨fun e => hosts.1 (e ▸ List.mem_map_of_mem hx), hseen x (List.mem_cons_of_mem _ hx)⟩
    simp only [removalNodes, hk, if_neg (hseen k List.mem_cons_self)]
    by_cases hv : s.verifies
    · rw [if_pos hv]
      refine submits_ask rfl fun r hr => ?_
      obtain rfl : r = none := hr (hsub List.mem_cons_self)
      exact hrest
    · rw [if_neg hv]
      exact hrest

/-- what is submitted for nodes that match entries of distinct hosts -/
theorem deleteNodes_submits {s : Server} {id : String} {g : StaticNodeGroup} {known : List Node}
    (hg : (groups.find? fun x => x.id = id) = some g) (hne : nodes ≠ [])
    (hmatch : List.Forall₂ (fun n k => matchNode s g n.1 n.2 = some k) nodes known)
    (hosts : (known.map Node.hostId).Nodup)
    (hout : out.nodeGroupId = g.id ∧ 0 ≤ out.targetNodes ∧ 0 ≤ out.targetRevision) :
    Submits (Accepting groups nodes requestId out) ⟨g.id, requestId, out.targetRevision, known.map Node.removal⟩
      (nodeGroupDeleteNodes s id nodes) := by
  refine submits_andThen (a := g) (submits_ask rfl ?_) ?_
  · rintro _ rfl
    simp only [Prog.ret_bind, hg]
    exact ⟨rfl, rfl⟩
  · rw [if_neg hne]
    refine submits_ask rfl ?_
    rintro _ rfl
    refine submits_andThen (removalNodes_submits hmatch (fun _ h => h) hosts fun _ _ => List.not_mem_nil) ?_
    refine submits_andThen (a := out) (submits_ask rfl ?_) (retry_submits 2 false)
    rintro _ rfl
    refine ⟨?_, rfl⟩
    show HTTPClient.target g.id (.decoded out) = .ok out
    have hok : ¬(out.nodeGroupId ≠ g.id ∨ out.targetNodes < 0 ∨ out.targetRevision < 0) := by
      rintro (h | h | h)
      · exact h hout.1
      · exact absurd hout.2.1 (not_le.mpr h)
      · exact absurd hout.2.2 (not_le.mpr h)
    simp only [HTTPClient.target, Response.result, bind, Except.bind]
    rw [if_neg hok]

end Parts

/-! ## Inventory -/

/-- an inventory entry names its host and instance, and no two entries share either -/
structure Inventory (g : StaticNodeGroup) : Prop where
  id : g.id ≠ ""
  identified : ∀ k ∈ g.nodes, k.hostId ≠ "" ∧ k.providerId ≠ ""
  providerIds : (g.nodes.map Node.providerId).Nodup
  hostIds : (g.nodes.map Node.hostId).Nodup

/-- the entry of a node, found by its provider ID -/
theorem matchNode_entry {s : Server} {g : StaticNodeGroup} (hg : (g.nodes.map Node.providerId).Nodup) {k : Node}
    (hk : k ∈ g.nodes) {name : String} (hname : s.verifies = false → k.name = name) :
    matchNode s g name k.providerId = some k := by
  have hfits : (decide (k.providerId = k.providerId) && (s.verifies || decide (k.name = name))) = true := by
    cases hv : s.verifies with
    | true => simp
    | false => simp [hname hv]
  cases hfound : matchNode s g name k.providerId with
  | none => exact absurd hfits (List.find?_eq_none.mp hfound k hk)
  | some k' =>
    have hp := List.find?_some hfound
    simp only [Bool.and_eq_true, decide_eq_true_eq] at hp
    rw [List.inj_on_of_nodup_map hg (List.mem_of_find?_eq_some hfound) hk hp.1]

theorem discoveredNodes_nameless {ns : List AutoscalerNode} {seen seen' : List String} {nodes : List Node}
    (h : discoveredNodes seen ns = .ok (nodes, seen')) : ∀ k ∈ nodes, k.name = "" := by
  induction ns generalizing seen seen' nodes with
  | nil =>
    obtain ⟨rfl, -⟩ : [] = nodes ∧ seen = seen' := by simpa [discoveredNodes] using h
    simp
  | cons n ns ih =>
    simp only [discoveredNodes] at h
    split_ifs at h
    cases hrest : discoveredNodes (n.providerId :: seen) ns with
    | error c => simp [hrest, bind, Except.bind] at h
    | ok r =>
      obtain ⟨rest, last⟩ := r
      simp only [hrest, bind, Except.bind, pure, Except.pure, Except.ok.injEq, Prod.mk.injEq] at h
      obtain ⟨rfl, -⟩ := h
      intro k hk
      rcases List.mem_cons.mp hk with rfl | hk
      · rfl
      · exact ih hrest k hk

/-- discovery does not tell the names of nodes -/
theorem discovered_nameless {d : List AutoscalerGroup} {groups : List StaticNodeGroup}
    (h : discoveredGroups d = .ok groups) : ∀ g ∈ groups, ∀ k ∈ g.nodes, k.name = "" := by
  suffices hfrom : ∀ (d : List AutoscalerGroup) (ids seen : List String) (groups : List StaticNodeGroup),
      discoveredFrom ids seen d = .ok groups → ∀ g ∈ groups, ∀ k ∈ g.nodes, k.name = "" from hfrom d [] [] groups h
  intro d
  induction d with
  | nil =>
    intro ids seen groups h
    obtain rfl : [] = groups := by simpa [discoveredFrom] using h
    simp
  | cons a d ih =>
    intro ids seen groups h
    simp only [discoveredFrom] at h
    split_ifs at h
    cases hnodes : discoveredNodes seen a.nodes with
    | error c => simp [hnodes, bind, Except.bind] at h
    | ok r =>
      cases hrest : discoveredFrom (a.id :: ids) r.2 d with
      | error c => simp [hnodes, hrest, bind, Except.bind] at h
      | ok rest =>
        simp only [hnodes, hrest, bind, Except.bind, pure, Except.pure, Except.ok.injEq] at h
        subst h
        intro g hg
        rcases List.mem_cons.mp hg with rfl | hg
        · exact discoveredNodes_nameless hnodes
        · exact ih _ _ _ hrest g hg

/-! ## What the store makes of it -/

/-- errors that depend on the catalog: revision, limit, ownership, host state and the uniqueness of stored IDs -/
def StateRefusal (e : Err) : Prop :=
  e ∈ [.noRows, .forbidden, .replayMismatch, .conflict, .limit, .fulfilled, .checkViolation, .uniqueViolation]

instance (e : Err) : Decidable (StateRefusal e) := inferInstanceAs (Decidable (_ ∈ _))

theorem fails_insertOperation (o : DB → OperationRow) : (insertOperation o).Fails StateRefusal := by
  refine Tx.fails_execute fun d e he => ?_
  split_ifs at he
  cases he
  decide

theorem fails_insertRemoval (r : Removal) : (insertRemoval r).Fails StateRefusal := by
  refine Tx.fails_execute fun d e he => ?_
  split_ifs at he
  cases he
  decide

theorem fails_updateTarget (id : String) (target : NodeGroup → ℤ) (revision : ℤ) :
    (updateTarget id target revision).Fails StateRefusal := by
  refine Tx.fails_execute fun d e he => ?_
  split at he
  · cases he
  · rename_i g _
    simp only [NodeGroup.setTarget] at he
    split_ifs at he <;> simp [bind, Except.bind] at he
    subst he
    decide

theorem fails_loadPolicy (id : String) : (loadPolicy id).Fails StateRefusal :=
  Tx.Fails.bind (fun _ => trivial) fun _ => Tx.fails_orFail (by decide)

theorem fails_checkNode (groupId : String) (n : RemovalNode) : (checkNode groupId n).Fails StateRefusal := by
  refine Tx.Fails.bind (fun _ => trivial) fun _ => Tx.Fails.bind (Tx.fails_orFail (by decide)) fun _ => ?_
  refine Tx.Fails.bind (Tx.fails_require fun _ => by decide) fun _ => ?_
  refine Tx.Fails.bind (Tx.fails_require fun _ => by decide) fun _ => ?_
  refine Tx.Fails.bind (fun _ => trivial) fun _ => Tx.Fails.bind (Tx.fails_require fun _ => by decide) fun _ => trivial

theorem fails_checkNodes (groupId : String) (ns : List RemovalNode) : (checkNodes groupId ns).Fails StateRefusal := by
  induction ns with
  | nil => trivial
  | cons n ns ih => exact (fails_checkNode groupId n).bind fun _ => ih.bind fun _ => trivial

theorem fails_insertRemovals (g : NodeGroup) (req : NodeRemovalRequest) (revision : ℤ) (deadline : ℕ) (u : Uuids)
    (ns : List (RemovalNode × String)) : (insertRemovals g req revision deadline u ns).Fails StateRefusal := by
  induction ns generalizing u with
  | nil => trivial
  | cons n ns ih => exact (fails_insertOperation _).bind fun _ => (fails_insertRemoval _).bind fun _ => ih _

/-- a well-formed request is refused for the catalog's state only -/
theorem fails_createAutoscalerRemovals {clusterId : String} {req : NodeRemovalRequest}
    (hwf : NodeRemovalRequest.wellFormed clusterId req) (u : Uuids) (deadline : ℕ) :
    (createAutoscalerRemovals clusterId req u deadline).Fails StateRefusal := by
  refine Tx.Fails.bind (Tx.fails_require fun h => absurd hwf h) fun _ => ?_
  refine (fails_loadPolicy _).bind fun p => Tx.Fails.bind (Tx.fails_require fun _ => by decide) fun _ => ?_
  refine Tx.Fails.bind (fun _ => trivial) fun previous => ?_
  cases previous with
  | some o => exact Tx.fails_require fun _ => by decide
  | none =>
    refine Tx.Fails.bind (Tx.fails_require fun _ => by decide) fun _ => ?_
    refine Tx.Fails.bind (Tx.fails_require fun _ => by decide) fun _ => ?_
    exact (fails_checkNodes _ _).bind fun _ => (fails_updateTarget _ _ _).bind fun _ => fails_insertRemovals _ _ _ _ _ _

/-- a request that is not well formed is refused in every state -/
theorem createAutoscalerRemovals_invalid {clusterId : String} {req : NodeRemovalRequest}
    (h : ¬NodeRemovalRequest.wellFormed clusterId req) (u : Uuids) (deadline : ℕ) :
    createAutoscalerRemovals clusterId req u deadline = .fail .invalid := by
  simp [createAutoscalerRemovals, Tx.require, h]

/-- nothing that a discovered inventory leads to is accepted -/
theorem discovered_refused {d : List AutoscalerGroup} {groups : List StaticNodeGroup}
    (hd : discoveredGroups d = .ok groups) {g : StaticNodeGroup} (hg : g ∈ groups) {known : List Node}
    (hknown : known ⊆ g.nodes) (clusterId requestId : String) (revision : ℤ) (u : Uuids) (deadline : ℕ) :
    createAutoscalerRemovals clusterId ⟨g.id, requestId, revision, known.map Node.removal⟩ u deadline =
      .fail .invalid := by
  refine createAutoscalerRemovals_invalid ?_ u deadline
  rintro ⟨-, -, -, -, hne, hnamed, -⟩
  cases known with
  | nil => exact hne rfl
  | cons k known =>
    exact (hnamed _ List.mem_cons_self).2.2 (discovered_nameless hd g hg k (hknown List.mem_cons_self))

/-! ## Named scale-down -/

/-- nodes of a group to remove, each with its Kubernetes name and its inventory entry -/
structure NamedNodes (g : StaticNodeGroup) (named : List (String × Node)) : Prop where
  nonempty : named ≠ []
  known : named.map Prod.snd ⊆ g.nodes
  distinct : (named.map Prod.snd).Nodup
  names : ∀ n ∈ named, n.1 ≠ ""

/-- the nodes as the autoscaler passes them -/
def asked (named : List (String × Node)) : List (String × String) := named.map fun n => (n.1, n.2.providerId)

/-- the request that should follow -/
def removalOf (g : StaticNodeGroup) (requestId : String) (out : CapacityResult) (named : List (String × Node)) :
    NodeRemovalRequest :=
  ⟨g.id, requestId, out.targetRevision, named.map fun n => ⟨n.2.hostId, n.1, n.2.providerId⟩⟩

section NamedNodes
variable {g : StaticNodeGroup} {named : List (String × Node)}

theorem NamedNodes.mem (hn : NamedNodes g named) {n : String × Node} (h : n ∈ named) : n.2 ∈ g.nodes :=
  hn.known (List.mem_map_of_mem h)

theorem NamedNodes.hostIds (hn : NamedNodes g named) (hg : Inventory g) :
    (named.map fun n => n.2.hostId).Nodup := by
  have hnodup := hn.distinct.map_on fun x hx y hy h => List.inj_on_of_nodup_map hg.hostIds (hn.known hx) (hn.known hy) h
  rwa [List.map_map] at hnodup

theorem NamedNodes.wellFormed (hn : NamedNodes g named) (hg : Inventory g) {clusterId requestId : String}
    {out : CapacityResult} (hcluster : clusterId ≠ "") (hid : requestId ≠ "") (hrev : 0 ≤ out.targetRevision) :
    NodeRemovalRequest.wellFormed clusterId (removalOf g requestId out named) := by
  refine ⟨hcluster, hg.id, hid, hrev, ?_, ?_, ?_⟩
  · simpa [removalOf] using hn.nonempty
  · intro r hr
    obtain ⟨n, hmem, rfl⟩ := List.mem_map.mp hr
    have hk := hg.identified n.2 (hn.mem hmem)
    exact ⟨hk.1, hk.2, hn.names n hmem⟩
  · rw [removalOf, List.map_map]
    exact hn.hostIds hg

/-- each node is found by its provider ID -/
theorem NamedNodes.matched (hn : NamedNodes g named) (hg : Inventory g) (s : Server)
    (hnames : ∀ n ∈ named, n.2.name = n.1) :
    List.Forall₂ (fun n k => matchNode s g n.1 n.2 = some k) (asked named) (named.map Prod.snd) := by
  rw [asked, List.forall₂_map_left_iff, List.forall₂_map_right_iff, List.forall₂_same]
  exact fun n hmem => matchNode_entry hg.providerIds (hn.mem hmem) fun _ => hnames n hmem

end NamedNodes

namespace Fleet

def named : Node := ⟨"h1", "aws:///r-a/i-1", "node-1", .running⟩

def namedGroup : StaticNodeGroup := ⟨"g", "c", "t1", "r-a", "r", "p", 0, 5, "m5", "amd64", 2, 4, [], [], [named]⟩

/-- the group as the Crane API describes it -/
def discovered : AutoscalerGroup :=
  ⟨"g", "c", "p", "t1", 0, 5, 2, 4, ⟨"m5", "amd64", "r", "r-a", [], []⟩, [⟨"h1", "aws:///r-a/i-1", .ready⟩]⟩

/-- and the snapshot an adapter makes of that -/
def nameless : Node := ⟨"h1", "aws:///r-a/i-1", "", .running⟩

def snapshot : StaticNodeGroup := ⟨"g", "c", "t1", "r-a", "r", "p", 0, 5, "m5", "amd64", 2, 4, [], [], [nameless]⟩

end Fleet

end Crane.Autoscaler
