/-
The node the autoscaler simulates is the node that registers: `Template` (`internal/adapter/autoscaler/static.go`) and
`NodeGroupTemplateNodeInfo` (`server.go`) against the join configuration (`internal/subd/worker_join.go`) and
`validateWorkerNode` (`internal/dominator/provisioner.go`).

Each of the three rebuilds labels and taints on its own. The labels agree because all of them come from the same map,
whatever becomes of its order; the taints because they are copied in order. The architecture that a template may leave out
is one that a valid template states.
-/
import Crane.Autoscaler.Adapter
import Crane.Subd.WorkerJoin

namespace Crane.Autoscaler

open Subd (JoinConfiguration renderWorkerJoin parseNodeLabels parse_nodeLabels nodeLabels validateClusterJoin
  ClusterJoinRequest)
open Dominator (validateWorkerNode validateWorkerNode_ok quarantine)

/-! ## Templates -/

structure NodeTemplate where
  zone : String
  region : String
  pool : String
  labels : List (String × String)
  taints : List SchedulingTaint
  cpu : ℤ
  memoryMb : ℤ
deriving DecidableEq, Repr

def StaticNodeGroup.template (g : StaticNodeGroup) : NodeTemplate where
  zone := g.zone
  region := g.region
  pool := g.pool
  labels := schedulingLabels { architecture := if g.architecture = "" then "amd64" else g.architecture, region := g.region,
                               zone := g.zone, instanceType := g.instanceType, labels := g.labels } g.pool
  taints := g.taints
  cpu := g.cpu
  memoryMb := g.memoryMb

/-- Template -/
def template (groups : List StaticNodeGroup) (id : String) : Option NodeTemplate :=
  (groups.find? fun g => g.id = id).map StaticNodeGroup.template

/-- the Node that is serialized for the autoscaler's simulation; memory is in bytes -/
structure TemplateNode where
  name : String
  labels : List (String × String)
  taints : List SchedulingTaint
  cpu : ℤ
  memory : ℤ
  pods : ℕ
deriving DecidableEq, Repr

def nodeGroupTemplateNodeInfo (s : Server) (id : String) : Adapter (Except Code TemplateNode) :=
  andThen (refresh s) fun _ => andThen (group id) fun _ => do
    match template (← ask .snapshot) id with
    | none => return .error .notFound
    | some t => return .ok ⟨"crane-template-" ++ id, t.labels, t.taints, t.cpu, wrap64 (t.memoryMb * 1024 * 1024), 110⟩

/-! ## Discovery -/

section Discovery
variable {d : List AutoscalerGroup} {groups : List StaticNodeGroup} {g : AutoscalerGroup}

/-- the inventory entry of a discovered group -/
def Lists (g : AutoscalerGroup) (k : StaticNodeGroup) : Prop := ∃ nodes, k = g.toStatic nodes

/-- discovery lists every group once, in order -/
theorem discoveredFrom_ok {ids seen : List String} (h : discoveredFrom ids seen d = .ok groups) :
    List.Forall₂ Lists d groups ∧ (d.map AutoscalerGroup.id).Nodup ∧ ∀ g ∈ d, g.wellFormed = true ∧ g.id ∉ ids := by
  induction d generalizing ids seen groups with
  | nil =>
    obtain rfl : [] = groups := by simpa [discoveredFrom] using h
    exact ⟨.nil, .nil, nofun⟩
  | cons a d ih =>
    simp only [discoveredFrom] at h
    split_ifs at h with hbad
    simp only [not_or, Bool.not_eq_false] at hbad
    cases hnodes : discoveredNodes seen a.nodes with
    | error c => simp [hnodes, bind, Except.bind] at h
    | ok r =>
      cases hrest : discoveredFrom (a.id :: ids) r.2 d with
      | error c => simp [hnodes, hrest, bind, Except.bind] at h
      | ok rest =>
        simp only [hnodes, hrest, bind, Except.bind, pure, Except.pure, Except.ok.injEq] at h
        subst h
        obtain ⟨hlists, hnodup, hfresh⟩ := ih hrest
        simp only [List.mem_cons, not_or] at hfresh
        refine ⟨.cons ⟨r.1, rfl⟩ hlists, ?_, ?_⟩
        · rw [List.map_cons, List.nodup_cons, List.mem_map]
          exact ⟨fun ⟨g, hg, he⟩ => (hfresh g hg).2.1 he, hnodup⟩
        · rintro g (_ | ⟨_, hg⟩)
          · exact hbad
          · exact ⟨(hfresh g hg).1, (hfresh g hg).2.2⟩

/-- each discovered group is found under its ID -/
theorem find_of_lists (h : List.Forall₂ Lists d groups) (hids : (d.map AutoscalerGroup.id).Nodup) (hg : g ∈ d) :
    ∃ nodes, groups.find? (fun k => k.id = g.id) = some (g.toStatic nodes) := by
  induction h with
  | nil => cases hg
  | @cons a k d groups hk _ ih =>
    obtain ⟨nodes, rfl⟩ := hk
    rw [List.map_cons, List.nodup_cons] at hids
    rcases List.mem_cons.mp hg with rfl | hg
    · exact ⟨nodes, by simp [AutoscalerGroup.toStatic]⟩
    · have hne : ¬(a.toStatic nodes).id = g.id := fun he => hids.1 (List.mem_map.mpr ⟨g, hg, Eq.symm he⟩)
      obtain ⟨nodes', hfind⟩ := ih hids.2 hg
      exact ⟨nodes', by rw [List.find?_cons_of_neg (by simpa using hne), hfind]⟩

theorem clusters_of_lists (h : List.Forall₂ Lists d groups) {cluster : String}
    (hd : ∀ g ∈ d, g.clusterId = cluster) : ∀ k ∈ groups, k.clusterId = cluster := by
  induction h with
  | nil => exact nofun
  | @cons a k d groups hk _ ih =>
    obtain ⟨nodes, rfl⟩ := hk
    rintro k (_ | ⟨_, hk⟩)
    · exact hd a List.mem_cons_self
    · exact ih (fun g hg => hd g (List.mem_cons_of_mem _ hg)) k hk

/-- a refresh with this discovery succeeds -/
theorem refresh_under {s : Server} {ans : (q : Query) → q.Answer} (h : discoveredGroups d = .ok groups)
    (hans : ans .discover = .decoded d) (hcluster : ∀ g ∈ d, g.clusterId = s.clusterId) :
    (refresh s).under ans = some (.ok ()) := by
  obtain ⟨hlists, -, hwf⟩ := discoveredFrom_ok h
  have hgroups : ¬∃ k ∈ groups, ¬k.clusterId = s.clusterId := fun ⟨k, hk, hne⟩ =>
    hne (clusters_of_lists hlists hcluster k hk)
  have haccept : HTTPClient.discover s.clusterId (.decoded d) = .ok d := by
    have hgood : ∀ g ∈ d, (g.clusterId = s.clusterId ∧ ¬g.id = "") ∧ ¬g.templateRevision = "" := by
      intro g hg
      have := (hwf g hg).1
      simp only [AutoscalerGroup.wellFormed, Bool.and_eq_true, decide_eq_true_eq] at this
      tauto
    simpa [HTTPClient.discover, Response.result, bind, Except.bind] using hgood
  cases hdis : s.discovers with
  | false => simp [refresh, hdis, Prog.under]
  | true => simp [refresh, hdis, ask, Prog.under, hans, haccept, h, hgroups]

end Discovery

/-! ## The simulated and the registered node -/

section Simulated
variable {t : SchedulingTemplate} {pool : String}

theorem supported_of_valid (h : validateScheduling t pool = true) : supportedArchitecture t.architecture = true := by
  simp only [validateScheduling, Bool.and_eq_true] at h
  simpa [supportedArchitecture] using h.1.1.1.2

/-- a valid template does not override a canonical label -/
theorem agreesWith_of_valid (h : validateScheduling t pool = true) {canonical : List (String × String)}
    (hsub : ∀ c ∈ canonical, (canonicalLabels t pool).lookup c.1 = some c.2) : agreesWith canonical t.labels = true := by
  simp only [agreesWith, List.all_eq_true, Option.all_eq_true]
  rintro ⟨key, want⟩ hc got hgot
  have hmem : (key, got) ∈ schedulingLabels t pool := by
    obtain ⟨l₁, l₂, he, -⟩ := List.lookup_eq_some_iff.mp hgot
    simp [schedulingLabels, he]
  have hvalid := Subd.validateScheduling_labels h hmem
  simp only [validateLabel, hsub _ hc, Bool.and_eq_true] at hvalid
  exact hvalid.2

/-- the labels that are advertised are those of the template -/
theorem template_labels {g : AutoscalerGroup} (nodes : List Node)
    (ha : supportedArchitecture g.scheduling.architecture = true) :
    (g.toStatic nodes).template.labels = schedulingLabels g.scheduling g.pool := by
  have hne : g.scheduling.architecture ≠ "" := by
    intro he
    simp [supportedArchitecture, he] at ha
  simp [StaticNodeGroup.template, AutoscalerGroup.toStatic, schedulingLabels, canonicalLabels, hne]

end Simulated

/-- what the autoscaler is told about a group against what its workers register as -/
structure Simulated (t : SchedulingTemplate) (pool : String) : Prop where
  /-- discovery does not refuse a group for its template -/
  discovered : ∀ g : AutoscalerGroup, g.scheduling = t → g.pool = pool → g.id ≠ "" → g.clusterId ≠ "" →
    g.templateRevision ≠ "" → 0 ≤ g.minNodes → g.minNodes ≤ g.maxNodes → g.maxNodes ≤ maxInt32 → 0 < g.cpu →
    0 < g.memoryMib → g.memoryMib ≤ maxMemoryMib → g.wellFormed = true
  /-- what it advertises are the labels and taints of the template -/
  advertised : ∀ d groups g, discoveredGroups d = .ok groups → g ∈ d → g.scheduling = t → g.pool = pool →
    ∃ tpl, template groups g.id = some tpl ∧ tpl.labels = schedulingLabels t pool ∧ tpl.taints = t.taints ∧
      ∀ s ans, ans .discover = .decoded d → ans .snapshot = groups → (∀ g ∈ d, g.clusterId = s.clusterId) →
        ∃ node, (nodeGroupTemplateNodeInfo s g.id).under ans = some (.ok node) ∧ node.labels = schedulingLabels t pool ∧
          node.taints = t.taints
  /-- the join configuration has the same labels, and the same taints followed by the quarantine -/
  joined : ∀ (H : Type) (x : Subd.Env H) host r config, r.registration.scheduling = t → r.registration.nodePoolId = pool →
    renderWorkerJoin x host r = some config →
    config.taints = t.taints ++ [quarantine] ∧
    ∃ pairs, parseNodeLabels config.nodeLabels = some pairs ∧ (pairs.map Prod.fst).Nodup ∧
      (∀ key, pairs.lookup key = (schedulingLabels t pool).lookup key) ∧
      ∀ node ip, node.name = config.name → node.providerId = config.providerId → node.labels = pairs →
        node.taints = config.taints → ⟨"InternalIP", ip⟩ ∈ node.addresses →
        validateWorkerNode node r.registration ip false = .ok ()

section Simulated
variable {t : SchedulingTemplate} {pool : String}

theorem wellFormed_of_valid {g : AutoscalerGroup} (h : validateScheduling g.scheduling g.pool = true) (hid : g.id ≠ "")
    (hcluster : g.clusterId ≠ "") (hrevision : g.templateRevision ≠ "") (hmin : 0 ≤ g.minNodes)
    (hminmax : g.minNodes ≤ g.maxNodes) (hmax : g.maxNodes ≤ maxInt32) (hcpu : 0 < g.cpu) (hmem : 0 < g.memoryMib)
    (hmemmax : g.memoryMib ≤ maxMemoryMib) : g.wellFormed = true := by
  have harch := supported_of_valid h
  have hne : g.scheduling.architecture ≠ "" := fun he => by simp [supportedArchitecture, he] at harch
  have hlabels : agreesWith (topologyLabels g.scheduling.region g.scheduling.zone g.pool g.scheduling.instanceType ++
      if g.scheduling.architecture = "" then [] else [("kubernetes.io/arch", g.scheduling.architecture)])
      g.scheduling.labels = true := by
    refine agreesWith_of_valid h ?_
    rw [if_neg hne]
    intro c hc
    simp only [topologyLabels, List.cons_append, List.nil_append, List.mem_cons, List.not_mem_nil, or_false] at hc
    rcases hc with rfl | rfl | rfl | rfl | rfl | rfl <;> rfl
  simp only [validateScheduling, Bool.and_eq_true, decide_eq_true_eq] at h
  simp only [AutoscalerGroup.wellFormed, hlabels, harch, Bool.or_true, Bool.and_true, Bool.and_eq_true, decide_eq_true_eq]
  tauto

theorem nodeInfo_under {groups : List StaticNodeGroup} {s : Server} {k : StaticNodeGroup}
    {id : String} {ans : (q : Query) → q.Answer} (hrefresh : (refresh s).under ans = some (.ok ()))
    (hsnap : ans .snapshot = groups) (hfind : groups.find? (fun k => k.id = id) = some k) :
    ∃ node, (nodeGroupTemplateNodeInfo s id).under ans = some (.ok node) ∧ node.labels = k.template.labels ∧
      node.taints = k.template.taints := by
  refine ⟨⟨"crane-template-" ++ id, k.template.labels, k.template.taints, k.template.cpu,
    wrap64 (k.template.memoryMb * 1024 * 1024), 110⟩, ?_, rfl, rfl⟩
  simp [nodeGroupTemplateNodeInfo, andThen, Prog.under_bind, hrefresh, group, ask, Prog.under, hsnap, hfind, template]

/-- a node that registers with the rendered configuration passes before its release -/
theorem joined_valid {reg : WorkerRegistration} {w : String → String} (hreg : reg.validate w = true)
    {pairs : List (String × String)}
    (hpairs : ∀ key, pairs.lookup key = (schedulingLabels reg.scheduling reg.nodePoolId).lookup key)
    {node : Dominator.Node} {ip : String} (hname : node.name = reg.nodeName) (hprovider : node.providerId = reg.providerId)
    (hlabels : node.labels = pairs) (htaints : node.taints = reg.scheduling.taints ++ [quarantine])
    (haddress : ⟨"InternalIP", ip⟩ ∈ node.addresses) : validateWorkerNode node reg ip false = .ok () := by
  refine validateWorkerNode_ok.mpr ⟨⟨⟨hname, hprovider⟩, haddress, fun key _ => ?_, fun want hwant => ?_,
    fun got hgot hkey => ?_⟩, .inr ⟨quarantine, by simp [htaints], rfl⟩⟩
  · rw [labelOf, labelOf, hlabels, hpairs]
  · rw [htaints]
    exact List.mem_append_left _ hwant
  · rw [htaints] at hgot
    rcases List.mem_append.mp hgot with hgot | hgot
    · exact absurd hkey (Dominator.template_taint hreg hgot)
    · exact List.mem_singleton.mp hgot

end Simulated

/-- **The autoscaler simulates exactly the node that will register.** For every pool and every valid template. -/
theorem template_simulated {t : SchedulingTemplate} {pool : String} (h : validateScheduling t pool = true) :
    Simulated t pool := by
  refine ⟨?_, ?_, ?_⟩
  · rintro g rfl rfl hid hcluster hrevision hmin hminmax hmax hcpu hmem hmemmax
    exact wellFormed_of_valid h hid hcluster hrevision hmin hminmax hmax hcpu hmem hmemmax
  · rintro d groups g hd hg rfl rfl
    obtain ⟨hlists, hids, -⟩ := discoveredFrom_ok hd
    obtain ⟨nodes, hfind⟩ := find_of_lists hlists hids hg
    have hlabels := template_labels nodes (supported_of_valid h)
    refine ⟨(g.toStatic nodes).template, by simp [template, hfind], hlabels, rfl, fun s ans hans hsnap hcluster => ?_⟩
    obtain ⟨node, hnode, hl, ht⟩ := nodeInfo_under (refresh_under hd hans hcluster) hsnap hfind
    exact ⟨node, hnode, hl.trans hlabels, ht⟩
  · rintro H x host r config rfl rfl hrender
    obtain ⟨pairs, hparse, hnodup, hpairs⟩ := parse_nodeLabels h
    unfold renderWorkerJoin at hrender
    split_ifs at hrender with hvalid
    obtain rfl := Option.some.inj hrender
    simp only [validateClusterJoin, Bool.and_eq_true] at hvalid
    exact ⟨rfl, pairs, hparse, hnodup, hpairs, fun node ip hname hprovider hlabels htaints haddress =>
      joined_valid hvalid.1.1.1.1.1 hpairs hname hprovider hlabels htaints haddress⟩

/-- a template with a label and a taint of its own -/
def Sample.scheduling : SchedulingTemplate where
  instanceType := "m5.large"
  architecture := "arm64"
  region := "eu-north-1"
  zone := "eu-north-1a"
  labels := [("example.com/team", "batch")]
  taints := [⟨"workload", "batch", "NoSchedule"⟩]

theorem template_simulated_sample : Simulated Sample.scheduling "shared" := template_simulated (by decide +kernel)

end Crane.Autoscaler
