/-
The join configuration of a worker (`internal/subd/worker_join.go`).

`renderWorkerJoin` flattens the labels of a registration into one comma-separated argument of kubelet. Kubernetes' names
and values contain neither a comma nor an equals sign, so the argument splits into the same labels again. The labels of a
node are a map: only its keys and `labelOf` count, not the order of its members.
-/
import Crane.Lib.Sequences
import Crane.Dominator.WorkerNode
import Crane.Subd.Server

namespace Crane

/-! ## Characters of names -/

/-- the characters of names and label values -/
def nameChar (c : Char) : Bool := c.isAlphanum || c = '-' || c = '_' || c = '.'

theorem mem_intercalate {α : Type} {x c : α} {ls : List (List α)} (h : c ∈ [x].intercalate ls) :
    c = x ∨ ∃ l ∈ ls, c ∈ l := by
  induction ls with
  | nil => simp at h
  | cons l ls ih =>
    cases ls with
    | nil => exact .inr ⟨l, List.mem_cons_self, by simpa using h⟩
    | cons l' ls =>
      rw [List.intercalate_cons_cons] at h
      simp only [List.mem_append, List.mem_singleton] at h
      rcases h with (h | rfl) | h
      · exact .inr ⟨l, List.mem_cons_self, h⟩
      · exact .inl rfl
      · exact (ih h).imp_right fun ⟨m, hm, hc⟩ => ⟨m, List.mem_cons_of_mem _ hm, hc⟩

theorem nameChar_of_qualifiedPart {cs : List Char} (h : qualifiedPart cs = true) : ∀ c ∈ cs, nameChar c = true := by
  simp only [qualifiedPart, fenced, Bool.and_eq_true, List.all_eq_true] at h
  exact h.1.1

theorem nameChar_of_subdomain {s : String} (h : isDNS1123Subdomain s = true) : ∀ c ∈ s.toList, nameChar c = true := by
  simp only [isDNS1123Subdomain, Bool.and_eq_true, List.all_eq_true] at h
  intro c hc
  have hjoin : ['.'].intercalate (s.toList.splitOn '.') = s.toList := List.intercalate_splitOn '.'
  rw [← hjoin] at hc
  rcases mem_intercalate hc with rfl | ⟨l, hl, hc⟩
  · decide
  · have hlabel := h.2 l hl
    simp only [dnsLabel, fenced, Bool.and_eq_true, List.all_eq_true] at hlabel
    have hchar := hlabel.1.1 c hc
    have halnum : c.isAlphanum = (c.isUpper || c.isLower || c.isDigit) := rfl
    simp only [lowerAlnum, nameChar, halnum, Bool.or_eq_true, decide_eq_true_eq] at hchar ⊢
    tauto

theorem nameChar_of_qualifiedName {s : String} (h : isQualifiedName s = true) :
    ∀ c ∈ s.toList, nameChar c = true ∨ c = '/' := by
  intro c hc
  have hjoin : ['/'].intercalate (s.toList.splitOn '/') = s.toList := List.intercalate_splitOn '/'
  rw [← hjoin] at hc
  unfold isQualifiedName at h
  split at h
  · rename_i name hsplit
    rw [Bool.and_eq_true] at h
    rw [hsplit] at hc
    exact .inl (nameChar_of_qualifiedPart h.2 c (by simpa using hc))
  · rename_i domain name hsplit
    simp only [Bool.and_eq_true] at h
    rw [hsplit] at hc
    rcases mem_intercalate hc with rfl | ⟨l, hl, hcl⟩
    · exact .inr rfl
    · rcases List.mem_cons.mp hl with rfl | hl
      · exact .inl (nameChar_of_subdomain h.1.1 c (by simpa using hcl))
      · obtain rfl := List.mem_singleton.mp hl
        exact .inl (nameChar_of_qualifiedPart h.2 c hcl)
  · cases h

theorem nameChar_of_labelValue {s : String} (h : isValidLabelValue s = true) : ∀ c ∈ s.toList, nameChar c = true := by
  simp only [isValidLabelValue, Bool.and_eq_true, Bool.or_eq_true, decide_eq_true_eq] at h
  rcases h.2 with rfl | h
  · simp
  · exact nameChar_of_qualifiedPart h

/-- the labels of a valid template fit into one delimited text -/
theorem label_delimited {canonical : List (String × String)} {l : String × String}
    (h : validateLabel canonical l = true) :
    ',' ∉ l.1.toList ∧ '=' ∉ l.1.toList ∧ ',' ∉ l.2.toList := by
  simp only [validateLabel, Bool.and_eq_true] at h
  have hkey := nameChar_of_qualifiedName h.1.1.1
  have hvalue := nameChar_of_labelValue h.1.1.2
  refine ⟨fun hc => ?_, fun hc => ?_, fun hc => ?_⟩
  · exact absurd (hkey _ hc) (by decide)
  · exact absurd (hkey _ hc) (by decide)
  · exact absurd (hvalue _ hc) (by decide)

namespace Subd

open Sequences Dominator

/-! ## The configuration -/

/-- the fields of kubeadm's JoinConfiguration that are not fixed -/
structure JoinConfiguration where
  apiServerEndpoint : String
  token : String
  caCertHashes : List String
  name : String
  taints : List SchedulingTaint
  nodeLabels : String
  providerId : String
deriving DecidableEq, Repr

/-- the node-labels argument: `key=value` in the order of the keys -/
def nodeLabels (labels : List (String × String)) : String :=
  ",".intercalate (((labelKeys labels).mergeSort fun a b => decide (a ≤ b)).map fun key =>
    key ++ "=" ++ labelOf labels key)

/-- `host` is the host of a parsed URL -/
def renderWorkerJoin {H : Type} (x : Env H) (host : String → String) (r : ClusterJoinRequest) :
    Option JoinConfiguration :=
  if validateClusterJoin x r then
    let labels := schedulingLabels r.registration.scheduling r.registration.nodePoolId
    some {
      apiServerEndpoint := host r.apiServerEndpoint
      token := r.token
      caCertHashes := [r.caCertHash]
      name := r.registration.nodeName
      taints := r.registration.scheduling.taints ++ [quarantine]
      nodeLabels := nodeLabels labels
      providerId := r.registration.providerId }
  else none

/-- how the argument is read: `key=value`, separated by commas -/
def parseNodeLabels (s : String) : Option (List (String × String)) :=
  (splitPairs ',' '=' s.toList).map (List.map fun p => (String.ofList p.1, String.ofList p.2))

/-! ## Reading the labels back -/

section Labels
variable {t : SchedulingTemplate} {pool : String}

theorem mem_labelKeys {m : List (String × String)} {key : String} (h : key ∈ labelKeys m) :
    (key, labelOf m key) ∈ m := by
  simp only [labelKeys, List.mem_dedup, List.mem_map, Prod.exists, exists_and_right, exists_eq_right] at h
  obtain ⟨value, hmem⟩ := h
  cases hl : m.lookup key with
  | none =>
    have := List.lookup_eq_none_iff.mp hl _ hmem
    simp at this
  | some v =>
    obtain ⟨l₁, l₂, rfl, -⟩ := List.lookup_eq_some_iff.mp hl
    simp [labelOf, hl]

theorem lookup_map_key (f : String → String) (keys : List String) (key : String) :
    (keys.map fun k => (k, f k)).lookup key = if key ∈ keys then some (f key) else none := by
  induction keys with
  | nil => rfl
  | cons k keys ih =>
    by_cases hk : key = k
    · simp [hk]
    · simp [List.lookup_cons, beq_false_of_ne hk, hk, ih]

/-- a map is what it assigns to its keys -/
theorem lookup_eq_labelOf (m : List (String × String)) (key : String) :
    m.lookup key = if key ∈ labelKeys m then some (labelOf m key) else none := by
  cases hl : m.lookup key with
  | none =>
    rw [if_neg]
    intro hmem
    have := List.lookup_eq_none_iff.mp hl _ (mem_labelKeys hmem)
    simp at this
  | some v =>
    obtain ⟨l₁, l₂, rfl, -⟩ := List.lookup_eq_some_iff.mp hl
    rw [if_pos (by simp [labelKeys]), labelOf, hl]
    rfl

theorem validateScheduling_labels (h : validateScheduling t pool = true) {l : String × String}
    (hl : l ∈ schedulingLabels t pool) : validateLabel (canonicalLabels t pool) l = true := by
  simp only [validateScheduling, Bool.and_eq_true, List.all_eq_true] at h
  exact h.1.1.2 l hl

/-- there is always the label of the pool -/
theorem pool_mem_labelKeys (t : SchedulingTemplate) (pool : String) :
    "platform.crane.io/node-pool" ∈ labelKeys (schedulingLabels t pool) := by
  simp only [labelKeys, List.mem_dedup, schedulingLabels, List.map_append, List.mem_append]
  by_cases h : "platform.crane.io/node-pool" ∈ t.labels.map Prod.fst
  · exact .inr h
  · refine .inl (List.mem_map.mpr ⟨("platform.crane.io/node-pool", pool), List.mem_filter.mpr ⟨by simp [canonicalLabels], ?_⟩, rfl⟩)
    rw [List.all_eq_true]
    intro l hl
    exact decide_eq_true fun e => h (List.mem_map.mpr ⟨l, hl, e⟩)

/-- the node-labels argument of a valid template reads back as its label map -/
theorem parse_nodeLabels (h : validateScheduling t pool = true) :
    ∃ pairs, parseNodeLabels (nodeLabels (schedulingLabels t pool)) = some pairs ∧ (pairs.map Prod.fst).Nodup ∧
      ∀ key, pairs.lookup key = (schedulingLabels t pool).lookup key := by
  have hperm := List.mergeSort_perm (labelKeys (schedulingLabels t pool)) fun a b => decide (a ≤ b)
  set labels := schedulingLabels t pool
  set keys := (labelKeys labels).mergeSort fun a b => decide (a ≤ b)
  refine ⟨keys.map fun key => (key, labelOf labels key), ?_, ?_, fun key => ?_⟩
  · have hjoin : (nodeLabels labels).toList =
        joinPairs ',' '=' (keys.map fun key => (key.toList, (labelOf labels key).toList)) := by
      simp [nodeLabels, joinPairs, keys, Function.comp_def]
    have hfree : ∀ p ∈ keys.map fun key => (key.toList, (labelOf labels key).toList),
        ',' ∉ p.1 ∧ '=' ∉ p.1 ∧ ',' ∉ p.2 := by
      intro p hp
      obtain ⟨key, hkey, rfl⟩ := List.mem_map.mp hp
      exact label_delimited (validateScheduling_labels h (mem_labelKeys (hperm.mem_iff.mp hkey)))
    have hne : keys.map (fun key => (key.toList, (labelOf labels key).toList)) ≠ [] := by
      have := hperm.mem_iff.mpr (pool_mem_labelKeys t pool)
      simpa using List.ne_nil_of_mem this
    rw [parseNodeLabels, hjoin, splitPairs_joinPairs hne (by decide) hfree]
    simp [Function.comp_def]
  · have hnodup : (labelKeys labels).Nodup := List.nodup_dedup _
    simpa [Function.comp_def] using hperm.nodup_iff.mpr hnodup
  · rw [lookup_map_key, lookup_eq_labelOf]
    simp only [hperm.mem_iff, keys]

end Labels

end Subd

end Crane
