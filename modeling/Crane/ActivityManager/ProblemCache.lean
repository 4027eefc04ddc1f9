/-
The cache of seen problems (`LRCache`): a doubly linked list between two sentinels, ordered by the time of the last
touch, and a map from keys to its nodes. `Capacity` bounds the map, `PeriodicRun` drops what has not been touched for TTL.

`Rep` ties the map to the list. `Record` of a key that is present breaks it, because after refreshing the node the code
goes on as if the key were new: it evicts the oldest node if the cache is full and appends a second node for the key
(harmless only for a capacity of one, where the node it evicts is the one it has just refreshed). Without such calls
every run keeps the list, the map and the order of touches in agreement.
-/
import Mathlib.Data.List.Perm.Subperm
import Crane.Lib.LinkedList
import Crane.Lib.Table

namespace Crane.ActivityManager

open LinkedList

/-! ## Model -/

/-- `Node` without its pointers; the sentinels are zero values -/
structure Entry where
  key : String := ""
  lastSeen : ℤ := 0
deriving DecidableEq, Repr

structure LRCache where
  heap : Heap Entry
  lr : ℕ
  mr : ℕ
  capacity : ℤ
  ttl : ℤ
  /-- the map from a key to the address of its node -/
  cache : Table (Prod.fst : String × ℕ → String)

def newCache (capacity ttl : ℤ) : LRCache where
  heap := [{ val := {}, next := some 1 }, { val := {}, prev := some 0 }]
  lr := 0
  mr := 1
  capacity := capacity
  ttl := ttl
  cache := .empty

namespace LRCache

def removeNode (c : LRCache) (node : Option ℕ) : Option LRCache := do
  let a ← node
  let heap ← c.heap.unlink a
  let e ← heap.val a
  some { c with heap := heap, cache := c.cache.remove e.key }

def addMR (c : LRCache) (key : String) (now : ℤ) : Option LRCache := do
  let (heap, a) ← c.heap.insertBefore c.mr ⟨key, now⟩
  some { c with heap := heap, cache := c.cache.put (key, a) }

/-- `now₁` is read by the refresh of a present key, `now₂` by the insertion that follows in any case -/
def record (c : LRCache) (key : String) (now₁ now₂ : ℤ) : Option LRCache := do
  let c ← match c.cache.find key with
    | some e => do (← c.removeNode (some e.2)).addMR key now₁
    | none => some c
  let c ← if c.capacity = c.cache.rows.length then c.removeNode (c.heap.next c.lr) else some c
  c.addMR key now₂

def seenRecently (c : LRCache) (key : String) (now : ℤ) : Option (LRCache × Bool) :=
  match c.cache.find key with
  | some e => do
    let c ← c.removeNode (some e.2)
    let c ← c.addMR key now
    some (c, true)
  | none => some (c, false)

/-- the loop of `PeriodicRun` from the node `current` on -/
def expire (cutoff : ℤ) : ℕ → Option ℕ → LRCache → Option LRCache
  | 0, _, _ => none
  | fuel + 1, current, c => do
    let a ← current
    if a = c.mr then some c
    else
      let e ← c.heap.val a
      if e.lastSeen < cutoff then
        let next := c.heap.next a
        let c ← c.removeNode (some a)
        expire cutoff fuel next c
      else some c

def periodicRun (c : LRCache) (now : ℤ) : Option LRCache :=
  c.expire (now - c.ttl) c.heap.length (c.heap.next c.lr)

/-- the key is in the map -/
def has (c : LRCache) (key : String) : Bool := (c.cache.find key).isSome

end LRCache

/-- a call with its readings of the clock -/
inductive Call where
  | record (key : String) (now₁ now₂ : ℤ)
  | seenRecently (key : String) (now : ℤ)
  | periodicRun (now : ℤ)
deriving DecidableEq, Repr

namespace Call

def readings : Call → List ℤ
  | record _ now₁ now₂ => [now₁, now₂]
  | seenRecently _ now => [now]
  | periodicRun now => [now]

/-- the last reading -/
def time : Call → ℤ
  | record _ _ now₂ => now₂
  | seenRecently _ now => now
  | periodicRun now => now

def names : Call → String → Bool
  | record key _ _, k => key = k
  | seenRecently key _, k => key = k
  | periodicRun _, _ => false

end Call

/-- `none` is a nil dereference -/
def LRCache.step (c : LRCache) : Call → Option LRCache
  | .record key now₁ now₂ => c.record key now₁ now₂
  | .seenRecently key now => (c.seenRecently key now).map Prod.fst
  | .periodicRun now => c.periodicRun now

def LRCache.run (c : LRCache) (calls : List Call) : Option LRCache := calls.foldlM LRCache.step c

/-! ## The history of touches -/

/-- how many calls there were up to the last one that names the key -/
def touched (calls : List Call) (key : String) : ℕ := calls.length - calls.reverse.findIdx fun a => a.names key

/-- the time of that call -/
def touchedAt (calls : List Call) (key : String) : Option ℤ :=
  (calls.reverse.find? fun a => a.names key).map Call.time

theorem touched_concat (calls : List Call) (a : Call) (key : String) :
    touched (calls ++ [a]) key = if a.names key then calls.length + 1 else touched calls key := by
  simp only [touched, List.reverse_concat, List.length_append, List.length_singleton, List.findIdx_cons]
  cases a.names key <;> simp

theorem touchedAt_concat (calls : List Call) (a : Call) (key : String) :
    touchedAt (calls ++ [a]) key = if a.names key then some a.time else touchedAt calls key := by
  simp only [touchedAt, List.reverse_concat, List.find?_cons]
  cases a.names key <;> simp

theorem touched_le (calls : List Call) (key : String) : touched calls key ≤ calls.length := Nat.sub_le _ _

theorem touchedAt_mem {calls : List Call} {key : String} {t : ℤ} (h : touchedAt calls key = some t) :
    t ∈ calls.flatMap Call.readings := by
  obtain ⟨a, ha, rfl⟩ := Option.map_eq_some_iff.mp h
  have hmem : a ∈ calls := List.mem_reverse.mp (List.mem_of_find?_eq_some ha)
  refine List.mem_flatMap.mpr ⟨a, hmem, ?_⟩
  cases a <;> simp [Call.readings, Call.time]

/-! ## The list and the map -/

/-- the addresses of the list between the sentinels, and what stands in its nodes -/
structure Rep (c : LRCache) (es : List (ℕ × Entry)) : Prop where
  linked : Linked c.heap (c.lr :: (es.map Prod.fst ++ [c.mr]))
  nodup : (c.lr :: (es.map Prod.fst ++ [c.mr])).Nodup
  bound : ∀ a ∈ c.lr :: (es.map Prod.fst ++ [c.mr]), a < c.heap.length
  vals : ∀ x ∈ es, c.heap.val x.1 = some x.2
  /-- each key of the map is in the list once, in the node the map points to -/
  rows : c.cache.rows.Perm (es.map fun x => (x.2.key, x.1))

section Rep
variable {c : LRCache} {es : List (ℕ × Entry)}

theorem newCache_rep (capacity ttl : ℤ) : Rep (newCache capacity ttl) [] where
  linked := List.isChain_cons_cons.mpr ⟨⟨rfl, rfl⟩, List.isChain_singleton _⟩
  nodup := by simp [newCache]
  bound := by simp [newCache]
  vals := by simp
  rows := by simp [newCache, Table.empty]

theorem Rep.keys_nodup (h : Rep c es) : (es.map fun x => x.2.key).Nodup := by
  have hp := h.rows.map Prod.fst
  rw [List.map_map] at hp
  exact hp.nodup_iff.mp c.cache.nodup

theorem Rep.length (h : Rep c es) : c.cache.rows.length = es.length := by
  rw [h.rows.length_eq, List.length_map]

theorem Rep.find (h : Rep c es) {key : String} {e : String × ℕ} :
    c.cache.find key = some e ↔ ∃ x ∈ es, x.2.key = key ∧ e = (key, x.1) := by
  rw [Table.find_eq_some, h.rows.mem_iff, List.mem_map]
  constructor
  · rintro ⟨⟨x, hx, rfl⟩, rfl⟩
    exact ⟨x, hx, rfl, rfl⟩
  · rintro ⟨x, hx, rfl, rfl⟩
    exact ⟨⟨x, hx, rfl⟩, rfl⟩

theorem Rep.has (h : Rep c es) {key : String} : c.has key = true ↔ key ∈ es.map fun x => x.2.key := by
  rw [LRCache.has, Option.isSome_iff_exists, List.mem_map]
  constructor
  · rintro ⟨e, he⟩
    obtain ⟨x, hx, hk, -⟩ := h.find.mp he
    exact ⟨x, hx, hk⟩
  · rintro ⟨x, hx, hk⟩
    exact ⟨(key, x.1), h.find.mpr ⟨x, hx, hk, rfl⟩⟩

/-- the same cache in another state -/
structure Same (c c' : LRCache) : Prop where
  lr : c'.lr = c.lr
  mr : c'.mr = c.mr
  capacity : c'.capacity = c.capacity
  ttl : c'.ttl = c.ttl

theorem Same.refl (c : LRCache) : Same c c := ⟨rfl, rfl, rfl, rfl⟩

theorem Same.trans {c c' c'' : LRCache} (h : Same c c') (h' : Same c' c'') : Same c c'' :=
  ⟨h'.lr.trans h.lr, h'.mr.trans h.mr, h'.capacity.trans h.capacity, h'.ttl.trans h.ttl⟩

/-- removing a node removes its key -/
theorem Rep.removeNode {xs ys : List (ℕ × Entry)} {x : ℕ × Entry} (h : Rep c (xs ++ x :: ys)) :
    ∃ c', c.removeNode (some x.1) = some c' ∧ Rep c' (xs ++ ys) ∧ Same c c' ∧ c'.heap.length = c.heap.length := by
  have hpath : c.lr :: ((xs ++ x :: ys).map Prod.fst ++ [c.mr]) =
      (c.lr :: xs.map Prod.fst) ++ x.1 :: (ys.map Prod.fst ++ [c.mr]) := by simp
  have hshort : c.lr :: ((xs ++ ys).map Prod.fst ++ [c.mr]) =
      (c.lr :: xs.map Prod.fst) ++ (ys.map Prod.fst ++ [c.mr]) := by simp
  have hl := h.linked
  have hd := h.nodup
  have hb := h.bound
  rw [hpath] at hl hd hb
  obtain ⟨heap, hu, hlinked, hlen, hval⟩ := hl.unlink hd (by simp) (by simp)
  have hx : heap.val x.1 = some x.2 := (hval x.1).trans (h.vals x (by simp))
  have hsub : ((c.lr :: xs.map Prod.fst) ++ (ys.map Prod.fst ++ [c.mr])).Sublist
      ((c.lr :: xs.map Prod.fst) ++ x.1 :: (ys.map Prod.fst ++ [c.mr])) :=
    (List.sublist_cons_self _ _).append_left _
  refine ⟨{ c with heap := heap, cache := c.cache.remove x.2.key }, by simp [LRCache.removeNode, hu, hx],
    ⟨?_, ?_, ?_, ?_, ?_⟩, ⟨rfl, rfl, rfl, rfl⟩, hlen⟩
  · rw [hshort]
    exact hlinked
  · rw [hshort]
    exact hd.sublist hsub
  · rw [hshort]
    intro a ha
    rw [hlen]
    exact hb a (hsub.subset ha)
  · intro y hy
    rw [hval]
    exact h.vals y (by
      rcases List.mem_append.mp hy with hy | hy
      · exact List.mem_append_left _ hy
      · exact List.mem_append_right _ (List.mem_cons_of_mem _ hy))
  · -- the keys are distinct, so the filter drops this one row
    have hk := h.keys_nodup
    rw [List.map_append, List.map_cons] at hk
    have hne : ∀ y ∈ xs ++ ys, y.2.key ≠ x.2.key := by
      intro y hy e
      have hmid := List.nodup_middle.mp hk
      rw [← List.map_append] at hmid
      exact (List.nodup_cons.mp hmid).1 (e ▸ List.mem_map_of_mem (f := fun z : ℕ × Entry => z.2.key) hy)
    have hp := h.rows.filter fun e => e.1 ≠ x.2.key
    refine hp.trans (List.Perm.of_eq ?_)
    rw [List.filter_map, List.filter_append, List.filter_cons_of_neg (by simp), ← List.filter_append,
      List.filter_eq_self.mpr fun y hy => by simpa using hne y hy]

/-- a new key gets a node at the end -/
theorem Rep.addMR (h : Rep c es) {key : String} (hk : c.has key = false) (now : ℤ) :
    ∃ c', c.addMR key now = some c' ∧ Rep c' (es ++ [(c.heap.length, ⟨key, now⟩)]) ∧ Same c c' := by
  have hpath : c.lr :: (es.map Prod.fst ++ [c.mr]) = (c.lr :: es.map Prod.fst) ++ [c.mr] := rfl
  have hl := h.linked
  have hd := h.nodup
  have hb := h.bound
  rw [hpath] at hl hd hb
  obtain ⟨heap, hi, hlinked, hlen, hnew, hval⟩ := hl.insertBefore hd (by simp) hb ⟨key, now⟩
  have hlong : c.lr :: ((es ++ [(c.heap.length, (⟨key, now⟩ : Entry))]).map Prod.fst ++ [c.mr]) =
      (c.lr :: es.map Prod.fst) ++ [c.heap.length, c.mr] := by simp
  refine ⟨{ c with heap := heap, cache := c.cache.put (key, c.heap.length) }, by simp [LRCache.addMR, hi],
    ⟨?_, ?_, ?_, ?_, ?_⟩, ⟨rfl, rfl, rfl, rfl⟩⟩
  · rw [hlong]
    exact hlinked
  · rw [hlong, show [c.heap.length, c.mr] = [c.heap.length] ++ [c.mr] from rfl, ← List.append_assoc]
    have hfresh : c.heap.length ∉ (c.lr :: es.map Prod.fst) ++ [c.mr] := fun hmem => (hb _ hmem).false
    have hperm : ((c.lr :: es.map Prod.fst) ++ [c.heap.length] ++ [c.mr]).Perm
        (c.heap.length :: ((c.lr :: es.map Prod.fst) ++ [c.mr])) := by
      rw [List.append_assoc, List.singleton_append]
      exact List.perm_middle
    exact hperm.nodup_iff.mpr (List.nodup_cons.mpr ⟨hfresh, hd⟩)
  · rw [hlong]
    intro a ha
    have ha : a ∈ (c.lr :: es.map Prod.fst) ++ [c.mr] ∨ a = c.heap.length := by
      simp only [List.mem_append, List.mem_cons, List.not_mem_nil, or_false] at ha ⊢
      tauto
    show a < heap.length
    rcases ha with ha | rfl
    · have := hb a ha
      omega
    · omega
  · intro x hx
    rcases List.mem_append.mp hx with hx | hx
    · have hlt : x.1 < c.heap.length := h.bound x.1 (by
        simp only [List.mem_cons, List.mem_append, List.mem_map]
        exact .inr (.inl ⟨x, hx, rfl⟩))
      exact (hval x.1 hlt).trans (h.vals x hx)
    · rw [List.mem_singleton.mp hx]
      exact hnew
  · have hnone : ∀ e ∈ c.cache.rows, e.1 ≠ key := Table.find_eq_none.mp (by simpa [LRCache.has] using hk)
    have hput : (c.cache.put (key, c.heap.length)).rows = (key, c.heap.length) :: c.cache.rows := by
      simp only [Table.put, List.cons.injEq, true_and]
      exact List.filter_eq_self.mpr fun e he => by simpa using hnone e he
    show (c.cache.put (key, c.heap.length)).rows.Perm _
    rw [hput, List.map_append]
    exact (h.rows.cons _).trans (List.perm_append_singleton _ _).symm

/-- the first node, or the end of the list -/
theorem Rep.first (h : Rep c es) : c.heap.next c.lr = some ((es.map Prod.fst).headD c.mr) := by
  have hl := h.linked
  cases es with
  | nil => exact (List.isChain_cons_cons.mp hl).1.1
  | cons x es => exact (List.isChain_cons_cons.mp hl).1.1

/-- the successor of a node -/
theorem Rep.next {xs ys : List (ℕ × Entry)} {x : ℕ × Entry} (h : Rep c (xs ++ x :: ys)) :
    c.heap.next x.1 = some ((ys.map Prod.fst).headD c.mr) := by
  have hl := h.linked
  have hpath : c.lr :: ((xs ++ x :: ys).map Prod.fst ++ [c.mr]) =
      (c.lr :: xs.map Prod.fst) ++ x.1 :: (ys.map Prod.fst ++ [c.mr]) := by simp
  rw [hpath] at hl
  have hr := List.IsChain.right_of_append hl
  cases ys with
  | nil => exact (List.isChain_cons_cons.mp hr).1.1
  | cons y ys => exact (List.isChain_cons_cons.mp hr).1.1

end Rep

/-! ## Calls -/

section Calls
variable {c : LRCache} {es : List (ℕ × Entry)}

/-- refreshing a key moves its node to the end -/
theorem Rep.refresh {xs ys : List (ℕ × Entry)} {x : ℕ × Entry} (h : Rep c (xs ++ x :: ys)) (now : ℤ) :
    ∃ c₁ c' n, c.removeNode (some x.1) = some c₁ ∧ c₁.addMR x.2.key now = some c' ∧
      Rep c' (xs ++ ys ++ [(n, ⟨x.2.key, now⟩)]) ∧ Same c c' := by
  obtain ⟨c₁, hremove, hrep₁, hsame₁, -⟩ := h.removeNode
  have hgone : c₁.has x.2.key = false := by
    rw [Bool.eq_false_iff]
    intro hhas
    have hk := h.keys_nodup
    rw [List.map_append, List.map_cons] at hk
    have hmid := List.nodup_middle.mp hk
    rw [← List.map_append] at hmid
    exact (List.nodup_cons.mp hmid).1 (hrep₁.has.mp hhas)
  obtain ⟨c', hadd, hrep', hsame'⟩ := hrep₁.addMR hgone now
  exact ⟨c₁, c', _, hremove, hadd, hrep', hsame₁.trans hsame'⟩

/-- a key that is present, with its place in the list -/
theorem Rep.split (h : Rep c es) {key : String} (hk : c.has key = true) :
    ∃ xs x ys, es = xs ++ x :: ys ∧ x.2.key = key ∧ c.cache.find key = some (key, x.1) := by
  obtain ⟨x, hx, rfl⟩ := List.mem_map.mp (h.has.mp hk)
  obtain ⟨xs, ys, rfl⟩ := List.append_of_mem hx
  exact ⟨xs, x, ys, rfl, rfl, h.find.mpr ⟨x, hx, rfl, rfl⟩⟩

theorem Rep.seenRecently_present {xs ys : List (ℕ × Entry)} {x : ℕ × Entry} (h : Rep c (xs ++ x :: ys))
    (hf : c.cache.find x.2.key = some (x.2.key, x.1)) (now : ℤ) :
    ∃ c' n, c.seenRecently x.2.key now = some (c', true) ∧ Rep c' (xs ++ ys ++ [(n, ⟨x.2.key, now⟩)]) ∧ Same c c' := by
  obtain ⟨c₁, c', n, hremove, hadd, hrep, hsame⟩ := h.refresh now
  exact ⟨c', n, by simp [LRCache.seenRecently, hf, hremove, hadd], hrep, hsame⟩

/-- the second half of `Record`: make room and insert -/
theorem Rep.insert (h : Rep c es) {key : String} (hk : c.has key = false) (hcap : 1 ≤ c.capacity) (now : ℤ) :
    ∃ c₁ c' n, (if c.capacity = c.cache.rows.length then c.removeNode (c.heap.next c.lr) else some c) = some c₁ ∧
      c₁.addMR key now = some c' ∧
      Rep c' ((if c.capacity = es.length then es.tail else es) ++ [(n, ⟨key, now⟩)]) ∧ Same c c' := by
  rw [h.length]
  by_cases hfull : c.capacity = es.length
  · rw [if_pos hfull, if_pos hfull]
    cases es with
    | nil => simp at hfull; omega
    | cons x es =>
      have hx : Rep c ([] ++ x :: es) := h
      obtain ⟨c₁, hremove, hrep₁, hsame₁, -⟩ := hx.removeNode
      have hgone : c₁.has key = false := by
        rw [Bool.eq_false_iff] at hk ⊢
        intro hhas
        exact hk (h.has.mpr (List.mem_cons_of_mem _ (hrep₁.has.mp hhas)))
      obtain ⟨c', hadd, hrep', hsame'⟩ := hrep₁.addMR hgone now
      refine ⟨c₁, c', _, ?_, hadd, hrep', hsame₁.trans hsame'⟩
      rw [h.first]
      exact hremove
  · rw [if_neg hfull, if_neg hfull]
    obtain ⟨c', hadd, hrep', hsame'⟩ := h.addMR hk now
    exact ⟨c, c', _, rfl, hadd, hrep', hsame'⟩

/-- `Record` of a new key -/
theorem Rep.record_absent (h : Rep c es) {key : String} (hk : c.has key = false) (hcap : 1 ≤ c.capacity)
    (now₁ now₂ : ℤ) : ∃ c' n, c.record key now₁ now₂ = some c' ∧
      Rep c' ((if c.capacity = es.length then es.tail else es) ++ [(n, ⟨key, now₂⟩)]) ∧ Same c c' := by
  obtain ⟨c₁, c', n, hroom, hadd, hrep, hsame⟩ := h.insert hk hcap now₂
  refine ⟨c', n, ?_, hrep, hsame⟩
  have hnone : c.cache.find key = none := by simpa [LRCache.has] using hk
  simp only [LRCache.record, hnone, Option.bind_eq_bind, Option.bind_some]
  split_ifs at hroom ⊢
  · rw [hroom]
    exact hadd
  · rw [Option.some.inj hroom]
    exact hadd

/-- `Record` of the only key, if there is room for one: the node is refreshed, evicted and inserted -/
theorem Rep.record_only {x : ℕ × Entry} (h : Rep c [x]) (hcap : c.capacity = 1) (now₁ now₂ : ℤ) :
    ∃ c' n, c.record x.2.key now₁ now₂ = some c' ∧ Rep c' [(n, ⟨x.2.key, now₂⟩)] ∧ Same c c' := by
  have hx : Rep c ([] ++ x :: []) := h
  have hf : c.cache.find x.2.key = some (x.2.key, x.1) := h.find.mpr ⟨x, List.mem_singleton.mpr rfl, rfl, rfl⟩
  obtain ⟨c₁, c₂, m, hremove, hadd, hrep, hsame⟩ := hx.refresh now₁
  have hfull : c₂.capacity = c₂.cache.rows.length := by
    rw [hsame.capacity, hcap, hrep.length]
    simp
  have hfirst : Rep c₂ ([] ++ (m, ⟨x.2.key, now₁⟩) :: []) := hrep
  obtain ⟨c₃, c', n, hremove', hadd', hrep', hsame'⟩ := hfirst.refresh now₂
  refine ⟨c', n, ?_, hrep', hsame.trans hsame'⟩
  have hnext : c₂.heap.next c₂.lr = some m := hrep.first
  simp only [LRCache.record, hf, hremove, hadd, Option.bind_eq_bind, Option.bind_some]
  rw [if_pos hfull, hnext, hremove']
  exact hadd'

/-- the loop of `PeriodicRun` drops the nodes that are too old, up to the first that is not -/
theorem Rep.expire (cutoff : ℤ) {fuel : ℕ} (h : Rep c es) (hfuel : es.length < fuel) :
    ∃ c', c.expire cutoff fuel (some ((es.map Prod.fst).headD c.mr)) = some c' ∧
      Rep c' (es.dropWhile fun x => x.2.lastSeen < cutoff) ∧ Same c c' := by
  induction es generalizing c fuel with
  | nil =>
    cases fuel with
    | zero => omega
    | succ fuel => exact ⟨c, by simp [LRCache.expire], h, .refl c⟩
  | cons x es ih =>
    cases fuel with
    | zero => simp at hfuel
    | succ fuel =>
      have hmr : ¬x.1 = c.mr := by
        have hd := (List.nodup_cons.mp h.nodup).2
        rw [List.map_cons, List.cons_append] at hd
        intro e
        exact (List.nodup_cons.mp hd).1 (by simp [e])
      have hval : c.heap.val x.1 = some x.2 := h.vals x (by simp)
      by_cases hold : x.2.lastSeen < cutoff
      · have hx : Rep c ([] ++ x :: es) := h
        obtain ⟨c₁, hremove, hrep₁, hsame₁, -⟩ := hx.removeNode
        have hfuel' : es.length < fuel := by simpa using hfuel
        obtain ⟨c', hrest, hrep', hsame'⟩ := ih hrep₁ hfuel'
        refine ⟨c', ?_, ?_, hsame₁.trans hsame'⟩
        · rw [← hrest, hsame₁.mr]
          simp [LRCache.expire, hmr, hval, hold, hremove, hx.next]
        · rw [List.dropWhile_cons_of_pos (by simpa using hold)]
          exact hrep'
      · refine ⟨c, by simp [LRCache.expire, hmr, hval, hold], ?_, .refl c⟩
        rw [List.dropWhile_cons_of_neg (by simpa using hold)]
        exact h

/-- the list has two cells less than the heap -/
theorem Rep.length_lt (h : Rep c es) : es.length < c.heap.length := by
  have hsub : c.lr :: (es.map Prod.fst ++ [c.mr]) ⊆ List.range c.heap.length := by
    intro a ha
    exact List.mem_range.mpr (h.bound a ha)
  have hle := (List.subperm_of_subset h.nodup hsub).length_le
  simp only [List.length_cons, List.length_append, List.length_map, List.length_nil, List.length_range] at hle
  omega

theorem Rep.periodicRun (h : Rep c es) (now : ℤ) : ∃ c', c.periodicRun now = some c' ∧
    Rep c' (es.dropWhile fun x => x.2.lastSeen < now - c.ttl) ∧ Same c c' := by
  rw [LRCache.periodicRun, h.first]
  exact h.expire _ h.length_lt

end Calls

/-! ## Runs -/

/-- a `Record` is of a key that is not in the map, or there is room for one key only -/
def Call.fresh (c : LRCache) : Call → Bool
  | .record key _ _ => !c.has key || c.capacity = 1
  | _ => true

/-- so is every `Record` of a run -/
def allFresh (c : LRCache) : List Call → Bool
  | [] => true
  | a :: calls => a.fresh c && (c.step a).all fun c' => allFresh c' calls

theorem run_concat (c : LRCache) (calls : List Call) (a : Call) :
    c.run (calls ++ [a]) = (c.run calls).bind fun c' => c'.step a := by
  simp [LRCache.run, List.foldlM_append]

theorem allFresh_concat (c : LRCache) (calls : List Call) (a : Call) :
    allFresh c (calls ++ [a]) = (allFresh c calls && (c.run calls).all fun c' => a.fresh c') := by
  induction calls generalizing c with
  | nil => simp [allFresh, LRCache.run]
  | cons b calls ih =>
    simp only [List.cons_append, allFresh, LRCache.run, List.foldlM_cons]
    cases hb : c.step b with
    | none => simp
    | some c' => simp [ih, LRCache.run, Bool.and_assoc]

/-- the list is in the order of the touches, which it remembers the times of -/
structure Inv (calls : List Call) (c : LRCache) (es : List (ℕ × Entry)) : Prop where
  rep : Rep c es
  room : (es.length : ℤ) ≤ c.capacity
  order : es.Pairwise fun x y => touched calls x.2.key < touched calls y.2.key
  times : ∀ x ∈ es, touchedAt calls x.2.key = some x.2.lastSeen
  sorted : es.Pairwise fun x y => x.2.lastSeen ≤ y.2.lastSeen

section Steps
variable {calls : List Call} {c c' : LRCache} {es es' : List (ℕ × Entry)} {a : Call}

/-- a call that names a key and leaves it at the end of a part of the list -/
theorem Inv.touch (h : Inv calls c es) (hsub : es'.Sublist es) {n : ℕ} {key : String} {now : ℤ}
    (hkey : ∀ x ∈ es', x.2.key ≠ key) (hnames : ∀ k, a.names k = decide (key = k)) (htime : a.time = now)
    (hclock : ∀ t ∈ calls.flatMap Call.readings, t ≤ now) (hrep : Rep c' (es' ++ [(n, ⟨key, now⟩)]))
    (hroom : ((es'.length + 1 : ℕ) : ℤ) ≤ c'.capacity) : Inv (calls ++ [a]) c' (es' ++ [(n, ⟨key, now⟩)]) := by
  have hold : ∀ x ∈ es', a.names x.2.key = false := by
    intro x hx
    rw [hnames]
    simpa using (hkey x hx).symm
  have hself : a.names key = true := by
    rw [hnames]
    simp
  refine ⟨hrep, by simpa using hroom, ?_, ?_, ?_⟩
  · refine List.pairwise_append.mpr ⟨?_, List.pairwise_singleton _ _, ?_⟩
    · refine (h.order.sublist hsub).imp_of_mem ?_
      intro x y hx hy hlt
      rw [touched_concat, touched_concat, hold x hx, hold y hy]
      exact hlt
    · intro x hx y hy
      rw [List.mem_singleton.mp hy, touched_concat, touched_concat, hold x hx, hself]
      exact Nat.lt_succ_of_le (touched_le calls x.2.key)
  · intro x hx
    rw [touchedAt_concat]
    rcases List.mem_append.mp hx with hx | hx
    · rw [hold x hx]
      exact h.times x (hsub.subset hx)
    · rw [List.mem_singleton.mp hx, hself, htime]
      rfl
  · refine List.pairwise_append.mpr ⟨h.sorted.sublist hsub, List.pairwise_singleton _ _, ?_⟩
    intro x hx y hy
    rw [List.mem_singleton.mp hy]
    exact hclock _ (touchedAt_mem (h.times x (hsub.subset hx)))

/-- a call that names no key present and takes nothing but a part of the list -/
theorem Inv.drop (h : Inv calls c es) (hsub : es'.Sublist es) (hnames : ∀ x ∈ es', a.names x.2.key = false)
    (hrep : Rep c' es') (hcap : c'.capacity = c.capacity) : Inv (calls ++ [a]) c' es' := by
  refine ⟨hrep, ?_, ?_, ?_, h.sorted.sublist hsub⟩
  · rw [hcap]
    exact (Int.ofNat_le.mpr hsub.length_le).trans h.room
  · refine (h.order.sublist hsub).imp_of_mem ?_
    intro x y hx hy hlt
    rw [touched_concat, touched_concat, hnames x hx, hnames y hy]
    exact hlt
  · intro x hx
    rw [touchedAt_concat, hnames x hx]
    exact h.times x (hsub.subset hx)

/-- in a list ordered by time, dropping the old ones from the front drops exactly the old ones -/
theorem mem_dropWhile_sorted {cutoff : ℤ} (hs : es.Pairwise fun x y => x.2.lastSeen ≤ y.2.lastSeen) {x : ℕ × Entry} :
    x ∈ es.dropWhile (fun x => x.2.lastSeen < cutoff) ↔ x ∈ es ∧ cutoff ≤ x.2.lastSeen := by
  induction es with
  | nil => simp
  | cons y es ih =>
    obtain ⟨hy, hs⟩ := List.pairwise_cons.mp hs
    by_cases hold : y.2.lastSeen < cutoff
    · rw [List.dropWhile_cons_of_pos (by simpa using hold), ih hs]
      constructor
      · rintro ⟨hx, ht⟩
        exact ⟨List.mem_cons_of_mem _ hx, ht⟩
      · rintro ⟨hx, ht⟩
        rcases List.mem_cons.mp hx with rfl | hx
        · omega
        · exact ⟨hx, ht⟩
    · rw [List.dropWhile_cons_of_neg (by simpa using hold)]
      constructor
      · intro hx
        refine ⟨hx, ?_⟩
        rcases List.mem_cons.mp hx with rfl | hmem
        · omega
        · have := hy x hmem
          omega
      · exact fun hx => hx.1

/-- what a call does to the keys of the map -/
def Effect (calls : List Call) (c : LRCache) (c' : LRCache) : Call → Prop
  | .record key _ _ =>
    (c.has key = true → ∀ k, c'.has k = c.has k) ∧
    (c.has key = false → c.cache.rows.length < c.capacity → ∀ k, c'.has k = true ↔ k = key ∨ c.has k = true) ∧
    (c.has key = false → c.cache.rows.length = c.capacity → ∃ k₀, c.has k₀ = true ∧
      (∀ k, c.has k = true → k ≠ k₀ → touched calls k₀ < touched calls k) ∧
      ∀ k, c'.has k = true ↔ k = key ∨ (c.has k = true ∧ k ≠ k₀))
  | .seenRecently key now =>
    (c.seenRecently key now).map Prod.snd = some (c.has key) ∧ ∀ k, c'.has k = c.has k
  | .periodicRun now => ∀ k, c'.has k = true ↔ c.has k = true ∧ ∀ t, touchedAt calls k = some t → now - t ≤ c.ttl

theorem has_of_keys {k : String} (h : Rep c es) (h' : Rep c' es')
    (hk : k ∈ es'.map (fun x => x.2.key) ↔ k ∈ es.map fun x => x.2.key) : c'.has k = c.has k := by
  rw [Bool.eq_iff_iff, h.has, h'.has]
  exact hk

/-- refreshing keeps the keys -/
theorem keys_refresh {xs ys : List (ℕ × Entry)} {x : ℕ × Entry} {n : ℕ} {now : ℤ} (k : String) :
    k ∈ (xs ++ ys ++ [(n, (⟨x.2.key, now⟩ : Entry))]).map (fun x => x.2.key) ↔
      k ∈ (xs ++ x :: ys).map fun x => x.2.key := by
  simp only [List.map_append, List.map_cons, List.map_nil, List.mem_append, List.mem_cons, List.not_mem_nil, or_false]
  tauto

theorem step_record (h : Inv calls c es) (hcap : 1 ≤ c.capacity) {key : String} {now₁ now₂ : ℤ}
    (hfresh : Call.fresh c (.record key now₁ now₂) = true) (hclock : ∀ t ∈ calls.flatMap Call.readings, t ≤ now₂) :
    ∃ c' es', c.record key now₁ now₂ = some c' ∧ Inv (calls ++ [.record key now₁ now₂]) c' es' ∧ Same c c' ∧
      Effect calls c c' (.record key now₁ now₂) := by
  cases hk : c.has key with
  | true =>
    -- the only way to be fresh is a capacity of one
    have hone : c.capacity = 1 := by simpa [Call.fresh, hk] using hfresh
    obtain ⟨xs, x, ys, rfl, rfl, -⟩ := h.rep.split hk
    have hlen := h.room
    rw [hone, List.length_append, List.length_cons] at hlen
    obtain rfl : xs = [] := List.length_eq_zero_iff.mp (by omega)
    obtain rfl : ys = [] := List.length_eq_zero_iff.mp (by omega)
    have hx : Rep c [x] := h.rep
    obtain ⟨c', n, hrun, hrep, hsame⟩ := hx.record_only hone now₁ now₂
    have hinv' : Inv (calls ++ [.record x.2.key now₁ now₂]) c' ([] ++ [(n, ⟨x.2.key, now₂⟩)]) := by
      refine h.touch (List.nil_sublist _) (by simp) (fun _ => rfl) rfl hclock hrep ?_
      rw [hsame.capacity, hone]
      simp
    refine ⟨c', _, hrun, hinv', hsame, fun _ k => ?_, fun hno => by simp [hk] at hno, fun hno => by simp [hk] at hno⟩
    exact has_of_keys hx hrep (by simp)
  | false =>
    obtain ⟨c', n, hrun, hrep, hsame⟩ := h.rep.record_absent hk hcap now₁ now₂
    have hne : ∀ x ∈ es, x.2.key ≠ key := by
      intro x hx e
      have := h.rep.has.mpr (List.mem_map.mpr ⟨x, hx, e⟩)
      simp [hk] at this
    by_cases hfull : c.capacity = es.length
    · rw [if_pos hfull] at hrep
      cases es with
      | nil => simp at hfull; omega
      | cons x es =>
        have hinv' : Inv (calls ++ [.record key now₁ now₂]) c' (es ++ [(n, ⟨key, now₂⟩)]) := by
          refine h.touch (List.sublist_cons_self x es) (fun y hy => hne y (List.mem_cons_of_mem _ hy)) (fun _ => rfl) rfl
            hclock hrep ?_
          rw [hsame.capacity, hfull]
          simp
        refine ⟨c', _, hrun, hinv', hsame, fun hno => by simp [hk] at hno, fun _ hlt => ?_, fun _ _ => ⟨x.2.key, ?_, ?_, ?_⟩⟩
        · rw [h.rep.length] at hlt
          omega
        · exact h.rep.has.mpr (by simp)
        · intro k hhas hkx
          obtain ⟨y, hy, rfl⟩ := List.mem_map.mp (h.rep.has.mp hhas)
          rcases List.mem_cons.mp hy with rfl | hy
          · exact absurd rfl hkx
          · exact (List.pairwise_cons.mp h.order).1 y hy
        · intro k
          have hnd := List.nodup_cons.mp h.rep.keys_nodup
          rw [hrep.has, h.rep.has]
          simp only [List.tail_cons, List.map_append, List.map_cons, List.map_nil, List.mem_append, List.mem_cons,
            List.not_mem_nil, or_false]
          constructor
          · rintro (hmem | rfl)
            · refine .inr ⟨.inr hmem, ?_⟩
              rintro rfl
              exact hnd.1 hmem
            · exact .inl rfl
          · rintro (rfl | ⟨rfl | hmem, hkx⟩)
            · exact .inr rfl
            · exact absurd rfl hkx
            · exact .inl hmem
    · rw [if_neg hfull] at hrep
      have hinv' : Inv (calls ++ [.record key now₁ now₂]) c' (es ++ [(n, ⟨key, now₂⟩)]) := by
        refine h.touch (List.Sublist.refl _) hne (fun _ => rfl) rfl hclock hrep ?_
        have := h.room
        rw [hsame.capacity]
        omega
      refine ⟨c', _, hrun, hinv', hsame, fun hno => by simp [hk] at hno, fun _ _ k => ?_, fun _ heq => ?_⟩
      · rw [hrep.has, h.rep.has]
        simp only [List.map_append, List.map_cons, List.map_nil, List.mem_append, List.mem_cons, List.not_mem_nil, or_false]
        exact or_comm
      · rw [h.rep.length] at heq
        omega

theorem step_seenRecently (h : Inv calls c es) {key : String} {now : ℤ}
    (hclock : ∀ t ∈ calls.flatMap Call.readings, t ≤ now) :
    ∃ c' es', (c.seenRecently key now).map Prod.fst = some c' ∧ Inv (calls ++ [.seenRecently key now]) c' es' ∧
      Same c c' ∧ Effect calls c c' (.seenRecently key now) := by
  cases hk : c.has key with
  | true =>
    obtain ⟨xs, x, ys, rfl, rfl, hf⟩ := h.rep.split hk
    obtain ⟨c', n, hrun, hrep, hsame⟩ := h.rep.seenRecently_present hf now
    have hnd := h.rep.keys_nodup
    rw [List.map_append, List.map_cons] at hnd
    have hmid := (List.nodup_cons.mp (List.nodup_middle.mp hnd)).1
    rw [← List.map_append] at hmid
    have hinv' : Inv (calls ++ [.seenRecently x.2.key now]) c' (xs ++ ys ++ [(n, ⟨x.2.key, now⟩)]) := by
      refine h.touch ((List.sublist_cons_self x ys).append_left xs) (fun y hy e => hmid ?_) (fun _ => rfl) rfl hclock hrep ?_
      · exact List.mem_map.mpr ⟨y, hy, e⟩
      · have := h.room
        simp only [List.length_append, List.length_cons] at this ⊢
        rw [hsame.capacity]
        omega
    exact ⟨c', _, by simp [hrun], hinv', hsame, by simp [hrun, hk], fun k => has_of_keys h.rep hrep (keys_refresh k)⟩
  | false =>
    have hnone : c.cache.find key = none := by simpa [LRCache.has] using hk
    have hrun : c.seenRecently key now = some (c, false) := by simp [LRCache.seenRecently, hnone]
    refine ⟨c, es, by simp [hrun], h.drop (List.Sublist.refl _) (fun x hx => ?_) h.rep rfl, .refl c, by simp [hrun, hk],
      fun _ => rfl⟩
    simp only [Call.names, decide_eq_false_iff_not]
    rintro rfl
    have := h.rep.has.mpr (List.mem_map.mpr ⟨x, hx, rfl⟩)
    simp [hk] at this

theorem step_periodicRun (h : Inv calls c es) (now : ℤ) :
    ∃ c' es', c.periodicRun now = some c' ∧ Inv (calls ++ [.periodicRun now]) c' es' ∧ Same c c' ∧
      Effect calls c c' (.periodicRun now) := by
  obtain ⟨c', hrun, hrep, hsame⟩ := h.rep.periodicRun now
  refine ⟨c', _, hrun, h.drop (List.dropWhile_sublist _) (fun _ _ => rfl) hrep hsame.capacity, hsame, fun k => ?_⟩
  rw [hrep.has, h.rep.has, List.mem_map, List.mem_map]
  constructor
  · rintro ⟨x, hx, rfl⟩
    obtain ⟨hmem, ht⟩ := (mem_dropWhile_sorted h.sorted).mp hx
    refine ⟨⟨x, hmem, rfl⟩, fun t htouched => ?_⟩
    rw [h.times x hmem] at htouched
    have := Option.some.inj htouched
    omega
  · rintro ⟨⟨x, hmem, rfl⟩, ht⟩
    have := ht _ (h.times x hmem)
    exact ⟨x, (mem_dropWhile_sorted h.sorted).mpr ⟨hmem, by omega⟩, rfl⟩

/-- **One call.** -/
theorem Inv.step (h : Inv calls c es) (hcap : 1 ≤ c.capacity) (hfresh : a.fresh c = true)
    (hclock : ∀ t ∈ calls.flatMap Call.readings, t ≤ a.time) :
    ∃ c' es', c.step a = some c' ∧ Inv (calls ++ [a]) c' es' ∧ Same c c' ∧ Effect calls c c' a := by
  cases a with
  | record key now₁ now₂ => exact step_record h hcap hfresh hclock
  | seenRecently key now => exact step_seenRecently h hclock
  | periodicRun now => exact step_periodicRun h now

end Steps

/-- the readings of a call come after those of the calls before it -/
theorem clock_concat {calls : List Call} {a : Call}
    (h : ((calls ++ [a]).flatMap Call.readings).Pairwise (· ≤ ·)) :
    (calls.flatMap Call.readings).Pairwise (· ≤ ·) ∧ ∀ t ∈ calls.flatMap Call.readings, t ≤ a.time := by
  rw [List.flatMap_append, List.pairwise_append] at h
  refine ⟨h.1, fun t ht => h.2.2 t ht a.time ?_⟩
  cases a <;> simp [Call.readings, Call.time]

theorem run_inv {capacity ttl : ℤ} (hcap : 1 ≤ capacity) (calls : List Call)
    (hclock : (calls.flatMap Call.readings).Pairwise (· ≤ ·))
    (hfresh : allFresh (newCache capacity ttl) calls = true) :
    ∃ c es, (newCache capacity ttl).run calls = some c ∧ Inv calls c es ∧ Same (newCache capacity ttl) c := by
  induction calls using List.reverseRecOn with
  | nil =>
    refine ⟨newCache capacity ttl, [], rfl, ⟨newCache_rep capacity ttl, ?_, by simp, by simp, by simp⟩, .refl _⟩
    simp only [newCache, List.length_nil]
    omega
  | append_singleton calls a ih =>
    obtain ⟨hclock, ha⟩ := clock_concat hclock
    rw [allFresh_concat, Bool.and_eq_true] at hfresh
    obtain ⟨c, es, hrun, hinv, hsame⟩ := ih hclock hfresh.1
    have hfa : a.fresh c = true := by simpa [hrun] using hfresh.2
    obtain ⟨c', es', hstep, hinv', hsame', -⟩ := hinv.step (by rw [hsame.capacity]; exact hcap) hfa ha
    exact ⟨c', es', by rw [run_concat, hrun]; exact hstep, hinv', hsame.trans hsame'⟩

/-- the list between the sentinels holds each key of the map once, in the node the map points to, ordered by its times;
the map has no more keys than there is room for -/
def LRCache.WellFormed (c : LRCache) : Prop :=
  ∃ es, Rep c es ∧ es.Pairwise (fun x y => x.2.lastSeen ≤ y.2.lastSeen) ∧ c.cache.rows.length ≤ c.capacity

theorem Inv.wellFormed {calls : List Call} {c : LRCache} {es : List (ℕ × Entry)} (h : Inv calls c es) : c.WellFormed :=
  ⟨es, h.rep, h.sorted, by rw [h.rep.length]; exact h.room⟩

/-- **A bounded LRU cache with expiry, if no present key is recorded.** For every capacity of at least one, every TTL and
every clock that does not go back: after every run whose `Record` calls are all fresh, the cache is well formed, and the
next call has its effect and leaves it well formed. -/
theorem cache_lru (capacity ttl : ℤ) (hcap : 1 ≤ capacity) (calls : List Call) (a : Call)
    (hclock : ((calls ++ [a]).flatMap Call.readings).Pairwise (· ≤ ·))
    (hfresh : allFresh (newCache capacity ttl) (calls ++ [a]) = true) :
    ∃ c c', (newCache capacity ttl).run calls = some c ∧ c.step a = some c' ∧ c.capacity = capacity ∧ c.ttl = ttl ∧
      c.WellFormed ∧ c'.WellFormed ∧ Effect calls c c' a := by
  obtain ⟨hbefore, ha⟩ := clock_concat hclock
  rw [allFresh_concat, Bool.and_eq_true] at hfresh
  obtain ⟨c, es, hrun, hinv, hsame⟩ := run_inv hcap calls hbefore hfresh.1
  have hfa : a.fresh c = true := by simpa [hrun] using hfresh.2
  obtain ⟨c', es', hstep, hinv', -, heffect⟩ := hinv.step (by rw [hsame.capacity]; exact hcap) hfa ha
  exact ⟨c, c', hrun, hstep, hsame.capacity, hsame.ttl, hinv.wellFormed, hinv'.wellFormed, heffect⟩

namespace Sample

/-- the keys from the first sentinel on -/
def keysFrom (c : LRCache) : ℕ → Option ℕ → List String
  | 0, _ => []
  | _, none => []
  | fuel + 1, some a => if a = c.mr then [] else ((c.heap.val a).map Entry.key).toList ++ keysFrom c fuel (c.heap.next a)

/-- recording a present key evicts another one and leaves two nodes for it -/
theorem record_present_evicts :
    let calls : List Call := [.record "a" 0 0, .record "b" 1 1]
    ((newCache 2 60).run calls).map (fun c => (c.has "a", c.has "b", keysFrom c 9 (c.heap.next c.lr))) =
        some (true, true, ["a", "b"]) ∧
      ((newCache 2 60).run (calls ++ [.record "a" 2 2])).map (fun c =>
        (c.has "a", c.has "b", keysFrom c 9 (c.heap.next c.lr))) = some (true, false, ["a", "a"]) := by
  decide +kernel

/-- a full cache that was asked for its older key evicts the other one -/
theorem cache_lru_evicts :
    let calls : List Call := [.record "a" 0 0, .record "b" 1 1, .seenRecently "a" 2]
    allFresh (newCache 2 60) (calls ++ [.record "c" 3 3]) = true ∧
      ∃ c c', (newCache 2 60).run calls = some c ∧ c.step (.record "c" 3 3) = some c' ∧ c.capacity = 2 ∧ c.ttl = 60 ∧
        c.WellFormed ∧ c'.WellFormed ∧ Effect calls c c' (.record "c" 3 3) := by
  intro calls
  have hfresh : allFresh (newCache 2 60) (calls ++ [.record "c" 3 3]) = true := by decide +kernel
  exact ⟨hfresh, cache_lru 2 60 (by decide) calls (.record "c" 3 3) (by decide) hfresh⟩

end Sample

end Crane.ActivityManager
