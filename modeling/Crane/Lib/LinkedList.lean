/-
Doubly linked lists in a heap.

A cell has a value and two nullable pointers; writing through a null or dangling pointer fails. A path is a list of
addresses in which every cell points forward to its successor and the successor points back (`Linked`). The two surgeries
on a path, `unlink` and `insertBefore`, come with one lemma each: the path without the cell, the path with the new cell,
and all values as they were.
-/
import Mathlib.Data.List.Chain
import Mathlib.Data.List.Nodup

namespace Crane.LinkedList

/-- a cell of a doubly linked list; `none` is the null pointer -/
structure Cell (α : Type) where
  val : α
  next : Option ℕ := none
  prev : Option ℕ := none
deriving DecidableEq, Repr

/-- cells by address, in the order of their allocation -/
abbrev Heap (α : Type) := List (Cell α)

variable {α : Type}

namespace Heap

def val (h : Heap α) (a : ℕ) : Option α := h[a]?.map Cell.val

def next (h : Heap α) (a : ℕ) : Option ℕ := h[a]?.bind Cell.next

def prev (h : Heap α) (a : ℕ) : Option ℕ := h[a]?.bind Cell.prev

/-- `p.Next = n` -/
def setNext (h : Heap α) (p n : Option ℕ) : Option (Heap α) := do
  let a ← p
  if a < h.length then some (h.modify a fun c => { c with next := n }) else none

/-- `p.Prev = n` -/
def setPrev (h : Heap α) (p n : Option ℕ) : Option (Heap α) := do
  let a ← p
  if a < h.length then some (h.modify a fun c => { c with prev := n }) else none

/-- take a cell out of its list -/
def unlink (h : Heap α) (a : ℕ) : Option (Heap α) := do
  let c ← h[a]?
  let h ← h.setNext c.prev c.next
  h.setPrev c.next c.prev

/-- a new cell with value `v` in front of the cell `m` -/
def insertBefore (h : Heap α) (m : ℕ) (v : α) : Option (Heap α × ℕ) := do
  let a := h.length
  let h : Heap α := h ++ [{ val := v }]
  let last ← h[m]?
  let h ← h.setNext last.prev (some a)
  let h ← h.setNext (some a) (some m)
  let h ← h.setPrev (some a) last.prev
  let h ← h.setPrev (some m) (some a)
  some (h, a)

/-! ## One write -/

section Write
variable {h h' : Heap α} {p : ℕ} {n : Option ℕ}

theorem setNext_some (hp : p < h.length) (n : Option ℕ) :
    ∃ h', h.setNext (some p) n = some h' ∧ h'.length = h.length ∧ (∀ a, h'.val a = h.val a) ∧
      (∀ a, h'.prev a = h.prev a) ∧ ∀ a, h'.next a = if p = a then n else h.next a := by
  refine ⟨h.modify p fun c => { c with next := n }, by simp [setNext, hp], by simp, ?_, ?_, ?_⟩
  · intro a
    simp only [val, List.getElem?_modify]
    cases h[a]? with
    | none => rfl
    | some c => split_ifs <;> rfl
  · intro a
    simp only [prev, List.getElem?_modify]
    cases h[a]? with
    | none => rfl
    | some c => split_ifs <;> rfl
  · intro a
    simp only [next, List.getElem?_modify]
    by_cases ha : p = a
    · subst ha
      simp [List.getElem?_eq_getElem hp]
    · simp [ha]

theorem setPrev_some (hp : p < h.length) (n : Option ℕ) :
    ∃ h', h.setPrev (some p) n = some h' ∧ h'.length = h.length ∧ (∀ a, h'.val a = h.val a) ∧
      (∀ a, h'.next a = h.next a) ∧ ∀ a, h'.prev a = if p = a then n else h.prev a := by
  refine ⟨h.modify p fun c => { c with prev := n }, by simp [setPrev, hp], by simp, ?_, ?_, ?_⟩
  · intro a
    simp only [val, List.getElem?_modify]
    cases h[a]? with
    | none => rfl
    | some c => split_ifs <;> rfl
  · intro a
    simp only [next, List.getElem?_modify]
    cases h[a]? with
    | none => rfl
    | some c => split_ifs <;> rfl
  · intro a
    simp only [prev, List.getElem?_modify]
    by_cases ha : p = a
    · subst ha
      simp [List.getElem?_eq_getElem hp]
    · simp [ha]

end Write

end Heap

/-! ## Paths -/

/-- `a` and `b` point to each other -/
def Link (h : Heap α) (a b : ℕ) : Prop := h.next a = some b ∧ h.prev b = some a

/-- the cells at these addresses are linked in this order -/
def Linked (h : Heap α) (l : List ℕ) : Prop := l.IsChain (Link h)

section Paths
variable {h h' : Heap α} {l l₁ l₂ : List ℕ} {a b m : ℕ} {v : α}

theorem lt_of_next (hn : h.next a = some b) : a < h.length := by
  by_contra hlt
  simp [Heap.next, List.getElem?_eq_none (not_lt.mp hlt)] at hn

theorem lt_of_prev (hp : h.prev a = some b) : a < h.length := by
  by_contra hlt
  simp [Heap.prev, List.getElem?_eq_none (not_lt.mp hlt)] at hp

/-- pointers that no link of the path uses may change -/
theorem Linked.frame (hl : Linked h l) (hn : ∀ a ∈ l.dropLast, h'.next a = h.next a)
    (hp : ∀ b ∈ l.tail, h'.prev b = h.prev b) : Linked h' l := by
  induction l with
  | nil => exact List.isChain_nil
  | cons a l ih =>
    cases l with
    | nil => exact List.isChain_singleton a
    | cons b l =>
      obtain ⟨hab, hrest⟩ := List.isChain_cons_cons.mp hl
      refine List.isChain_cons_cons.mpr ⟨⟨?_, ?_⟩, ih hrest ?_ ?_⟩
      · rw [hn a (by simp)]
        exact hab.1
      · rw [hp b (by simp)]
        exact hab.2
      · intro x hx
        exact hn x (by simp [hx])
      · intro x hx
        exact hp x (List.mem_cons_of_mem _ hx)

/-- **Unlinking.** The path loses the cell; no value changes. -/
theorem Linked.unlink (hl : Linked h (l₁ ++ a :: l₂)) (hd : (l₁ ++ a :: l₂).Nodup) (h₁ : l₁ ≠ []) (h₂ : l₂ ≠ []) :
    ∃ h', h.unlink a = some h' ∧ Linked h' (l₁ ++ l₂) ∧ h'.length = h.length ∧ ∀ x, h'.val x = h.val x := by
  obtain ⟨l₁, p, rfl⟩ : ∃ l p, l₁ = l ++ [p] := (List.eq_nil_or_concat' l₁).resolve_left h₁
  obtain ⟨n, l₂, rfl⟩ := List.exists_cons_of_ne_nil h₂
  rw [List.append_assoc, List.singleton_append, Linked, List.isChain_append_cons_cons] at hl
  obtain ⟨hleft, ⟨hpn, hap⟩, hrest⟩ := hl
  obtain ⟨⟨han, hna⟩, hright⟩ := List.isChain_cons_cons.mp hrest
  -- the two writes
  obtain ⟨h₁, e₁, len₁, val₁, prev₁, next₁⟩ := Heap.setNext_some (lt_of_next hpn) (some n)
  obtain ⟨h₂, e₂, len₂, val₂, next₂, prev₂⟩ := Heap.setPrev_some (h := h₁) (len₁ ▸ lt_of_prev hna) (some p)
  obtain ⟨c, hc⟩ : ∃ c, h[a]? = some c := ⟨_, List.getElem?_eq_getElem (lt_of_next han)⟩
  have hcn : c.next = some n := by simpa [Heap.next, hc] using han
  have hcp : c.prev = some p := by simpa [Heap.prev, hc] using hap
  refine ⟨h₂, by simp [Heap.unlink, hc, hcn, hcp, e₁, e₂], ?_, len₂.trans len₁, fun x => (val₂ x).trans (val₁ x)⟩
  have hdist : (l₁ ++ [p] ++ a :: n :: l₂).Nodup := hd
  rw [List.append_assoc, List.singleton_append, Linked, List.isChain_append_cons_cons]
  refine ⟨Linked.frame hleft ?_ ?_, ⟨?_, ?_⟩, Linked.frame hright ?_ ?_⟩
  · intro x hx
    rw [List.dropLast_concat] at hx
    rw [next₂, next₁, if_neg]
    rintro rfl
    exact List.disjoint_of_nodup_append hdist.of_append_left hx (by simp)
  · intro x hx
    have hx : x ∈ l₁ ++ [p] := List.mem_of_mem_tail hx
    rw [prev₂, prev₁, if_neg]
    rintro rfl
    exact (List.disjoint_of_nodup_append hdist) hx (by simp)
  · rw [next₂, next₁, if_pos rfl]
  · rw [prev₂, if_pos rfl]
  · intro x hx
    have hx : x ∈ n :: l₂ := List.dropLast_subset _ hx
    rw [next₂, next₁, if_neg]
    rintro rfl
    exact (List.disjoint_of_nodup_append hdist) (by simp) (List.mem_cons_of_mem _ hx)
  · intro x hx
    rw [prev₂, prev₁, if_neg]
    rintro rfl
    have hright : (n :: l₂).Nodup := (List.nodup_cons.mp hdist.of_append_right).2
    exact (List.nodup_cons.mp hright).1 hx

/-- **Inserting.** The path gets a cell at a new address in front of its last one; no other value changes. -/
theorem Linked.insertBefore (hl : Linked h (l ++ [m])) (hd : (l ++ [m]).Nodup) (hne : l ≠ [])
    (hlt : ∀ x ∈ l ++ [m], x < h.length) (v : α) :
    ∃ h', h.insertBefore m v = some (h', h.length) ∧ Linked h' (l ++ [h.length, m]) ∧ h'.length = h.length + 1 ∧
      h'.val h.length = some v ∧ ∀ x, x < h.length → h'.val x = h.val x := by
  obtain ⟨l, p, rfl⟩ : ∃ l' p, l = l' ++ [p] := (List.eq_nil_or_concat' l).resolve_left hne
  rw [List.append_assoc, List.singleton_append, Linked, List.isChain_append_cons_cons] at hl
  obtain ⟨hleft, ⟨hpm, hmp⟩, -⟩ := hl
  set h₀ : Heap α := h ++ [{ val := v }] with hh₀
  have len₀ : h₀.length = h.length + 1 := by simp [hh₀]
  have hold : ∀ x, x < h.length → h₀[x]? = h[x]? := fun x hx => List.getElem?_append_left hx
  have hp : p < h.length := hlt p (by simp)
  have hm : m < h.length := hlt m (by simp)
  obtain ⟨c, hc⟩ : ∃ c, h[m]? = some c := ⟨_, List.getElem?_eq_getElem hm⟩
  have hcp : c.prev = some p := by simpa [Heap.prev, hc] using hmp
  -- the four writes
  obtain ⟨h₁, e₁, len₁, val₁, prev₁, next₁⟩ := Heap.setNext_some (h := h₀) (p := p) (by omega) (some h.length)
  obtain ⟨h₂, e₂, len₂, val₂, prev₂, next₂⟩ := Heap.setNext_some (h := h₁) (p := h.length) (by omega) (some m)
  obtain ⟨h₃, e₃, len₃, val₃, next₃, prev₃⟩ := Heap.setPrev_some (h := h₂) (p := h.length) (by omega) (some p)
  obtain ⟨h₄, e₄, len₄, val₄, next₄, prev₄⟩ := Heap.setPrev_some (h := h₃) (p := m) (by omega) (some h.length)
  have hval : ∀ x, h₄.val x = h₀.val x := fun x => by rw [val₄, val₃, val₂, val₁]
  have hnext : ∀ x, x < h.length → x ≠ p → h₄.next x = h.next x := by
    intro x hx hxp
    rw [next₄, next₃, next₂, if_neg (by omega), next₁, if_neg hxp.symm, Heap.next, hold x hx, Heap.next]
  have hprev : ∀ x, x < h.length → x ≠ m → h₄.prev x = h.prev x := by
    intro x hx hxm
    rw [prev₄, if_neg hxm.symm, prev₃, if_neg (by omega), prev₂, prev₁, Heap.prev, hold x hx, Heap.prev]
  have hdist : (l ++ [p] ++ [m]).Nodup := hd
  refine ⟨h₄, ?_, ?_, by omega, ?_, ?_⟩
  · simp [Heap.insertBefore, ← hh₀, hold m hm, hc, hcp, e₁, e₂, e₃, e₄]
  · rw [List.append_assoc, List.singleton_append, Linked, List.isChain_append_cons_cons]
    refine ⟨Linked.frame hleft ?_ ?_, ⟨?_, ?_⟩, List.isChain_cons_cons.mpr ⟨⟨?_, ?_⟩, List.isChain_singleton _⟩⟩
    · intro x hx
      rw [List.dropLast_concat] at hx
      apply hnext x (hlt x (by simp [hx]))
      rintro rfl
      exact List.disjoint_of_nodup_append hdist.of_append_left hx (by simp)
    · intro x hx
      have hx : x ∈ l ++ [p] := List.mem_of_mem_tail hx
      apply hprev x (hlt x (List.mem_append_left _ hx))
      rintro rfl
      exact (List.disjoint_of_nodup_append hdist) hx (by simp)
    · rw [next₄, next₃, next₂, if_neg (by omega), next₁, if_pos rfl]
    · rw [prev₄, if_neg (by omega), prev₃, if_pos rfl]
    · rw [next₄, next₃, next₂, if_pos rfl]
    · rw [prev₄, if_pos rfl]
  · rw [hval, Heap.val, hh₀]
    simp
  · intro x hx
    rw [hval, Heap.val, hold x hx, Heap.val]

end Paths

end Crane.LinkedList
