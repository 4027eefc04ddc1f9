/-
Loops over sequences that Go programs are full of: filtering a slice in place, flattening key-value pairs into one
delimited text, and setting the members of a map one after another.

`filterInPlace` reads and writes one array, as `kept := xs[:0]; for _, x := range xs { if keep(x) { kept = append(kept, x) } }`
does; it is the filter because the write position never passes the read position. `splitPairs` reads back what `joinPairs`
wrote if no key or value contains the separator and no key contains the sign between key and value. A map is the list of
its members in the order of their keys, so that equal maps are equal lists.
-/
import Mathlib.Data.List.Basic
import Mathlib.Order.Nat
import Mathlib.Data.String.Basic
import Mathlib.Data.List.Nodup

namespace Crane.Sequences

variable {α : Type}

/-! ## Filtering in place -/

/-- the array and the number of kept elements, after the element at index `i` was looked at -/
def keepAt (keep : α → Bool) (s : List α × ℕ) (i : ℕ) : List α × ℕ :=
  match s.1[i]? with
  | some x => if keep x then (s.1.set s.2 x, s.2 + 1) else s
  | none => s

def filterInPlace (keep : α → Bool) (xs : List α) : List α :=
  let s := (List.range xs.length).foldl (keepAt keep) (xs, 0)
  s.1.take s.2

/-- after `i` elements: the kept ones stand in front, and what was not looked at is untouched -/
structure KeptUpTo (keep : α → Bool) (xs : List α) (i : ℕ) (s : List α × ℕ) : Prop where
  kept : s.1.take s.2 = (xs.take i).filter keep
  rest : s.1.drop i = xs.drop i
  behind : s.2 ≤ i
  length : s.1.length = xs.length

theorem KeptUpTo.step {keep : α → Bool} {xs : List α} {i : ℕ} {s : List α × ℕ} (h : KeptUpTo keep xs i s)
    (hi : i < xs.length) : KeptUpTo keep xs (i + 1) (keepAt keep s i) := by
  have hget : s.1[i]? = some xs[i] := by
    have := congrArg List.head? h.rest
    rwa [List.head?_drop, List.head?_drop, List.getElem?_eq_getElem hi] at this
  have hrest : s.1.drop (i + 1) = xs.drop (i + 1) := by rw [← List.tail_drop, ← List.tail_drop, h.rest]
  have htake : (xs.take (i + 1)).filter keep = (xs.take i).filter keep ++ [xs[i]].filter keep := by
    rw [List.take_succ_eq_append_getElem hi, List.filter_append]
  have hlt : s.2 < s.1.length := h.length ▸ lt_of_le_of_lt h.behind hi
  simp only [keepAt, hget]
  cases hk : keep xs[i] with
  | false => exact ⟨by simp [htake, hk, h.kept], hrest, h.behind.trans (Nat.le_succ i), h.length⟩
  | true =>
    refine ⟨?_, ?_, Nat.succ_le_succ h.behind, by simp [h.length]⟩
    · -- the write goes right behind what was kept
      rw [htake, if_pos rfl, List.take_succ_eq_append_getElem (by simpa using hlt), List.take_set_of_le le_rfl, h.kept]
      simp [hk]
    · rw [if_pos rfl, List.drop_set_of_lt (lt_of_le_of_lt h.behind (Nat.lt_succ_self i)), hrest]

theorem keptUpTo_fold (keep : α → Bool) (xs : List α) {i : ℕ} (hi : i ≤ xs.length) :
    KeptUpTo keep xs i ((List.range i).foldl (keepAt keep) (xs, 0)) := by
  induction i with
  | zero => exact ⟨by simp, rfl, le_rfl, rfl⟩
  | succ i ih =>
    rw [List.range_succ, List.foldl_append]
    exact (ih (Nat.le_of_succ_le hi)).step hi

/-- filtering in place is filtering -/
theorem filterInPlace_eq (keep : α → Bool) (xs : List α) : filterInPlace keep xs = xs.filter keep := by
  rw [filterInPlace, (keptUpTo_fold keep xs le_rfl).kept, List.take_length]

/-! ## Delimited pairs -/

/-- strings.Cut -/
def cut [DecidableEq α] (c : α) (s : List α) : Option (List α × List α) :=
  if c ∈ s then some (s.takeWhile (· ≠ c), (s.dropWhile (· ≠ c)).tail) else none

def joinPairs (sep eq : α) (l : List (List α × List α)) : List α :=
  [sep].intercalate (l.map fun p => p.1 ++ eq :: p.2)

def splitPairs [DecidableEq α] (sep eq : α) (s : List α) : Option (List (List α × List α)) :=
  (s.splitOn sep).mapM (cut eq)

section Pairs
variable [DecidableEq α] {sep eq : α}

theorem cut_append {k : List α} (h : eq ∉ k) (v : List α) : cut eq (k ++ eq :: v) = some (k, v) := by
  have hk : ∀ x ∈ k, decide (x ≠ eq) = true := fun x hx => decide_eq_true fun e => h (e ▸ hx)
  rw [cut, if_pos (by simp), List.takeWhile_append_of_pos hk, List.dropWhile_append_of_pos hk]
  simp

/-- what was joined is split into the same pairs -/
theorem splitPairs_joinPairs {l : List (List α × List α)} (hne : l ≠ []) (hsep : sep ≠ eq)
    (hfree : ∀ p ∈ l, sep ∉ p.1 ∧ eq ∉ p.1 ∧ sep ∉ p.2) : splitPairs sep eq (joinPairs sep eq l) = some l := by
  have hmem : ∀ x ∈ l.map (fun p => p.1 ++ eq :: p.2), sep ∉ x := by
    intro x hx
    obtain ⟨p, hp, rfl⟩ := List.mem_map.mp hx
    obtain ⟨h₁, -, h₂⟩ := hfree p hp
    simp [h₁, h₂, hsep]
  rw [splitPairs, joinPairs, List.splitOn_intercalate sep hmem (by simpa using hne)]
  clear hne hmem
  induction l with
  | nil => rfl
  | cons p l ih =>
    have hcut := cut_append (hfree p List.mem_cons_self).2.1 p.2
    simp [hcut, ih fun q hq => hfree q (List.mem_cons_of_mem _ hq)]

end Pairs

/-! ## Maps in the order of their keys -/

section Maps

/-- the keys ascend -/
def Sorted (m : List (String × α)) : Prop := m.Pairwise fun a b => a.1 < b.1

/-- `m[k] = v` -/
def put (k : String) (v : α) : List (String × α) → List (String × α)
  | [] => [(k, v)]
  | (k', v') :: rest =>
    if k < k' then (k, v) :: (k', v') :: rest
    else if k = k' then (k, v) :: rest
    else (k', v') :: put k v rest

theorem mem_put {k : String} {v : α} {m : List (String × α)} {p : String × α} (h : p ∈ put k v m) :
    p = (k, v) ∨ p ∈ m := by
  induction m with
  | nil => simpa [put] using h
  | cons a m ih =>
    simp only [put] at h
    split_ifs at h
    · simpa using h
    · exact (List.mem_cons.mp h).imp_right (List.mem_cons_of_mem a)
    · rcases List.mem_cons.mp h with rfl | h
      · exact .inr List.mem_cons_self
      · exact (ih h).imp_right (List.mem_cons_of_mem a)

theorem put_sorted {m : List (String × α)} (h : Sorted m) (k : String) (v : α) : Sorted (put k v m) := by
  induction m with
  | nil => exact List.pairwise_singleton _ _
  | cons a m ih =>
    obtain ⟨ha, hm⟩ := List.pairwise_cons.mp h
    simp only [put]
    split_ifs with hlt heq
    · refine List.pairwise_cons.mpr ⟨fun p hp => ?_, h⟩
      rcases List.mem_cons.mp hp with rfl | hp
      · exact hlt
      · exact lt_trans hlt (ha p hp)
    · exact List.pairwise_cons.mpr ⟨fun p hp => heq ▸ ha p hp, hm⟩
    · refine List.pairwise_cons.mpr ⟨fun p hp => ?_, ih hm⟩
      rcases mem_put hp with rfl | hp
      · exact lt_of_le_of_ne (not_lt.mp hlt) (Ne.symm heq)
      · exact ha p hp

/-- a key after all others goes to the end -/
theorem put_last {m : List (String × α)} {k : String} (h : ∀ p ∈ m, p.1 < k) (v : α) : put k v m = m ++ [(k, v)] := by
  induction m with
  | nil => rfl
  | cons a m ih =>
    have ha := h a List.mem_cons_self
    rw [put, if_neg (not_lt.mpr ha.le), if_neg ha.ne', ih fun p hp => h p (List.mem_cons_of_mem a hp), List.cons_append]

section Put
variable {k k' : String} {v v' : α} {m : List (String × α)}

theorem put_before (h : k < k') : put k v ((k', v') :: m) = (k, v) :: (k', v') :: m := by rw [put, if_pos h]

theorem put_same : put k v ((k, v') :: m) = (k, v) :: m := by rw [put, if_neg (lt_irrefl k), if_pos rfl]

theorem put_after (h : k' < k) : put k v ((k', v') :: m) = (k', v') :: put k v m := by
  rw [put, if_neg h.not_gt, if_neg h.ne']

theorem put_comm_lt (h : k < k') : put k v (put k' v' m) = put k' v' (put k v m) := by
  induction m with
  | nil => rw [put, put, put_before h, put_after h, put]
  | cons a m ih =>
    obtain ⟨a, w⟩ := a
    rcases lt_trichotomy k' a with hk' | rfl | hk'
    · rw [put_before hk', put_before h, put_before (h.trans hk'), put_after h, put_before hk']
    · rw [put_same, put_before h, put_before h, put_after h, put_same]
    · rcases lt_trichotomy k a with hk | rfl | hk
      · rw [put_after hk', put_before hk, put_before hk, put_after h, put_after hk']
      · rw [put_after hk', put_same, put_same, put_after hk']
      · rw [put_after hk', put_after hk, put_after hk, put_after hk', ih]

/-- two keys can be set in either order -/
theorem put_comm (h : k ≠ k') : put k v (put k' v' m) = put k' v' (put k v m) :=
  (lt_or_gt_of_ne h).elim put_comm_lt fun hlt => (put_comm_lt hlt).symm

end Put

/-- the map with these members, the last one of each key -/
def collect (l : List (String × α)) : List (String × α) := l.foldl (fun m p => put p.1 p.2 m) []

theorem mem_put_iff {k : String} {v : α} {m : List (String × α)} (hm : Sorted m) {p : String × α} :
    p ∈ put k v m ↔ p = (k, v) ∨ (p ∈ m ∧ p.1 ≠ k) := by
  induction m with
  | nil => simp [put]
  | cons a m ih =>
    obtain ⟨ha, hm⟩ := List.pairwise_cons.mp hm
    simp only [put]
    split_ifs with hlt heq
    · have hne : ∀ q ∈ a :: m, q.1 ≠ k := by
        intro q hq
        rcases List.mem_cons.mp hq with rfl | hq
        · exact hlt.ne'
        · exact (hlt.trans (ha q hq)).ne'
      rw [List.mem_cons, and_iff_left_of_imp (hne p)]
    · have hne : ∀ q ∈ m, q.1 ≠ k := fun q hq => heq ▸ (ha q hq).ne'
      rw [List.mem_cons, List.mem_cons, or_and_right, and_iff_left_of_imp (hne p)]
      have hself : ¬(p = a ∧ p.1 ≠ k) := by
        rintro ⟨rfl, h⟩
        exact h heq.symm
      simp [hself]
    · have hak : p = a → p.1 ≠ k := by
        rintro rfl h
        exact heq h.symm
      rw [List.mem_cons, List.mem_cons, ih hm, or_and_right, and_iff_left_of_imp hak]
      exact or_left_comm

/-- a list without a key twice has the members of its map -/
theorem mem_collect {l : List (String × α)} (hn : (l.map Prod.fst).Nodup) {p : String × α} : p ∈ collect l ↔ p ∈ l := by
  suffices hs : ∀ m : List (String × α), Sorted m → (∀ q ∈ m, q.1 ∉ l.map Prod.fst) →
      (p ∈ l.foldl (fun m p => put p.1 p.2 m) m ↔ p ∈ m ∨ p ∈ l) by
    simpa [collect] using hs [] List.Pairwise.nil (by simp)
  induction l with
  | nil => simp
  | cons a l ih =>
    intro m hm hfree
    rw [List.map_cons, List.nodup_cons] at hn
    rw [List.foldl_cons, ih hn.2 (put a.1 a.2 m) (put_sorted hm a.1 a.2), mem_put_iff hm, List.mem_cons]
    · have hne : p ∈ m → p.1 ≠ a.1 := fun hp h => hfree p hp (h ▸ List.mem_cons_self)
      rw [and_iff_left_of_imp hne, or_comm (a := p = _), or_assoc]
    · intro q hq
      rcases (mem_put_iff hm).mp hq with rfl | ⟨hq, -⟩
      · exact hn.1
      · exact fun h => hfree q hq (List.mem_cons_of_mem _ h)

/-- a map is the map of its members -/
theorem collect_sorted {l : List (String × α)} (h : Sorted l) : collect l = l := by
  suffices hs : ∀ pre : List (String × α), Sorted (pre ++ l) → l.foldl (fun m p => put p.1 p.2 m) pre = pre ++ l from
    hs [] h
  induction l with
  | nil => exact fun pre _ => by simp
  | cons a l ih =>
    intro pre hpre
    have hput : put a.1 a.2 pre = pre ++ [a] :=
      put_last (fun p hp => (List.pairwise_append.mp hpre).2.2 p hp a List.mem_cons_self) a.2
    rw [List.foldl_cons, hput, ih (List.pairwise_cons.mp h).2 (pre ++ [a]) (by simpa using hpre)]
    simp

/-- the order of the members does not matter if no key comes twice -/
theorem collect_perm {l l' : List (String × α)} (h : l.Perm l') (hn : (l.map Prod.fst).Nodup) : collect l = collect l' := by
  refine h.foldl_eq' (fun p hp q hq m => ?_) []
  by_cases hpq : p = q
  · rw [hpq]
  · exact put_comm fun hk => hpq (List.inj_on_of_nodup_map hn hq hp hk).symm

end Maps

end Crane.Sequences
