/-
Relational tables with a primary key.

A table is a finite set of rows in which no two rows carry the same key; the rows are kept as a list because
queries count and order them, and the uniqueness of keys is part of the type. `put` is the only writer: it stores a
row version under its key, whether or not the key was present (INSERT and UPDATE of one row). `sum` and `count` are
the aggregates. Every lemma says what one `put` does to a lookup, to membership or to an aggregate; the order of the
rows carries no meaning and no lemma depends on it.
-/
import Mathlib.Data.List.Induction
import Mathlib.Data.List.Nodup
import Mathlib.Algebra.Order.Ring.Int
import Mathlib.Algebra.BigOperators.Group.List.Basic
import Mathlib.Algebra.Order.BigOperators.Group.List

namespace Crane

/-- from equal projections: a row on one side has a row on the other -/
theorem exists_of_map_eq {α β : Type} {x y : Option α} {f : α → β} {a : α} (h : x.map f = y.map f) (hx : x = some a) :
    ∃ b, y = some b ∧ f b = f a := by
  subst hx
  cases y with
  | none => simp at h
  | some b => exact ⟨b, rfl, by simpa using h.symm⟩

/-- rows of type `α`, at most one for each key -/
structure Table {α κ : Type} (key : α → κ) where
  rows : List α
  nodup : (rows.map key).Nodup

namespace Table

variable {α κ : Type} {key : α → κ}

/-- a table without rows -/
def empty : Table key := ⟨[], List.nodup_nil⟩

instance : Inhabited (Table key) := ⟨empty⟩

theorem eq_of_key_eq (t : Table key) {a b : α} (ha : a ∈ t.rows) (hb : b ∈ t.rows) (h : key a = key b) : a = b :=
  List.inj_on_of_nodup_map t.nodup ha hb h

section Lookup
variable [DecidableEq κ]

/-- the row stored under `k` -/
def find (t : Table key) (k : κ) : Option α := t.rows.find? fun a => key a = k

theorem find_eq_some {t : Table key} {k : κ} {a : α} : t.find k = some a ↔ a ∈ t.rows ∧ key a = k := by
  constructor
  · intro h
    exact ⟨List.mem_of_find?_eq_some h, by simpa using List.find?_some h⟩
  · rintro ⟨ha, rfl⟩
    cases h : t.find (key a) with
    | none => simpa using List.find?_eq_none.mp h a ha
    | some b =>
      have hb : key b = key a := by simpa using List.find?_some h
      rw [t.eq_of_key_eq (List.mem_of_find?_eq_some h) ha hb]

theorem find_eq_none {t : Table key} {k : κ} : t.find k = none ↔ ∀ a ∈ t.rows, key a ≠ k := by
  simp [find, List.find?_eq_none]

theorem find_mem {t : Table key} {a : α} (h : a ∈ t.rows) : t.find (key a) = some a := find_eq_some.mpr ⟨h, rfl⟩

theorem mem_of_find {t : Table key} {k : κ} {a : α} (h : t.find k = some a) : a ∈ t.rows := (find_eq_some.mp h).1

theorem key_of_find {t : Table key} {k : κ} {a : α} (h : t.find k = some a) : key a = k := (find_eq_some.mp h).2

@[simp] theorem find_empty (k : κ) : (empty : Table key).find k = none := rfl

/-- store the row version `a` under its key -/
def put (a : α) (t : Table key) : Table key where
  rows := a :: t.rows.filter fun b => key b ≠ key a
  nodup := by
    rw [List.map_cons, List.nodup_cons]
    refine ⟨?_, t.nodup.sublist (List.filter_sublist.map key)⟩
    simp

theorem mem_put {t : Table key} {a b : α} : b ∈ (t.put a).rows ↔ b = a ∨ (b ∈ t.rows ∧ key b ≠ key a) := by
  simp [put]

theorem find_put (t : Table key) (a : α) (k : κ) : (t.put a).find k = if key a = k then some a else t.find k := by
  split_ifs with h
  · exact find_eq_some.mpr ⟨mem_put.mpr (.inl rfl), h⟩
  · ext b
    rw [find_eq_some, find_eq_some, mem_put]
    constructor
    · rintro ⟨rfl | ⟨hb, -⟩, hk⟩
      · exact absurd hk h
      · exact ⟨hb, hk⟩
    · rintro ⟨hb, rfl⟩
      exact ⟨.inr ⟨hb, fun e => h e.symm⟩, rfl⟩

@[simp] theorem find_put_self (t : Table key) (a : α) : (t.put a).find (key a) = some a := by simp [find_put]

theorem find_put_ne (t : Table key) {a : α} {k : κ} (h : key a ≠ k) : (t.put a).find k = t.find k := by
  simp [find_put, h]

/-- UPDATE of the row found under a key: what is found there afterwards, and elsewhere -/
theorem find_update {t : Table key} {a : α} {k : κ} (a' : α) (h : t.find k = some a) (hk : key a' = key a) :
    (t.put a').find k = some a' := by
  rw [find_put, if_pos (hk.trans (key_of_find h))]

theorem find_update_ne {t : Table key} {a : α} {k i : κ} (a' : α) (h : t.find k = some a) (hk : key a' = key a)
    (hne : i ≠ k) : (t.put a').find i = t.find i := by
  refine find_put_ne t ?_
  rw [hk, key_of_find h]
  exact hne.symm

/-- the table without the row of a key -/
def remove (k : κ) (t : Table key) : Table key where
  rows := t.rows.filter fun a => key a ≠ k
  nodup := (t.nodup.sublist ((List.filter_sublist).map key))

/-- rewriting one row keeps the projection of every row, if it keeps its own -/
theorem map_find_put {β : Type} {t : Table key} {a : α} (a' : α) (f : α → β) (h : t.find (key a') = some a)
    (hf : f a' = f a) (k : κ) : ((t.put a').find k).map f = (t.find k).map f := by
  rw [find_put]
  split_ifs with hk
  · rw [← hk, h]
    simp [hf]
  · rfl

theorem isSome_find_put {t : Table key} {a : α} (a' : α) (h : t.find (key a') = some a) (k : κ) :
    ((t.put a').find k).isSome = (t.find k).isSome := by
  simpa using congrArg Option.isSome (map_find_put a' (fun _ => ()) h rfl k)

/-- an INSERT adds its row to what queries find -/
theorem exists_put_new {t : Table key} {a : α} (h : t.find (key a) = none) (p : α → Prop) :
    (∃ b ∈ (t.put a).rows, p b) ↔ p a ∨ ∃ b ∈ t.rows, p b := by
  constructor
  · rintro ⟨b, hb, hp⟩
    rcases mem_put.mp hb with rfl | ⟨hb, -⟩
    · exact .inl hp
    · exact .inr ⟨b, hb, hp⟩
  · rintro (hp | ⟨b, hb, hp⟩)
    · exact ⟨a, mem_put.mpr (.inl rfl), hp⟩
    · exact ⟨b, mem_put.mpr (.inr ⟨hb, find_eq_none.mp h b hb⟩), hp⟩

/-- an UPDATE that does not matter to a query -/
theorem exists_put_old {t : Table key} {a a' : α} (h : t.find (key a') = some a) {p : α → Prop} (hp : p a' ↔ p a) :
    (∃ b ∈ (t.put a').rows, p b) ↔ ∃ b ∈ t.rows, p b := by
  obtain ⟨ha, hk⟩ := find_eq_some.mp h
  constructor
  · rintro ⟨b, hb, hpb⟩
    rcases mem_put.mp hb with rfl | ⟨hb, -⟩
    · exact ⟨a, ha, hp.mp hpb⟩
    · exact ⟨b, hb, hpb⟩
  · rintro ⟨b, hb, hpb⟩
    by_cases hkb : key b = key a'
    · obtain rfl := t.eq_of_key_eq hb ha (hkb.trans hk.symm)
      exact ⟨a', mem_put.mpr (.inl rfl), hp.mpr hpb⟩
    · exact ⟨b, mem_put.mpr (.inr ⟨hb, hkb⟩), hpb⟩

/-- store several row versions, in order -/
def putAll (l : List α) (t : Table key) : Table key := l.foldl (fun t a => t.put a) t

@[simp] theorem putAll_nil (t : Table key) : t.putAll [] = t := rfl

@[simp] theorem putAll_cons (a : α) (l : List α) (t : Table key) : t.putAll (a :: l) = (t.put a).putAll l := rfl

/-- an UPDATE that rewrites the rows `l` by `f`, which keeps their keys -/
theorem find_putAll_map [DecidableEq α] (t : Table key) (f : α → α) (hf : ∀ a, key (f a) = key a) (l : List α)
    (hl : ∀ a ∈ l, a ∈ t.rows) (k : κ) :
    (t.putAll (l.map f)).find k = (t.find k).map fun a => if a ∈ l then f a else a := by
  induction l using List.reverseRecOn with
  | nil => simp
  | append_singleton l a ih =>
    have hla : ∀ b ∈ l, b ∈ t.rows := fun b hb => hl b (List.mem_append_left _ hb)
    have ha : a ∈ t.rows := hl a (by simp)
    have hput : t.putAll ((l ++ [a]).map f) = (t.putAll (l.map f)).put (f a) := by
      simp [putAll, List.foldl_append]
    rw [hput, find_put, hf, ih hla]
    split_ifs with hk
    · rw [find_eq_some.mpr ⟨ha, hk⟩]
      simp
    · cases hb : t.find k with
      | none => rfl
      | some b =>
        have hne : b ≠ a := by
          rintro rfl
          exact hk (key_of_find hb)
        simp [hne]

end Lookup

/-! ## Aggregates -/

/-- `SELECT sum(f)` -/
def sum (t : Table key) (f : α → ℤ) : ℤ := (t.rows.map f).sum

/-- `SELECT count(*) WHERE p` -/
def count (t : Table key) (p : α → Bool) : ℕ := t.rows.countP p

theorem sum_nonneg {t : Table key} {f : α → ℤ} (h : ∀ a, 0 ≤ f a) : 0 ≤ t.sum f := by
  refine List.sum_nonneg fun x hx => ?_
  obtain ⟨a, -, rfl⟩ := List.mem_map.mp hx
  exact h a

theorem count_le_add {t : Table key} {p q r : α → Bool} (h : ∀ a ∈ t.rows, p a = true → q a = true ∨ r a = true) :
    t.count p ≤ t.count q + t.count r := by
  unfold count
  generalize t.rows = l at h
  induction l with
  | nil => simp
  | cons a l ih =>
    have ih := ih fun b hb => h b (List.mem_cons_of_mem _ hb)
    have ha := h a List.mem_cons_self
    simp only [List.countP_cons]
    by_cases hp : p a = true
    · rcases ha hp with hq | hr
      · simp only [hp, hq, if_true]
        omega
      · simp only [hp, hr, if_true]
        omega
    · rw [if_neg hp]
      omega

variable [DecidableEq κ]

/-- the keys of the rows that a count counts -/
theorem mem_keys {t : Table key} {p : α → Bool} {k : κ} :
    k ∈ (t.rows.filter p).map key ↔ (t.find k).any p = true := by
  simp only [List.mem_map, List.mem_filter, Option.any_eq_true]
  constructor
  · rintro ⟨a, ⟨ha, hp⟩, rfl⟩
    exact ⟨a, find_mem ha, hp⟩
  · rintro ⟨a, ha, hp⟩
    exact ⟨a, ⟨mem_of_find ha, hp⟩, key_of_find ha⟩

/-- counts are compared key by key: the keys `l` are counted on one side only -/
theorem count_eq_add {t t' : Table key} {p p' : α → Bool} {l : List κ} (hl : l.Nodup)
    (h : ∀ k, (t.find k).any p = true ↔ (t'.find k).any p' = true ∨ k ∈ l)
    (hd : ∀ k ∈ l, (t'.find k).any p' = false) : t.count p = t'.count p' + l.length := by
  have hnodup : ∀ (t : Table key) (p : α → Bool), ((t.rows.filter p).map key).Nodup := fun t p =>
    t.nodup.sublist (List.filter_sublist.map key)
  have hperm : ((t.rows.filter p).map key).Perm ((t'.rows.filter p').map key ++ l) := by
    refine (List.perm_ext_iff_of_nodup (hnodup t p) ?_).mpr fun k => ?_
    · refine List.nodup_append'.mpr ⟨hnodup t' p', hl, fun k hk hkl => ?_⟩
      rw [mem_keys, hd k hkl] at hk
      simp at hk
    · rw [List.mem_append, mem_keys, mem_keys]
      exact h k
  simpa [count, List.countP_eq_length_filter] using hperm.length_eq

theorem count_congr {t t' : Table key} {p p' : α → Bool} (h : ∀ k, (t.find k).any p = (t'.find k).any p') :
    t.count p = t'.count p' :=
  count_eq_add List.nodup_nil (by simp [h]) (by simp)

/-- what a row version of key `k` contributes to a sum -/
def share (t : Table key) (f : α → ℤ) (k : κ) : ℤ := (t.find k).elim 0 f

theorem sum_rows_without (l : List α) (hl : (l.map key).Nodup) (f : α → ℤ) (k : κ) :
    ((l.filter fun b => key b ≠ k).map f).sum + (l.find? fun b => key b = k).elim 0 f = (l.map f).sum := by
  induction l with
  | nil => rfl
  | cons b l ih =>
    rw [List.map_cons, List.nodup_cons] at hl
    by_cases h : key b = k
    · -- the row is at the head, so no other row of the tail has its key
      have hout : l.filter (fun c => key c ≠ k) = l := by
        refine List.filter_eq_self.mpr fun c hc => ?_
        have : key c ≠ k := fun e => hl.1 (List.mem_map.mpr ⟨c, hc, e.trans h.symm⟩)
        simpa using this
      rw [List.filter_cons_of_neg (by simp [h]), hout]
      simp [List.find?_cons_of_pos (p := fun b => decide (key b = k)) (by simpa using h), add_comm]
    · have ih := ih hl.2
      rw [List.filter_cons_of_pos (by simp [h]), List.map_cons, List.sum_cons,
        List.find?_cons_of_neg (by simp [h]), List.map_cons, List.sum_cons]
      omega

/-- a `put` replaces the share of its key and touches no other -/
theorem sum_put (t : Table key) (a : α) (f : α → ℤ) : (t.put a).sum f = t.sum f - t.share f (key a) + f a := by
  have h := sum_rows_without t.rows t.nodup f (key a)
  simp only [sum, put, share, find, List.map_cons, List.sum_cons] at h ⊢
  omega

theorem sum_put_new {t : Table key} {a : α} (h : t.find (key a) = none) (f : α → ℤ) :
    (t.put a).sum f = t.sum f + f a := by
  simp [sum_put, share, h]

theorem sum_put_old {t : Table key} {a b : α} (h : t.find (key a) = some b) (f : α → ℤ) :
    (t.put a).sum f = t.sum f - f b + f a := by
  simp [sum_put, share, h]

end Table

end Crane
