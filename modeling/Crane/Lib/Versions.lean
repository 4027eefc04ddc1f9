/-
A store with optimistic concurrency control.

The store is the list of all writes so far, newest first, and the version of a value is the position of its write. So a
version names one value for all times (`find_unique`): a writer who read a value and replaces it only while its version is
still the current one replaces exactly what it read.
-/
import Mathlib.Data.List.Infix
import Mathlib.Data.Nat.Notation

namespace Crane.Versions

variable {K V : Type} [DecidableEq K]

/-- all writes, newest first; `none` is a deletion -/
abbrev Store (K V : Type) := List (K × Option V)

/-- the current value and its version -/
def find (k : K) : Store K V → Option (ℕ × V)
  | [] => none
  | (k', v) :: s => if k' = k then v.map fun v => (s.length + 1, v) else find k s

section Find
variable {k k' : K} {s s' : Store K V} {n : ℕ} {v v' : V}

theorem find_write (s : Store K V) (k : K) (v : V) : find k ((k, some v) :: s) = some (s.length + 1, v) := by
  simp [find]

theorem find_write_ne (s : Store K V) (v : Option V) (h : k' ≠ k) : find k ((k', v) :: s) = find k s := by
  simp [find, h]

theorem find_le (h : find k s = some (n, v)) : n ≤ s.length := by
  induction s with
  | nil => cases h
  | cons w s ih =>
    simp only [find] at h
    split_ifs at h with hk
    · obtain ⟨u, -, hu⟩ := Option.map_eq_some_iff.mp h
      simp only [Prod.mk.injEq] at hu
      rw [← hu.1, List.length_cons]
    · exact (ih h).trans (Nat.le_succ _)

/-- a version that is older than some writes was there before them -/
theorem find_before (hs : s <:+ s') (h : find k s' = some (n, v)) (hn : n ≤ s.length) : find k s = some (n, v) := by
  obtain ⟨new, rfl⟩ := hs
  induction new with
  | nil => exact h
  | cons w new ih =>
    rw [List.cons_append, find] at h
    split_ifs at h with hk
    · obtain ⟨u, -, hu⟩ := Option.map_eq_some_iff.mp h
      simp only [Prod.mk.injEq, List.length_append] at hu
      omega
    · exact ih h

/-- a version names one value -/
theorem find_unique (hs : s <:+ s') (h : find k s = some (n, v)) (h' : find k s' = some (n, v')) : v' = v := by
  have hbefore := find_before hs h' (find_le h)
  rw [h] at hbefore
  simp only [Option.some.injEq, Prod.mk.injEq, true_and] at hbefore
  exact hbefore.symm

end Find

end Crane.Versions
