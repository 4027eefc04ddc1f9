/-
Validators: sequences of checks, each with the message of its failure.

A validator is a computation in `Except ε`; the first failing check ends it. The lemmas turn a validator that succeeded
into what its checks say, one after another.
-/
import Mathlib.Data.Nat.Notation

namespace Crane.Checks

variable {ε α β : Type}

/-- one check and the error of its failure -/
def ensure (p : Prop) [Decidable p] (e : ε) : Except ε Unit := if p then .ok () else .error e

@[simp] theorem ensure_ok {p : Prop} [Decidable p] {e : ε} {u : Unit} : ensure p e = .ok u ↔ p := by
  by_cases h : p <;> simp [ensure, h]

theorem bind_ok {x : Except ε α} {f : α → Except ε β} {b : β} :
    (x >>= f) = .ok b ↔ ∃ a, x = .ok a ∧ f a = .ok b := by
  cases x <;> simp [Bind.bind, Except.bind]

/-- a check that yields nothing -/
theorem seq_ok {x : Except ε Unit} {f : Unit → Except ε β} {b : β} :
    (x >>= f) = .ok b ↔ x = .ok () ∧ f () = .ok b := by
  rw [bind_ok]
  constructor
  · rintro ⟨⟨⟩, hx, hf⟩
    exact ⟨hx, hf⟩
  · rintro ⟨hx, hf⟩
    exact ⟨(), hx, hf⟩

def orError (o : Option α) (e : ε) : Except ε α :=
  match o with
  | some a => .ok a
  | none => .error e

@[simp] theorem orError_ok {o : Option α} {e : ε} {a : α} : orError o e = .ok a ↔ o = some a := by
  cases o <;> simp [orError]

/-- the same check for every item -/
def forEach (f : α → Except ε Unit) : List α → Except ε Unit
  | [] => .ok ()
  | a :: l => do
    f a
    forEach f l

theorem forEach_ok {f : α → Except ε Unit} {l : List α} : forEach f l = .ok () ↔ ∀ a ∈ l, f a = .ok () := by
  induction l with
  | nil => simp [forEach]
  | cons a l ih => rw [forEach, seq_ok, ih, List.forall_mem_cons]

end Crane.Checks
