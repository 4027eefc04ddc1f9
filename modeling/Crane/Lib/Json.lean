/-
JSON documents. Objects keep their members in the order in which they are written.
-/
import Mathlib.Data.Nat.Notation
import Mathlib.Data.Int.Notation

namespace Crane

/-- a JSON document -/
inductive Json where
  | null
  | bool (b : Bool)
  | num (n : ℤ)
  | str (s : String)
  | arr (l : List Json)
  | obj (l : List (String × Json))
deriving Repr, Inhabited

namespace Json

mutual
/-- equality of documents is decidable; one arm for each constructor on the left -/
def decEq : (a b : Json) → Decidable (a = b)
  | null, b => match b with
    | null => isTrue rfl
    | bool _ | num _ | str _ | arr _ | obj _ => isFalse nofun
  | bool x, b => match b with
    | bool y => decidable_of_iff (x = y) (by simp)
    | null | num _ | str _ | arr _ | obj _ => isFalse nofun
  | num x, b => match b with
    | num y => decidable_of_iff (x = y) (by simp)
    | null | bool _ | str _ | arr _ | obj _ => isFalse nofun
  | str x, b => match b with
    | str y => decidable_of_iff (x = y) (by simp)
    | null | bool _ | num _ | arr _ | obj _ => isFalse nofun
  | arr x, b => match b with
    | arr y => @decidable_of_iff _ (x = y) (by simp) (decEqList x y)
    | null | bool _ | num _ | str _ | obj _ => isFalse nofun
  | obj x, b => match b with
    | obj y => @decidable_of_iff _ (x = y) (by simp) (decEqMembers x y)
    | null | bool _ | num _ | str _ | arr _ => isFalse nofun

def decEqList : (a b : List Json) → Decidable (a = b)
  | [], [] => isTrue rfl
  | [], _ :: _ => isFalse nofun
  | _ :: _, [] => isFalse nofun
  | x :: xs, y :: ys =>
    have := decEq x y
    have := decEqList xs ys
    decidable_of_iff (x = y ∧ xs = ys) (by simp)

def decEqMembers : (a b : List (String × Json)) → Decidable (a = b)
  | [], [] => isTrue rfl
  | [], _ :: _ => isFalse nofun
  | _ :: _, [] => isFalse nofun
  | (k, x) :: xs, (l, y) :: ys =>
    have := decEq x y
    have := decEqMembers xs ys
    decidable_of_iff ((k = l ∧ x = y) ∧ xs = ys) (by simp)
end

instance : DecidableEq Json := decEq

/-- `x` is the document itself or lies in it, below any keys and arrays -/
inductive Within (x : Json) : Json → Prop
  | self : Within x x
  | item {l : List Json} {j : Json} (hj : j ∈ l) (h : Within x j) : Within x (arr l)
  | member {l : List (String × Json)} {key : String} {j : Json} (hj : (key, j) ∈ l) (h : Within x j) : Within x (obj l)

end Json

end Crane
