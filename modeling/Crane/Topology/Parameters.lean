/-
What `safeBootstrapParameters` lets into the stored intent of a bootstrap.

The walk refuses a member whose name speaks of a secret and descends into every other member, with one exception: below a
member whose name marks a reference (`_ref`, `_arn`, `_reference`) it looks at nothing. So an inline secret can be stored
there, and it cannot be stored anywhere else: if the walk would also accept what lies below the references, no object at
any depth has such a member that is not itself a reference.
-/
import Crane.Topology.Bootstrap

namespace Crane.Topology

/-! ## The walk -/

theorem safeItems_iff {l : List Json} : safeItems l = true ↔ ∀ j ∈ l, safeValue j = true := by
  induction l with
  | nil => simp [safeItems]
  | cons j l ih => simp [safeItems, ih]

theorem safeMembers_iff {l : List (String × Json)} : safeMembers l = true ↔
    ∀ m ∈ l, referenceName m.1 = true ∨ (forbiddenName m.1 = false ∧ safeValue m.2 = true) := by
  induction l with
  | nil => simp [safeMembers]
  | cons m l ih =>
    obtain ⟨key, j⟩ := m
    simp [safeMembers, ih]

/-! ## Below references -/

mutual

/-- the walk accepts the value of every member with the name of a reference, at every depth -/
def referencesWalk : Json → Bool
  | .arr l => itemsWalk l
  | .obj l => membersWalk l
  | _ => true

def itemsWalk : List Json → Bool
  | [] => true
  | j :: l => referencesWalk j && itemsWalk l

def membersWalk : List (String × Json) → Bool
  | [] => true
  | (key, j) :: l => (!referenceName key || safeValue j) && referencesWalk j && membersWalk l

end

theorem itemsWalk_iff {l : List Json} : itemsWalk l = true ↔ ∀ j ∈ l, referencesWalk j = true := by
  induction l with
  | nil => simp [itemsWalk]
  | cons j l ih => simp [itemsWalk, ih]

theorem membersWalk_iff {l : List (String × Json)} : membersWalk l = true ↔
    ∀ m ∈ l, (referenceName m.1 = true → safeValue m.2 = true) ∧ referencesWalk m.2 = true := by
  induction l with
  | nil => simp [membersWalk]
  | cons m l ih =>
    obtain ⟨key, j⟩ := m
    rw [membersWalk, Bool.and_eq_true, Bool.and_eq_true, ih, List.forall_mem_cons]
    cases referenceName key <;> simp

/-- every object in a document that the walk accepts, references included, is accepted -/
theorem safeMembers_within {l : List (String × Json)} {doc : Json} (h : Json.Within (.obj l) doc)
    (hsafe : safeValue doc = true) (hrefs : referencesWalk doc = true) : safeMembers l = true := by
  induction h with
  | self => exact hsafe
  | item hj _ ih =>
    apply ih
    · exact safeItems_iff.mp hsafe _ hj
    · exact itemsWalk_iff.mp hrefs _ hj
  | member hj _ ih =>
    obtain ⟨hvalue, hbelow⟩ := membersWalk_iff.mp hrefs _ hj
    apply ih
    · rcases safeMembers_iff.mp hsafe _ hj with href | ⟨-, hwalked⟩
      · exact hvalue href
      · exact hwalked
    · exact hbelow

namespace Sample

/-- an object with a password below a reference -/
def hidden : Json := .obj [("x_ref", .obj [("password", .str "p")])]

def referenced : Json := .obj [("image", .str "sha256:abc"), ("auth", .arr [.obj [("join_token_ref", .str "ssm:/key")]])]

end Sample

end Crane.Topology
