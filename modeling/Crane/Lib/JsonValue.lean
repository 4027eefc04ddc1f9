/-
What a JSON document means, and what is left of it once it has been decoded into untyped values.

The meaning of a document (`value`) does not depend on the order of the members of an object, and of members with one
name the last one counts. Go decodes numbers into float64: integers beyond 2^53 are rounded, and those beyond the largest
float64 are an error (`decodeAny`). Documents whose integers are at most 2^53 in magnitude are decoded into their meaning.

A codec is faithful if the meaning of a document it writes tells which value it was written for. A record is faithful if
its fields are and no name comes twice.
-/
import Crane.Lib.Codec

namespace Crane

open Sequences

/-- the float64 nearest to an integer, ties to even -/
def float64 (n : ℤ) : Option ℤ :=
  if n.natAbs ≤ 2 ^ 53 then some n
  else
    let ulp := 2 ^ (Nat.log2 n.natAbs - 52)
    let below := n.natAbs / ulp
    let rest := n.natAbs % ulp
    let nearest := if ulp < 2 * rest ∨ ulp = 2 * rest ∧ below % 2 = 1 then below + 1 else below
    if nearest * ulp < 2 ^ 1024 then some (n.sign * (nearest * ulp : ℕ)) else none

namespace Json

mutual
/-- decoding into an untyped value -/
def decodeAny : Json → Option Json
  | null => some null
  | bool b => some (bool b)
  | num n => (float64 n).map num
  | str s => some (str s)
  | arr l => (decodeItems l).map arr
  | obj l => (decodeMembers l []).map obj

def decodeItems : List Json → Option (List Json)
  | [] => some []
  | j :: l => do
    let v ← decodeAny j
    let vs ← decodeItems l
    return v :: vs

/-- into the map `m` -/
def decodeMembers : List (String × Json) → List (String × Json) → Option (List (String × Json))
  | [], m => some m
  | (k, j) :: l, m => do
    let v ← decodeAny j
    decodeMembers l (put k v m)
end

mutual
/-- the meaning of a document: every object is the map of its members -/
def value : Json → Json
  | null => null
  | bool b => bool b
  | num n => num n
  | str s => str s
  | arr l => arr (valueItems l)
  | obj l => obj (valueMembers l [])

def valueItems : List Json → List Json
  | [] => []
  | j :: l => value j :: valueItems l

def valueMembers : List (String × Json) → List (String × Json) → List (String × Json)
  | [], m => m
  | (k, j) :: l, m => valueMembers l (put k (value j) m)
end

mutual
/-- every integer of the document is at most 2^53 in magnitude -/
def exact : Json → Bool
  | null => true
  | bool _ => true
  | num n => n.natAbs ≤ 2 ^ 53
  | str _ => true
  | arr l => exactItems l
  | obj l => exactMembers l

def exactItems : List Json → Bool
  | [] => true
  | j :: l => exact j && exactItems l

def exactMembers : List (String × Json) → Bool
  | [] => true
  | (_, j) :: l => exact j && exactMembers l
end

mutual
theorem decodeAny_of_exact : (j : Json) → j.exact = true → j.decodeAny = some j.value
  | null, _ => rfl
  | bool _, _ => rfl
  | num n, h => by
    have hn : n.natAbs ≤ 2 ^ 53 := by simpa [exact] using h
    rw [decodeAny, float64, if_pos hn]
    rfl
  | str _, _ => rfl
  | arr l, h => by rw [decodeAny, decodeItems_of_exact l h, value, Option.map_some]
  | obj l, h => by rw [decodeAny, decodeMembers_of_exact l [] h, value, Option.map_some]

theorem decodeItems_of_exact : (l : List Json) → exactItems l = true → decodeItems l = some (valueItems l)
  | [], _ => rfl
  | j :: l, h => by
    obtain ⟨hj, hl⟩ : j.exact = true ∧ exactItems l = true := by simpa [exactItems] using h
    simp [decodeItems, valueItems, decodeAny_of_exact j hj, decodeItems_of_exact l hl]

theorem decodeMembers_of_exact : (l m : List (String × Json)) → exactMembers l = true →
    decodeMembers l m = some (valueMembers l m)
  | [], _, _ => rfl
  | (k, j) :: l, m, h => by
    obtain ⟨hj, hl⟩ : j.exact = true ∧ exactMembers l = true := by simpa [exactMembers] using h
    simp [decodeMembers, valueMembers, decodeAny_of_exact j hj, decodeMembers_of_exact l _ hl]
end

theorem exactItems_iff {l : List Json} : exactItems l = true ↔ ∀ j ∈ l, j.exact = true := by
  induction l with
  | nil => simp [exactItems]
  | cons j l ih => simp [exactItems, ih]

theorem exactMembers_iff {l : List (String × Json)} : exactMembers l = true ↔ ∀ p ∈ l, p.2.exact = true := by
  induction l with
  | nil => simp [exactMembers]
  | cons p l ih => simp [exactMembers, ih]

/-- the untyped values of two documents are deeply equal; a document without one equals none -/
def sameJson (a b : Json) : Bool :=
  match a.decodeAny, b.decodeAny with
  | some v, some w => v = w
  | _, _ => false

/-- exact documents are compared by what they mean -/
theorem sameJson_iff {a b : Json} (ha : a.exact = true) (hb : b.exact = true) :
    sameJson a b = true ↔ a.value = b.value := by
  unfold sameJson
  rw [decodeAny_of_exact a ha, decodeAny_of_exact b hb]
  simp

/-- the members of an object with distinct names, each with its meaning -/
theorem valueMembers_eq (l m : List (String × Json)) :
    valueMembers l m = (l.map fun p => (p.1, p.2.value)).foldl (fun m p => put p.1 p.2 m) m := by
  induction l generalizing m with
  | nil => rfl
  | cons a l ih => rw [valueMembers, ih, List.map_cons, List.foldl_cons]

theorem value_obj (l : List (String × Json)) : (obj l).value = obj (collect (l.map fun p => (p.1, p.2.value))) := by
  rw [value, valueMembers_eq]
  rfl

example : sameJson (.obj [("a", .num 1), ("b", .null)]) (.obj [("b", .null), ("a", .num 2), ("a", .num 1)]) = true := by
  decide +kernel

end Json

namespace Codec

/-! ## Exact codecs -/

/-- every document it writes is exact -/
def Exact {α : Type} (c : Codec α) : Prop := ∀ a, (c.enc a).exact = true

theorem text_exact : text.Exact := fun _ => rfl

theorem flag_exact : flag.Exact := fun _ => rfl

theorem int64_exact {n : ℤ} (h : n.natAbs ≤ 2 ^ 53) : (int64.enc n).exact = true := decide_eq_true h

theorem int32_exact : int32.Exact := by
  intro n
  have hlow := n.le_toInt
  have hhigh := n.toInt_lt
  simp only [int32, Json.exact, decide_eq_true_eq]
  omega

theorem slice_exact {α : Type} {zero : α} {c : Codec α} (hc : c.Exact) : (slice zero c).Exact := by
  intro l
  simp only [slice, Json.exact, Json.exactItems_iff, List.mem_map]
  rintro j ⟨a, -, rfl⟩
  exact hc a

theorem pointer_exact {α : Type} {zero : α} {c : Codec α} (hc : c.Exact) : (pointer zero c).Exact := by
  intro o
  cases o with
  | none => rfl
  | some a => exact hc a

/-- a record is exact if what it writes for its fields is -/
theorem record_exact {α : Type} {strict : Bool} {fields : List (Field α)} {a : α}
    (h : ∀ f ∈ fields, (f.enc a).exact = true) : ((record strict fields).enc a).exact = true := by
  simp only [record, Json.exact, Json.exactMembers_iff, List.mem_map]
  rintro p ⟨f, hf, rfl⟩
  exact h f (List.mem_filter.mp hf).1

/-! ## Faithful codecs -/

/-- values written as documents of one meaning are equal -/
def Faithful {α : Type} (c : Codec α) : Prop := ∀ a b, (c.enc a).value = (c.enc b).value → a = b

theorem text_faithful : text.Faithful := by
  intro a b h
  simpa [text, Json.value] using h

theorem flag_faithful : flag.Faithful := by
  intro a b h
  simpa [flag, Json.value] using h

theorem int32_faithful : int32.Faithful := by
  intro a b h
  exact Int32.toInt_inj.mp (by simpa [int32, Json.value] using h)

theorem int64_faithful : int64.Faithful := by
  intro a b h
  simpa [int64, Json.value] using h

section Containers
variable {α : Type} {zero : α} {c : Codec α}

theorem slice_faithful (hc : c.Faithful) : (slice zero c).Faithful := by
  intro l l' h
  have hitems : Json.valueItems (l.map c.enc) = Json.valueItems (l'.map c.enc) := by simpa [slice, Json.value] using h
  clear h
  induction l generalizing l' with
  | nil =>
    cases l' with
    | nil => rfl
    | cons b l' => simp [Json.valueItems] at hitems
  | cons a l ih =>
    cases l' with
    | nil => simp [Json.valueItems] at hitems
    | cons b l' =>
      simp only [List.map_cons, Json.valueItems, List.cons.injEq] at hitems
      rw [hc a b hitems.1, ih l' hitems.2]

/-- `c` writes no value as null -/
theorem pointer_faithful (hc : c.Faithful) (hnull : ∀ a, (c.enc a).value ≠ .null) : (pointer zero c).Faithful := by
  intro o o' h
  cases o with
  | none =>
    cases o' with
    | none => rfl
    | some b => exact absurd h.symm (hnull b)
  | some a =>
    cases o' with
    | none => exact absurd h (hnull a)
    | some b => rw [hc a b h]

end Containers

section Records
variable {α β : Type} {a b : α}

/-- the field is written for both or for neither, and means the same -/
def Field.Same (f : Field α) (a b : α) : Prop :=
  f.omitted a = f.omitted b ∧ (f.omitted a = false → (f.enc a).value = (f.enc b).value)

def Told (a b : α) : List (Field α) → Prop
  | [] => True
  | f :: fs => f.Same a b ∧ Told a b fs

theorem told_of_forall {fields : List (Field α)} (h : ∀ f ∈ fields, f.Same a b) : Told a b fields := by
  induction fields with
  | nil => trivial
  | cons f fs ih => exact ⟨h f List.mem_cons_self, ih fun g hg => h g (List.mem_cons_of_mem f hg)⟩

/-- the members a record is written with, each with its meaning -/
def meanings (fields : List (Field α)) (a : α) : List (String × Json) :=
  (members fields a).map fun p => (p.1, p.2.value)

theorem record_value (strict : Bool) (fields : List (Field α)) (a : α) :
    ((record strict fields).enc a).value = .obj (collect (meanings fields a)) := Json.value_obj _

theorem meanings_nodup {fields : List (Field α)} (hn : (fields.map Field.name).Nodup) (a : α) :
    ((meanings fields a).map Prod.fst).Nodup := by
  rw [meanings, List.map_map]
  exact (members_keys fields a).nodup hn

theorem mem_meanings {fields : List (Field α)} {p : String × Json} :
    p ∈ meanings fields a ↔ ∃ f ∈ fields, f.omitted a = false ∧ p = (f.name, (f.enc a).value) := by
  simp only [meanings, members, List.map_map, List.mem_map, List.mem_filter]
  constructor
  · rintro ⟨f, ⟨hf, ho⟩, rfl⟩
    exact ⟨f, hf, by simpa using ho, rfl⟩
  · rintro ⟨f, hf, ho, rfl⟩
    exact ⟨f, ⟨hf, by simp [ho]⟩, rfl⟩

/-- the meaning of a record tells the meaning of its fields -/
theorem record_told {strict : Bool} {fields : List (Field α)} (hn : (fields.map Field.name).Nodup)
    (h : ((record strict fields).enc a).value = ((record strict fields).enc b).value) : Told a b fields := by
  rw [record_value, record_value, Json.obj.injEq] at h
  -- a field written for one is written for the other, under the one name it has
  have hmem : ∀ {x y : α}, collect (meanings fields x) = collect (meanings fields y) → ∀ f ∈ fields, f.omitted x = false →
      f.omitted y = false ∧ (f.enc x).value = (f.enc y).value := by
    intro x y hxy f hf ho
    have hx : (f.name, (f.enc x).value) ∈ meanings fields x := mem_meanings.mpr ⟨f, hf, ho, rfl⟩
    have hy : (f.name, (f.enc x).value) ∈ meanings fields y := by
      rwa [← mem_collect (meanings_nodup hn y), ← hxy, mem_collect (meanings_nodup hn x)]
    obtain ⟨g, hg, hgo, hfg⟩ := mem_meanings.mp hy
    obtain ⟨hname, hvalue⟩ := Prod.mk.inj hfg
    obtain rfl : g = f := List.inj_on_of_nodup_map hn hg hf hname.symm
    exact ⟨hgo, hvalue⟩
  apply told_of_forall
  intro f hf
  cases ho : f.omitted a with
  | false =>
    obtain ⟨hb, hvalue⟩ := hmem h f hf ho
    exact ⟨ho.trans hb.symm, fun _ => hvalue⟩
  | true =>
    have hb : f.omitted b = true := by
      by_contra hne
      have hback := (hmem h.symm f hf (by simpa using hne)).1
      simp [ho] at hback
    exact ⟨ho.trans hb.symm, fun hfalse => by simp [ho] at hfalse⟩

/-- fields of one meaning are all that a record means -/
theorem value_of_told {strict : Bool} {fields : List (Field α)} (h : Told a b fields) :
    ((record strict fields).enc a).value = ((record strict fields).enc b).value := by
  have hmeanings : meanings fields a = meanings fields b := by
    induction fields with
    | nil => rfl
    | cons f fs ih =>
      obtain ⟨⟨ho, hv⟩, hrest⟩ := h
      have htail := ih hrest
      simp only [meanings, members, List.map_map] at htail ⊢
      cases hf : f.omitted a with
      | true =>
        rw [List.filter_cons_of_neg (by simp [hf]), List.filter_cons_of_neg (by simp [← ho, hf]), htail]
      | false =>
        rw [List.filter_cons_of_pos (by simp [hf]), List.filter_cons_of_pos (by simp [← ho, hf]), List.map_cons,
          List.map_cons, htail]
        simp [hv hf]
  rw [record_value, record_value, hmeanings]

variable {name : String} {get : α → β} {set : β → α → α} {c : Codec β}

theorem same_of_eq {f : Field α} (ho : f.omitted a = f.omitted b) (h : f.enc a = f.enc b) : f.Same a b :=
  ⟨ho, fun _ => congrArg Json.value h⟩

theorem field_same (hc : c.Faithful) (h : (field name get set c).Same a b) : get a = get b :=
  hc _ _ (h.2 rfl)

/-- `zero` is the only empty value -/
theorem omitempty_same {empty : β → Bool} {zero : β} (hc : c.Faithful) (hzero : ∀ v, empty v = true → v = zero)
    (h : (omitempty name get set c empty).Same a b) : get a = get b := by
  cases ho : empty (get a) with
  | false => exact hc _ _ (h.2 ho)
  | true =>
    have hb : empty (get b) = true := Eq.trans h.1.symm ho
    rw [hzero _ ho, hzero _ hb]

end Records

end Codec

end Crane
