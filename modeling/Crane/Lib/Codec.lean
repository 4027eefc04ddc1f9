/-
The way Go's encoding/json writes and reads typed values.

A value is decoded into one that is there already, field by field: members that are not named leave their field as it is,
`null` leaves a scalar as it is and makes a map, a slice or a pointer nil, and a member that comes twice is decoded twice.
A record is a table of fields, each with its name, its codec and when it is omitted. Maps are lists of members in the order
of their keys; a nil map or slice is an empty one.
-/
import Crane.Lib.Base64
import Crane.Lib.Json
import Crane.Lib.Sequences
import Mathlib.Data.List.Nodup
import Mathlib.Data.List.Sort

namespace Crane

/-- how values of a type are written, and how they are read into a value that is there -/
structure Codec (α : Type) where
  enc : α → Json
  into : α → Json → Option α

namespace Codec

open Sequences

/-- a value survives being written and read into `old` -/
def Returns {α : Type} (c : Codec α) (old a : α) : Prop := c.into old (c.enc a) = some a

/-! ## Scalars -/

section Scalars

def text : Codec String where
  enc := .str
  into
    | old, .null => some old
    | _, .str s => some s
    | _, _ => none

def flag : Codec Bool where
  enc := .bool
  into
    | old, .null => some old
    | _, .bool b => some b
    | _, _ => none

def uint64 : Codec ℕ where
  enc n := .num n
  into
    | old, .null => some old
    | _, .num n => if 0 ≤ n ∧ n < 18446744073709551616 then some n.toNat else none
    | _, _ => none

def int64 : Codec ℤ where
  enc := .num
  into
    | old, .null => some old
    | _, .num n => if -9223372036854775808 ≤ n ∧ n < 9223372036854775808 then some n else none
    | _, _ => none

def int32 : Codec Int32 where
  enc n := .num n.toInt
  into
    | old, .null => some old
    | _, .num n => if -2147483648 ≤ n ∧ n < 2147483648 then some (Int32.ofInt n) else none
    | _, _ => none

def uint8 : Json → Option UInt8
  | .null => some 0
  | .num n => if 0 ≤ n ∧ n < 256 then some (UInt8.ofNat n.toNat) else none
  | _ => none

/-- a []byte: nil is null, and other than for maps an empty one is not omitted -/
def bytes : Codec (Option (List UInt8)) where
  enc
    | none => .null
    | some l => .str (String.ofList (Base64.encode l))
  into
    | _, .null => some none
    | _, .str s => (Base64.decode (s.toList.filter fun c => c ≠ '\n' ∧ c ≠ '\r')).map some
    | _, .arr l => (l.mapM uint8).map some
    | _, _ => none

theorem text_returns (old s : String) : text.Returns old s := rfl

theorem flag_returns (old b : Bool) : flag.Returns old b := rfl

theorem uint64_returns (old : ℕ) {n : ℕ} (h : n < 18446744073709551616) : uint64.Returns old n := by
  simp only [Codec.Returns, uint64]
  rw [if_pos ⟨by omega, by omega⟩, Int.toNat_natCast]

theorem int64_returns (old : ℤ) {n : ℤ} (h : 0 ≤ n) (h' : n < 9223372036854775808) : int64.Returns old n :=
  if_pos ⟨by omega, h'⟩

theorem int32_returns (old n : Int32) : int32.Returns old n := by
  have hlow := n.le_toInt
  have hhigh := n.toInt_lt
  simp only [Codec.Returns, int32]
  rw [if_pos ⟨by omega, by omega⟩, Int32.ofInt_toInt]

theorem bytes_returns (old l : Option (List UInt8)) : bytes.Returns old l := by
  cases l with
  | none => rfl
  | some l =>
    show Option.map some (Base64.decode _) = _
    rw [String.toList_ofList, List.filter_eq_self.mpr (by simpa using Base64.encode_chars l), Base64.decode_encode]
    rfl

theorem uint64_lt {old n : ℕ} {j : Json} (h : uint64.into old j = some n) (hold : old < 18446744073709551616) :
    n < 18446744073709551616 := by
  unfold uint64 at h
  cases j with
  | null => exact Option.some.inj h ▸ hold
  | num m =>
    simp only at h
    split_ifs at h with hm
    obtain rfl := Option.some.inj h
    omega
  | bool | str | arr | obj => cases h

theorem int64_lt {old n : ℤ} {j : Json} (h : int64.into old j = some n) (hold : old < 9223372036854775808) :
    n < 9223372036854775808 := by
  unfold int64 at h
  cases j with
  | null => exact Option.some.inj h ▸ hold
  | num m =>
    simp only at h
    split_ifs at h with hm
    exact Option.some.inj h ▸ hm.2
  | bool | str | arr | obj => cases h

end Scalars

/-! ## Slices, pointers and maps -/

section Containers
variable {α : Type}

/-- elements are decoded into the zero value -/
def slice (zero : α) (c : Codec α) : Codec (List α) where
  enc l := .arr (l.map c.enc)
  into
    | _, .null => some []
    | _, .arr l => l.mapM (c.into zero)
    | _, _ => none

def pointer (zero : α) (c : Codec α) : Codec (Option α) where
  enc
    | none => .null
    | some a => c.enc a
  into
    | _, .null => some none
    | old, j => (c.into (old.getD zero) j).map some

/-- values are decoded into the zero value -/
def mapping (zero : α) (c : Codec α) : Codec (List (String × α)) where
  enc m := .obj (m.map fun p => (p.1, c.enc p.2))
  into
    | _, .null => some []
    | old, .obj members => members.foldlM (fun m p => (c.into zero p.2).map fun v => put p.1 v m) old
    | _, _ => none

variable {zero : α} {c : Codec α}

theorem slice_returns (old : List α) {l : List α} (h : ∀ a ∈ l, c.Returns zero a) : (slice zero c).Returns old l := by
  show (l.map c.enc).mapM (c.into zero) = some l
  induction l with
  | nil => rfl
  | cons a l ih =>
    have ha : c.into zero (c.enc a) = some a := h a List.mem_cons_self
    simp [ha, ih fun b hb => h b (List.mem_cons_of_mem a hb)]

/-- `c` writes no value as null -/
theorem pointer_returns {o : Option α} (h : ∀ a ∈ o, c.Returns zero a ∧ c.enc a ≠ .null) :
    (pointer zero c).Returns none o := by
  cases o with
  | none => rfl
  | some a =>
    obtain ⟨ha, hn⟩ := h a rfl
    unfold Codec.Returns pointer
    simp only
    cases hj : c.enc a with
    | null => exact absurd hj hn
    | bool | num | str | arr | obj =>
      simp only [Option.getD_none, ← hj]
      rw [show c.into zero (c.enc a) = some a from ha]
      rfl

/-- what decoding the target keeps holds of the target -/
theorem pointer_keeps {P : α → Prop} (hzero : P zero) (hc : ∀ a j b, P a → c.into a j = some b → P b) {old o : Option α}
    {j : Json} (hold : ∀ a ∈ old, P a) (h : (pointer zero c).into old j = some o) : ∀ a ∈ o, P a := by
  have hget : P (old.getD zero) := by
    cases old with
    | none => exact hzero
    | some a => exact hold a rfl
  unfold pointer at h
  cases j with
  | null => exact Option.some.inj h ▸ nofun
  | bool | num | str | arr | obj =>
    obtain ⟨b, hb, rfl⟩ := Option.map_eq_some_iff.mp h
    rintro a ⟨⟩
    exact hc _ _ b hget hb

theorem mapping_sorted {old m : List (String × α)} {j : Json} (hold : Sorted old) (h : (mapping zero c).into old j = some m) :
    Sorted m := by
  unfold mapping at h
  cases j with
  | null => exact Option.some.inj h ▸ List.Pairwise.nil
  | obj members =>
    simp only at h
    induction members generalizing old with
    | nil => exact Option.some.inj h ▸ hold
    | cons p members ih =>
      obtain ⟨m', hm', hrest⟩ := Option.bind_eq_some_iff.mp h
      obtain ⟨v, -, rfl⟩ := Option.map_eq_some_iff.mp hm'
      exact ih (put_sorted hold p.1 v) hrest
  | bool | num | str | arr => cases h

theorem mapping_returns {m : List (String × α)} (hm : Sorted m) (h : ∀ p ∈ m, c.Returns zero p.2) :
    (mapping zero c).Returns [] m := by
  -- what is read so far has smaller keys than what is left
  suffices hs : ∀ pre : List (String × α), Sorted (pre ++ m) →
      (m.map fun p => (p.1, c.enc p.2)).foldlM (fun m p => (c.into zero p.2).map fun v => put p.1 v m) pre =
        some (pre ++ m) from hs [] hm
  induction m with
  | nil => exact fun pre _ => by simp
  | cons a m ih =>
    intro pre hpre
    have hput : put a.1 a.2 pre = pre ++ [a] :=
      put_last (fun p hp => (List.pairwise_append.mp hpre).2.2 p hp a List.mem_cons_self) a.2
    have ha : c.into zero (c.enc a.2) = some a.2 := h a List.mem_cons_self
    have hrest := ih (List.pairwise_cons.mp hm).2 (fun p hp => h p (List.mem_cons_of_mem a hp)) (pre ++ [a])
      (by simpa using hpre)
    simpa [ha, hput] using hrest

end Containers

/-! ## Records -/

section Records
variable {α β : Type}

structure Field (α : Type) where
  name : String
  omitted : α → Bool
  enc : α → Json
  into : α → Json → Option α

/-- a member that is always written -/
def field (name : String) (get : α → β) (set : β → α → α) (c : Codec β) : Field α where
  name := name
  omitted _ := false
  enc a := c.enc (get a)
  into a j := (c.into (get a) j).map fun v => set v a

/-- a member with the option omitempty -/
def omitempty (name : String) (get : α → β) (set : β → α → α) (c : Codec β) (empty : β → Bool) : Field α :=
  { field name get set c with omitted := fun a => empty (get a) }

/-- unknown members are ignored, or refused by a decoder that disallows them -/
def member (strict : Bool) (fields : List (Field α)) (a : α) (p : String × Json) : Option α :=
  match fields.find? fun f => f.name = p.1 with
  | some f => f.into a p.2
  | none => if strict then none else some a

def record (strict : Bool) (fields : List (Field α)) : Codec α where
  enc a := .obj ((fields.filter fun f => !f.omitted a).map fun f => (f.name, f.enc a))
  into
    | old, .null => some old
    | old, .obj members => members.foldlM (member strict fields) old
    | _, _ => none

/-- reading the field of `a` takes `b` to `b'` -/
def Field.Copies (f : Field α) (a b b' : α) : Prop :=
  if f.omitted a then b' = b else f.into b (f.enc a) = some b'

/-- reading the fields of `a` one after another takes `b` to `a` -/
def Fills (a : α) : List (Field α) → α → Prop
  | [], b => b = a
  | f :: fs, b => ∃ b', f.Copies a b b' ∧ Fills a fs b'

variable {name : String} {get : α → β} {set : β → α → α} {c : Codec β} {a b : α}

theorem field_copies (h : c.Returns (get b) (get a)) : (field name get set c).Copies a b (set (get a) b) := by
  simp only [Field.Copies, field, Bool.false_eq_true, if_false]
  rw [show c.into (get b) (c.enc (get a)) = some (get a) from h, Option.map_some]

/-- an omitted field is empty in both; any other is read back -/
theorem omitempty_copies_of {empty : β → Bool} (hset : set (get b) b = b) (hempty : empty (get a) = true → get a = get b)
    (h : empty (get a) = false → c.Returns (get b) (get a)) :
    (omitempty name get set c empty).Copies a b (set (get a) b) := by
  unfold Field.Copies
  split_ifs with he
  · rw [hempty he, hset]
  · have hf : (field name get set c).Copies a b (set (get a) b) := field_copies (h (by simpa [omitempty] using he))
    simpa [Field.Copies, omitempty, field] using hf

theorem omitempty_copies {empty : β → Bool} (hset : set (get b) b = b) (hempty : empty (get a) = true → get a = get b)
    (h : c.Returns (get b) (get a)) : (omitempty name get set c empty).Copies a b (set (get a) b) :=
  omitempty_copies_of hset hempty fun _ => h

/-- a record is read back if its fields are, one after another -/
theorem record_returns {strict : Bool} {fields : List (Field α)} (hn : (fields.map Field.name).Nodup)
    (h : Fills a fields b) : (record strict fields).Returns b a := by
  suffices hs : ∀ pre rest : List (Field α), ∀ b, fields = pre ++ rest → Fills a rest b →
      ((rest.filter fun f => !f.omitted a).map fun f => (f.name, f.enc a)).foldlM (member strict fields) b = some a from
    hs [] fields b rfl h
  intro pre rest
  induction rest generalizing pre with
  | nil => exact fun b _ hb => by simp [show b = a from hb]
  | cons f rest ih =>
    rintro b hf ⟨b', hcopy, hrest⟩
    have hrest' := ih (pre ++ [f]) b' (by simp [hf]) hrest
    cases ho : f.omitted a with
    | true =>
      obtain rfl : b' = b := by simpa [Field.Copies, ho] using hcopy
      simpa [ho] using hrest'
    | false =>
      have hfind : fields.find? (fun g => g.name = f.name) = some f := by
        rw [hf, List.map_append, List.map_cons] at hn
        rw [hf, List.find?_append, List.find?_eq_none.mpr, Option.none_or, List.find?_cons_of_pos (by simp)]
        intro g hg hname
        exact (List.nodup_append.mp hn).2.2 _ (List.mem_map_of_mem hg) _ List.mem_cons_self (by simpa using hname)
      have hinto : f.into b (f.enc a) = some b' := by simpa [Field.Copies, ho] using hcopy
      simpa [ho, member, hfind, hinto] using hrest'

/-- the members a record is written with -/
def members (fields : List (Field α)) (a : α) : List (String × Json) :=
  (fields.filter fun f => !f.omitted a).map fun f => (f.name, f.enc a)

theorem members_keys (fields : List (Field α)) (a : α) :
    ((members fields a).map Prod.fst).Sublist (fields.map Field.name) := by
  rw [members, List.map_map]
  exact (List.filter_sublist (l := fields)).map Field.name

/-- the order of the fields does not matter for reading if no name comes twice -/
theorem member_perm {strict : Bool} {fields fields' : List (Field α)} (hp : fields'.Perm fields)
    (hn : (fields.map Field.name).Nodup) : member strict fields' = member strict fields := by
  have hn' : (fields'.map Field.name).Nodup := (hp.map Field.name).nodup_iff.mpr hn
  funext a p
  have hfind : fields'.find? (fun f => f.name = p.1) = fields.find? fun f => f.name = p.1 := by
    cases hf : fields.find? fun f => f.name = p.1 with
    | none =>
      rw [List.find?_eq_none] at hf ⊢
      exact fun f hmem => hf f (hp.mem_iff.mp hmem)
    | some f =>
      have hmem : f ∈ fields' := hp.mem_iff.mpr (List.mem_of_find?_eq_some hf)
      have hname : f.name = p.1 := by simpa using List.find?_some hf
      cases hg : fields'.find? fun f => f.name = p.1 with
      | none => exact absurd (List.find?_eq_none.mp hg f hmem) (by simp [hname])
      | some g =>
        have hname' : g.name = p.1 := by simpa using List.find?_some hg
        rw [List.inj_on_of_nodup_map hn' (List.mem_of_find?_eq_some hg) hmem (hname'.trans hname.symm)]
  simp only [member, hfind]

/-- the table in the order of its names -/
def inOrder (fields : List (Field α)) : List (Field α) := fields.insertionSort fun f g => f.name ≤ g.name

theorem inOrder_perm (fields : List (Field α)) : (inOrder fields).Perm fields := List.perm_insertionSort _ _

theorem inOrder_names {fields : List (Field α)} (hn : (fields.map Field.name).Nodup) :
    ((inOrder fields).map Field.name).Pairwise (· < ·) := by
  have : Std.Total fun f g : Field α => f.name ≤ g.name := ⟨fun f g => String.le_total f.name g.name⟩
  have : IsTrans (Field α) fun f g => f.name ≤ g.name := ⟨fun _ _ _ => String.le_trans⟩
  have hle : ((inOrder fields).map Field.name).Pairwise (· ≤ ·) :=
    List.pairwise_map.mpr (List.pairwise_insertionSort (fun f g : Field α => f.name ≤ g.name) fields)
  have hne : ((inOrder fields).map Field.name).Nodup := ((inOrder_perm fields).map Field.name).nodup_iff.mpr hn
  exact hle.imp₂ (fun _ _ => lt_of_le_of_ne) hne

/-- a record is read back from the map of its members -/
theorem record_returns_collect (strict : Bool) {fields : List (Field α)} (hn : (fields.map Field.name).Nodup) (a b : α)
    (h : Fills a (inOrder fields) b) : (record strict fields).into b (.obj (collect (members fields a))) = some a := by
  have hnames := inOrder_names hn
  have hsorted : Sorted (members (inOrder fields) a) := List.pairwise_map.mp (hnames.sublist (members_keys _ a))
  have hcollect : collect (members fields a) = members (inOrder fields) a := by
    rw [← collect_sorted hsorted]
    apply collect_perm
    · exact (((inOrder_perm fields).filter _).map _).symm
    · exact (members_keys fields a).nodup hn
  have hback : (record strict (inOrder fields)).into b (.obj (members (inOrder fields) a)) = some a :=
    record_returns (hnames.imp fun hlt => hlt.ne) h
  simp only [record, member_perm (inOrder_perm fields) hn] at hback
  simpa only [record, hcollect] using hback

theorem record_enc_ne_null {strict : Bool} {fields : List (Field α)} : (record strict fields).enc a ≠ .null := nofun

/-- what every field keeps is kept by decoding a record -/
theorem record_keeps {P : α → Prop} {strict : Bool} {fields : List (Field α)} {j : Json}
    (hf : ∀ f ∈ fields, ∀ a j a', P a → f.into a j = some a' → P a') (hb : P b)
    (h : (record strict fields).into b j = some a) : P a := by
  unfold record at h
  cases j with
  | null => exact Option.some.inj h ▸ hb
  | obj members =>
    simp only at h
    induction members generalizing b with
    | nil => exact Option.some.inj h ▸ hb
    | cons p members ih =>
      obtain ⟨b', hb', hrest⟩ := Option.bind_eq_some_iff.mp h
      refine ih (b := b') ?_ hrest
      unfold member at hb'
      split at hb'
      next f hfind => exact hf f (List.mem_of_find?_eq_some hfind) _ _ _ hb hb'
      next =>
        split_ifs at hb'
        exact Option.some.inj hb' ▸ hb
  | bool | num | str | arr => cases h

/-- a field keeps what its new value keeps -/
theorem field_keeps {P : α → Prop} (hP : ∀ a j v, P a → c.into (get a) j = some v → P (set v a)) {j : Json} {a' : α}
    (ha : P a) (h : (field name get set c).into a j = some a') : P a' := by
  obtain ⟨v, hv, rfl⟩ := Option.map_eq_some_iff.mp h
  exact hP a j v ha hv

theorem omitempty_keeps {P : α → Prop} {empty : β → Bool} (hP : ∀ a j v, P a → c.into (get a) j = some v → P (set v a))
    {j : Json} {a' : α} (ha : P a) (h : (omitempty name get set c empty).into a j = some a') : P a' :=
  field_keeps hP ha (show (field name get set c).into a j = some a' from h)

end Records

end Codec

end Crane
