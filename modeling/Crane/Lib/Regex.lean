/-
Regular expressions with the leftmost-first meaning of a backtracking matcher, and the replacement of all matches of one.

A regular expression is read as the list of the ways in which it matches the beginning of a text, in order of preference:
each way splits the text into what is matched and what is left. The first way is the match. Repetition is greedy, and a
round of it consumes something.

A rule is a list of parts, of which its template may copy some, and it does not match the empty text. Replacement goes
through the text from the left and continues behind each match.

For proofs:
- an expression that avoids a character does not look past it (`parses_barrier`);
- an expression that needs a character of some class fails without one (`parses_of_needs`);
- a repetition whose continuation fails on one more round takes all rounds (`findSome_star_char`).
-/
import Mathlib.Data.List.Infix

namespace Crane.Regexp

abbrev Text := List Char

/-- what is matched, and what is left -/
abbrev Way := Text × Text

inductive Regex where
  /-- the beginning of the text -/
  | start
  | empty
  | char (p : Char → Bool)
  | seq (r₁ r₂ : Regex)
  | alt (r₁ r₂ : Regex)
  | star (r : Regex)

/-- as many rounds as possible first -/
def rounds (body : Bool → Text → List Way) : ℕ → Bool → Text → List Way
  | 0, _, s => [([], s)]
  | n + 1, b, s =>
    ((body b s).filter fun x => !x.1.isEmpty).flatMap (fun x =>
      (rounds body n false x.2).map fun y => (x.1 ++ y.1, y.2)) ++ [([], s)]

namespace Regex

/-- the ways to match the beginning of `s`, the preferred one first; `b`: nothing is before `s` -/
def parses : Regex → Bool → Text → List Way
  | start, b, s => if b then [([], s)] else []
  | empty, _, s => [([], s)]
  | char p, _, s => match s with
    | [] => []
    | c :: s => if p c then [([c], s)] else []
  | seq r₁ r₂, b, s =>
    (r₁.parses b s).flatMap fun x => (r₂.parses (b && x.1.isEmpty) x.2).map fun y => (x.1 ++ y.1, y.2)
  | alt r₁ r₂, b, s => r₁.parses b s ++ r₂.parses b s
  | star r, b, s => rounds r.parses s.length b s

def plus (r : Regex) : Regex := seq r (star r)

def opt (r : Regex) : Regex := alt r empty

def seqs : List Regex → Regex
  | [] => empty
  | [r] => r
  | r :: rs => seq r (seqs rs)

def alts : List Regex → Regex
  | [] => char fun _ => false
  | [r] => r
  | r :: rs => alt r (alts rs)

/-- no character class has `d` -/
def avoids (d : Char) : Regex → Bool
  | char p => !p d
  | seq r₁ r₂ => r₁.avoids d && r₂.avoids d
  | alt r₁ r₂ => r₁.avoids d && r₂.avoids d
  | star r => r.avoids d
  | _ => true

/-- every match has a character of `q` -/
def Needs (q : Char → Bool) : Regex → Prop
  | char p => ∀ c, p c = true → q c = true
  | seq r₁ r₂ => r₁.Needs q ∨ r₂.Needs q
  | alt r₁ r₂ => r₁.Needs q ∧ r₂.Needs q
  | _ => False

/-- where the text begins does not matter -/
def floats : Regex → Bool
  | start => false
  | seq r₁ r₂ => r₁.floats && r₂.floats
  | alt r₁ r₂ => r₁.floats && r₂.floats
  | star r => r.floats
  | _ => true

/-- a whole text is a match, somewhere behind the beginning -/
def accepts (r : Regex) (s : Text) : Bool := (r.parses false s).any fun x => x.2.isEmpty

end Regex

open Regex

/-! ## Ways -/

section Rounds
variable {body : Bool → Text → List Way}

theorem mem_rounds_succ {n : ℕ} {b : Bool} {s : Text} {x : Way} (h : x ∈ rounds body (n + 1) b s) :
    x = ([], s) ∨ ∃ y ∈ body b s, y.1 ≠ [] ∧ ∃ z ∈ rounds body n false y.2, x = (y.1 ++ z.1, z.2) := by
  rw [rounds, List.mem_append, List.mem_flatMap, List.mem_singleton] at h
  rcases h with ⟨y, hy, hx⟩ | h
  · rw [List.mem_filter] at hy
    obtain ⟨z, hz, rfl⟩ := List.mem_map.mp hx
    exact .inr ⟨y, hy.1, by simpa using hy.2, z, hz, rfl⟩
  · exact .inl h

theorem rounds_split (hb : ∀ b s, ∀ x ∈ body b s, x.1 ++ x.2 = s) {n : ℕ} {b : Bool} {s : Text} {x : Way}
    (h : x ∈ rounds body n b s) : x.1 ++ x.2 = s := by
  induction n generalizing b s x with
  | zero =>
    rw [rounds, List.mem_singleton] at h
    rw [h]
    rfl
  | succ n ih =>
    rcases mem_rounds_succ h with rfl | ⟨y, hy, -, z, hz, rfl⟩
    · rfl
    · rw [List.append_assoc, ih hz, hb b s y hy]

/-- more rounds than characters change nothing -/
theorem rounds_fuel (hb : ∀ b s, ∀ x ∈ body b s, x.1 ++ x.2 = s) {n m : ℕ} {b : Bool} {s : Text} (hn : s.length ≤ n)
    (hm : s.length ≤ m) : rounds body n b s = rounds body m b s := by
  -- at the end of the text no round consumes anything
  have hend : ∀ b, (body b []).filter (fun x => !x.1.isEmpty) = [] := by
    intro b
    rw [List.filter_eq_nil_iff]
    intro x hx
    have hsplit := hb b [] x hx
    simp only [List.append_eq_nil_iff] at hsplit
    simp [hsplit.1]
  induction n generalizing m b s with
  | zero =>
    obtain rfl : s = [] := List.length_eq_zero_iff.mp (by omega)
    cases m with
    | zero => rfl
    | succ m => simp [rounds, hend]
  | succ n ih =>
    cases m with
    | zero =>
      obtain rfl : s = [] := List.length_eq_zero_iff.mp (by omega)
      simp [rounds, hend]
    | succ m =>
      rw [rounds, rounds]
      congr 1
      refine List.flatMap_congr ?_
      intro x hx
      obtain ⟨hmem, hne⟩ := List.mem_filter.mp hx
      have hlen := congrArg List.length (hb b s x hmem)
      have hpos : 0 < x.1.length := List.length_pos_iff.mpr (by simpa using hne)
      rw [List.length_append] at hlen
      rw [ih (show x.2.length ≤ n by omega) (show x.2.length ≤ m by omega)]

end Rounds

theorem seq_of_mem {r₁ r₂ : Regex} {b : Bool} {s : Text} {z : Way} (h : z ∈ (seq r₁ r₂).parses b s) :
    ∃ x ∈ r₁.parses b s, ∃ y ∈ r₂.parses (b && x.1.isEmpty) x.2, z = (x.1 ++ y.1, y.2) := by
  obtain ⟨x, hx, hz⟩ := List.mem_flatMap.mp h
  obtain ⟨y, hy, rfl⟩ := List.mem_map.mp hz
  exact ⟨x, hx, y, hy, rfl⟩

theorem parses_split {r : Regex} {b : Bool} {s : Text} {x : Way} (h : x ∈ r.parses b s) : x.1 ++ x.2 = s := by
  induction r generalizing b s x with
  | start =>
    cases b with
    | false => simp [parses] at h
    | true =>
      obtain rfl : x = ([], s) := by simpa [parses] using h
      rfl
  | empty =>
    obtain rfl : x = ([], s) := by simpa [parses] using h
    rfl
  | char p =>
    cases s with
    | nil => simp [parses] at h
    | cons c s =>
      simp only [parses] at h
      split_ifs at h
      · obtain rfl : x = ([c], s) := by simpa using h
        rfl
      · simp at h
  | seq r₁ r₂ ih₁ ih₂ =>
    obtain ⟨y, hy, z, hz, rfl⟩ := seq_of_mem h
    rw [List.append_assoc, ih₂ hz, ih₁ hy]
  | alt r₁ r₂ ih₁ ih₂ =>
    rcases List.mem_append.mp h with h | h
    · exact ih₁ h
    · exact ih₂ h
  | star r ih => exact rounds_split (fun b s x hx => ih hx) h

theorem parses_suffix {r : Regex} {b : Bool} {s : Text} {x : Way} (h : x ∈ r.parses b s) : x.2 <:+ s :=
  ⟨x.1, parses_split h⟩

theorem parses_floats {r : Regex} (h : r.floats = true) (b b' : Bool) (s : Text) : r.parses b s = r.parses b' s := by
  induction r generalizing b b' s with
  | start => cases h
  | empty => rfl
  | char p => rfl
  | seq r₁ r₂ ih₁ ih₂ =>
    simp only [floats, Bool.and_eq_true] at h
    rw [parses, parses, ih₁ h.1 b b']
    refine List.flatMap_congr ?_
    intro x hx
    rw [ih₂ h.2]
  | alt r₁ r₂ ih₁ ih₂ =>
    simp only [floats, Bool.and_eq_true] at h
    rw [parses, parses, ih₁ h.1 b b', ih₂ h.2 b b']
  | star r ih =>
    rw [parses, parses]
    cases s with
    | nil => rfl
    | cons c s => rw [List.length_cons, rounds, rounds, ih h b b']

theorem mem_seq {r₁ r₂ : Regex} {b : Bool} {s : Text} {x y : Way} (hx : x ∈ r₁.parses b s)
    (hy : y ∈ r₂.parses (b && x.1.isEmpty) x.2) : (x.1 ++ y.1, y.2) ∈ (seq r₁ r₂).parses b s :=
  List.mem_flatMap.mpr ⟨x, hx, List.mem_map.mpr ⟨y, hy, rfl⟩⟩

theorem char_of_mem {p : Char → Bool} {b : Bool} {s : Text} {x : Way} (h : x ∈ (char p).parses b s) :
    ∃ c, p c = true ∧ x.1 = [c] := by
  cases s with
  | nil => simp [parses] at h
  | cons c s =>
    simp only [parses] at h
    split_ifs at h with hp
    · obtain rfl : x = ([c], s) := by simpa using h
      exact ⟨c, hp, rfl⟩
    · simp at h

theorem mem_char {p : Char → Bool} {c : Char} (h : p c = true) (b : Bool) (s : Text) :
    ([c], s) ∈ (char p).parses b (c :: s) := by
  simp [parses, h]

theorem mem_star_char {p : Char → Bool} {w : Text} (h : ∀ c ∈ w, p c = true) (b : Bool) (s : Text) :
    (w, s) ∈ (star (char p)).parses b (w ++ s) := by
  have hrounds : ∀ n, w.length ≤ n → (w, s) ∈ rounds (char p).parses n b (w ++ s) := by
    intro n hn
    induction w generalizing b n with
    | nil =>
      cases n with
      | zero => exact List.mem_singleton_self _
      | succ n => exact List.mem_append_right _ (List.mem_singleton_self _)
    | cons c w ih =>
      obtain ⟨n, rfl⟩ : ∃ m, n = m + 1 := ⟨n - 1, by simp only [List.length_cons] at hn; omega⟩
      have hrest := ih (fun c' hc => h c' (List.mem_cons_of_mem c hc)) false n (Nat.le_of_succ_le_succ hn)
      refine List.mem_append_left _ (List.mem_flatMap.mpr ⟨([c], w ++ s), ?_, List.mem_map.mpr ⟨_, hrest, rfl⟩⟩)
      exact List.mem_filter.mpr ⟨mem_char (h c List.mem_cons_self) b _, rfl⟩
  exact hrounds _ (by simp)

theorem mem_plus_char {p : Char → Bool} {w : Text} (h : ∀ c ∈ w, p c = true) (hw : w ≠ []) (b : Bool) (s : Text) :
    (w, s) ∈ (plus (char p)).parses b (w ++ s) := by
  cases w with
  | nil => exact absurd rfl hw
  | cons c w =>
    exact mem_seq (mem_char (h c List.mem_cons_self) b (w ++ s))
      (mem_star_char (fun c' hc => h c' (List.mem_cons_of_mem c hc)) _ s)

/-! ## Barriers -/

/-- the same way in a longer text -/
def extend (z : Text) (x : Way) : Way := (x.1, x.2 ++ z)

theorem rounds_extend {body : Bool → Text → List Way} {z : Text}
    (hb : ∀ b s, body b (s ++ z) = (body b s).map (extend z)) (n : ℕ) (b : Bool) (s : Text) :
    rounds body n b (s ++ z) = (rounds body n b s).map (extend z) := by
  induction n generalizing b s with
  | zero => rfl
  | succ n ih =>
    rw [rounds, rounds, hb, List.filter_map, List.flatMap_map, List.map_append, List.map_flatMap]
    congr 1
    refine List.flatMap_congr ?_
    intro x hx
    rw [extend, ih, List.map_map, List.map_map]
    rfl

theorem parses_barrier {r : Regex} {d : Char} (h : r.avoids d = true) (b : Bool) (s z : Text) :
    r.parses b (s ++ d :: z) = (r.parses b s).map (extend (d :: z)) := by
  induction r generalizing b s with
  | start => cases b <;> rfl
  | empty => rfl
  | char p =>
    cases s with
    | nil =>
      have hp : p d = false := by simpa [avoids] using h
      simp [parses, hp]
    | cons c s =>
      by_cases hp : p c = true
      · simp [parses, hp, extend]
      · simp [parses, hp]
  | seq r₁ r₂ ih₁ ih₂ =>
    simp only [avoids, Bool.and_eq_true] at h
    rw [parses, parses, ih₁ h.1, List.flatMap_map, List.map_flatMap]
    refine List.flatMap_congr ?_
    intro x hx
    rw [extend, ih₂ h.2, List.map_map, List.map_map]
    rfl
  | alt r₁ r₂ ih₁ ih₂ =>
    simp only [avoids, Bool.and_eq_true] at h
    rw [parses, parses, ih₁ h.1, ih₂ h.2, List.map_append]
  | star r ih =>
    have hsplit : ∀ b s, ∀ x ∈ r.parses b s, x.1 ++ x.2 = s := fun b s x hx => parses_split hx
    rw [parses, parses, rounds_extend (ih h), rounds_fuel hsplit (show s.length ≤ _ by simp) le_rfl]

/-- what is behind the next `d` does not matter -/
def Firm (d : Char) (z : Text) (r : Regex) : Prop :=
  ∀ (b : Bool) (s : Text), r.parses b (s ++ d :: z) = (r.parses b (s ++ [d])).map (extend z)

section Firm
variable {d : Char} {z : Text} {r₁ r₂ : Regex}

theorem firm_seq (h₁ : r₁.avoids d = true) (h₂ : Firm d z r₂) : Firm d z (seq r₁ r₂) := by
  intro b s
  rw [parses, parses, parses_barrier h₁, parses_barrier h₁, List.flatMap_map, List.flatMap_map, List.map_flatMap]
  refine List.flatMap_congr ?_
  intro x hx
  rw [extend, extend, h₂, List.map_map, List.map_map]
  rfl

theorem firm_char (p : Char → Bool) : Firm d z (char p) := by
  intro b s
  cases s with
  | nil =>
    by_cases hp : p d = true
    · simp [parses, hp, extend]
    · simp [parses, hp]
  | cons c s =>
    by_cases hp : p c = true
    · simp [parses, hp, extend]
    · simp [parses, hp]

/-- a character may be `d` if nothing can be matched behind it -/
theorem firm_char_seq (p : Char → Bool) (h : Firm d z r₂) (hz : ∀ b, r₂.parses b z = []) (hnil : ∀ b, r₂.parses b [] = []) :
    Firm d z (seq (char p) r₂) := by
  intro b s
  cases s with
  | nil =>
    by_cases hp : p d = true
    · simp [parses, hp, hz, hnil]
    · simp [parses, hp]
  | cons c s =>
    by_cases hp : p c = true
    · simp only [parses, List.cons_append, hp, if_true, List.flatMap_singleton]
      rw [h, List.map_map, List.map_map]
      rfl
    · simp [parses, hp]

end Firm

/-! ## Needed characters -/

theorem any_of_needs {r : Regex} {q : Char → Bool} (h : r.Needs q) {b : Bool} {s : Text} {x : Way}
    (hx : x ∈ r.parses b s) : x.1.any q = true := by
  induction r generalizing b s x with
  | char p =>
    obtain ⟨c, hp, hc⟩ := char_of_mem hx
    simpa [hc] using h c hp
  | seq r₁ r₂ ih₁ ih₂ =>
    obtain ⟨y, hy, z, hz, rfl⟩ := seq_of_mem hx
    rw [List.any_append, Bool.or_eq_true]
    rcases h with h | h
    · exact .inl (ih₁ h hy)
    · exact .inr (ih₂ h hz)
  | alt r₁ r₂ ih₁ ih₂ =>
    rcases List.mem_append.mp hx with hx | hx
    · exact ih₁ h.1 hx
    · exact ih₂ h.2 hx
  | _ => exact absurd h id

theorem parses_of_needs {r : Regex} {q : Char → Bool} (h : r.Needs q) {s : Text} (hs : s.any q = false) (b : Bool) :
    r.parses b s = [] := by
  rw [List.eq_nil_iff_forall_not_mem]
  intro x hx
  have hany := any_of_needs h hx
  rw [← parses_split hx, List.any_append, hany] at hs
  cases hs

/-! ## Continuations -/

theorem findSome_flatMap {α β γ : Type} (l : List α) (f : α → List β) (g : β → Option γ) :
    (l.flatMap f).findSome? g = l.findSome? fun a => (f a).findSome? g := by
  induction l with
  | nil => rfl
  | cons a l ih => rw [List.flatMap_cons, List.findSome?_append, List.findSome?_cons, ih]; cases (f a).findSome? g <;> rfl

theorem map_findSome {α β γ : Type} (l : List α) (f : α → Option β) (g : β → γ) :
    (l.findSome? f).map g = l.findSome? fun a => (f a).map g := by
  induction l with
  | nil => rfl
  | cons a l ih =>
    rw [List.findSome?_cons, List.findSome?_cons]
    cases f a with
    | none => exact ih
    | some c => rfl

section Continuations
variable {α : Type} {k : Way → Option α}

theorem findSome_seq (r₁ r₂ : Regex) (b : Bool) (s : Text) :
    ((seq r₁ r₂).parses b s).findSome? k =
      (r₁.parses b s).findSome? fun x => (r₂.parses (b && x.1.isEmpty) x.2).findSome? fun y => k (x.1 ++ y.1, y.2) := by
  rw [parses, findSome_flatMap]
  simp only [List.findSome?_map]
  rfl

theorem findSome_alt (r₁ r₂ : Regex) (b : Bool) (s : Text) :
    ((alt r₁ r₂).parses b s).findSome? k = ((r₁.parses b s).findSome? k).or ((r₂.parses b s).findSome? k) := by
  rw [parses, List.findSome?_append]

theorem findSome_char (p : Char → Bool) (b : Bool) (c : Char) (s : Text) :
    ((char p).parses b (c :: s)).findSome? k = if p c = true then k ([c], s) else none := by
  by_cases h : p c = true
  · simp [parses, h]
  · simp [parses, h]

theorem findSome_extend (l : List Way) (z : Text) :
    (l.map (extend z)).findSome? k = l.findSome? fun x => k (x.1, x.2 ++ z) := by
  rw [List.findSome?_map]
  rfl

theorem findSome_star_stop {r : Regex} {b : Bool} {s : Text} (h : r.parses b s = []) :
    ((star r).parses b s).findSome? k = k ([], s) := by
  rw [parses]
  cases s with
  | nil => simp [rounds]
  | cons c s => simp [rounds, h]

theorem findSome_star_step {r : Regex} {b : Bool} {s u t : Text} (h : r.parses b s = [(u, t)]) (hu : u ≠ []) :
    ((star r).parses b s).findSome? k =
      (((star r).parses false t).findSome? fun y => k (u ++ y.1, y.2)).or (k ([], s)) := by
  have hsplit : ∀ b s, ∀ x ∈ r.parses b s, x.1 ++ x.2 = s := fun b s x hx => parses_split hx
  have hut : u ++ t = s := hsplit b s (u, t) (by rw [h]; exact List.mem_singleton_self _)
  have hlen := congrArg List.length hut
  have hpos : 0 < u.length := List.length_pos_iff.mpr hu
  rw [List.length_append] at hlen
  obtain ⟨n, hn⟩ : ∃ n, s.length = n + 1 := ⟨s.length - 1, by omega⟩
  rw [parses, parses, hn, rounds, h, rounds_fuel hsplit (show t.length ≤ t.length from le_rfl) (show t.length ≤ n by omega)]
  have hkeep : [(u, t)].filter (fun x : Way => !x.1.isEmpty) = [(u, t)] := by simpa using hu
  rw [hkeep, List.findSome?_append, List.flatMap_singleton, List.findSome?_map, List.findSome?_singleton]
  rfl

/-- a run of characters that cannot be followed by one of them is taken whole -/
theorem findSome_star_char {p : Char → Bool} (hk : ∀ m c t, p c = true → k (m, c :: t) = none) (b : Bool) (s : Text) :
    ((star (char p)).parses b s).findSome? k = k (s.takeWhile p, s.dropWhile p) := by
  induction s generalizing b k with
  | nil => exact findSome_star_stop rfl
  | cons c s ih =>
    by_cases hp : p c = true
    · have hrest := ih (k := fun y => k ([c] ++ y.1, y.2)) (fun m c' t h => hk _ _ _ h) false
      rw [findSome_star_step (u := [c]) (t := s) (by simp [parses, hp]) (by simp), hk _ _ _ hp, hrest, Option.or_none,
        List.takeWhile_cons_of_pos hp, List.dropWhile_cons_of_pos hp]
      rfl
    · rw [findSome_star_stop (by simp [parses, hp]), List.takeWhile_cons_of_neg hp, List.dropWhile_cons_of_neg hp]

theorem findSome_star_run {p : Char → Bool} (hk : ∀ m c t, p c = true → k (m, c :: t) = none) {w : Text}
    (hw : ∀ c ∈ w, p c = true) {d : Char} (hd : p d = false) (b : Bool) (s : Text) :
    ((star (char p)).parses b (w ++ d :: s)).findSome? k = k (w, d :: s) := by
  have hstop : ¬ p d = true := by simp [hd]
  rw [findSome_star_char hk, List.takeWhile_append_of_pos hw, List.dropWhile_append_of_pos hw,
    List.takeWhile_cons_of_neg hstop, List.dropWhile_cons_of_neg hstop, List.append_nil]

/-- so is a run after which everything is accepted -/
theorem findSome_star_char_last {p : Char → Bool} (hk : ∀ x, (k x).isSome = true) (b : Bool) (s : Text) :
    ((star (char p)).parses b s).findSome? k = k (s.takeWhile p, s.dropWhile p) := by
  induction s generalizing b k with
  | nil => exact findSome_star_stop rfl
  | cons c s ih =>
    by_cases hp : p c = true
    · have hrest := ih (k := fun y => k ([c] ++ y.1, y.2)) (fun x => hk _) false
      rw [findSome_star_step (u := [c]) (t := s) (by simp [parses, hp]) (by simp), hrest,
        List.takeWhile_cons_of_pos hp, List.dropWhile_cons_of_pos hp]
      exact Option.or_of_isSome (hk _)
    · rw [findSome_star_stop (by simp [parses, hp]), List.takeWhile_cons_of_neg hp, List.dropWhile_cons_of_neg hp]

theorem findSome_plus_char {p : Char → Bool} (hk : ∀ m c t, p c = true → k (m, c :: t) = none) (b : Bool) (s : Text) :
    ((plus (char p)).parses b s).findSome? k =
      if s.takeWhile p = [] then none else k (s.takeWhile p, s.dropWhile p) := by
  rw [plus, findSome_seq]
  cases s with
  | nil => rfl
  | cons c s =>
    rw [findSome_char]
    by_cases hp : p c = true
    · have hrest := findSome_star_char (k := fun y => k ([c] ++ y.1, y.2)) (fun m c' t h => hk _ _ _ h)
      rw [if_pos hp, hrest, List.takeWhile_cons_of_pos hp, List.dropWhile_cons_of_pos hp, if_neg (by simp)]
      rfl
    · rw [if_neg hp, List.takeWhile_cons_of_neg hp, if_pos rfl]

theorem findSome_plus_char_last {p : Char → Bool} (hk : ∀ x, (k x).isSome = true) (b : Bool) (s : Text) :
    ((plus (char p)).parses b s).findSome? k =
      if s.takeWhile p = [] then none else k (s.takeWhile p, s.dropWhile p) := by
  rw [plus, findSome_seq]
  cases s with
  | nil => rfl
  | cons c s =>
    rw [findSome_char]
    by_cases hp : p c = true
    · have hrest := findSome_star_char_last (p := p) (k := fun y => k ([c] ++ y.1, y.2)) (fun x => hk _)
      rw [if_pos hp, hrest, List.takeWhile_cons_of_pos hp, List.dropWhile_cons_of_pos hp, if_neg (by simp)]
      rfl
    · rw [if_neg hp, List.takeWhile_cons_of_neg hp, if_pos rfl]

end Continuations

/-! ## Rules -/

inductive Out where
  /-- the text of a part -/
  | part (i : ℕ)
  | text (t : Text)

/-- the parts of the match, and what is left -/
def firstMatch : List Regex → Bool → Text → Option (List Text × Text)
  | [], _, s => some ([], s)
  | r :: rs, b, s =>
    (r.parses b s).findSome? fun x => (firstMatch rs (b && x.1.isEmpty) x.2).map fun y => (x.1 :: y.1, y.2)

structure Rule where
  parts : List Regex
  template : List Out
  /-- a match is not empty -/
  proper : ∃ r ∈ parts, r.Needs fun _ => true

namespace Rule

def expand (R : Rule) (texts : List Text) : Text :=
  R.template.flatMap fun
    | .part i => texts.getD i []
    | .text t => t

/-- the text that replaces the match at the beginning of `s`, and what is left -/
def attempt (R : Rule) (b : Bool) (s : Text) : Option (Text × Text) :=
  (firstMatch R.parts b s).map fun x => (R.expand x.1, x.2)

/-- replaces all matches behind the next `k` characters -/
def rewriteFrom (R : Rule) : Bool → ℕ → Text → Text
  | _, _, [] => []
  | b, 0, c :: s => match R.attempt b (c :: s) with
    | some x => x.1 ++ R.rewriteFrom false (s.length - x.2.length) s
    | none => c :: R.rewriteFrom false 0 s
  | _, k + 1, _ :: s => R.rewriteFrom false k s

def rewrite (R : Rule) (b : Bool) (s : Text) : Text := R.rewriteFrom b 0 s

/-- some match in the text -/
def occurs (R : Rule) : Bool → Text → Bool
  | _, [] => false
  | b, c :: s => (R.attempt b (c :: s)).isSome || R.occurs false s

theorem firstMatch_split {rs : List Regex} {b : Bool} {s : Text} {x : List Text × Text}
    (h : firstMatch rs b s = some x) : x.1.flatten ++ x.2 = s := by
  induction rs generalizing b s x with
  | nil =>
    obtain rfl : ([], s) = x := by simpa [firstMatch] using h
    rfl
  | cons r rs ih =>
    obtain ⟨y, hy, hx⟩ := List.exists_of_findSome?_eq_some h
    obtain ⟨z, hz, rfl⟩ := Option.map_eq_some_iff.mp hx
    rw [List.flatten_cons, List.append_assoc, ih hz, parses_split hy]

theorem firstMatch_any {rs : List Regex} {q : Char → Bool} (hr : ∃ r ∈ rs, r.Needs q) {b : Bool} {s : Text}
    {x : List Text × Text} (h : firstMatch rs b s = some x) : x.1.flatten.any q = true := by
  induction rs generalizing b s x with
  | nil =>
    obtain ⟨r, hr, -⟩ := hr
    cases hr
  | cons r rs ih =>
    obtain ⟨y, hy, hx⟩ := List.exists_of_findSome?_eq_some h
    obtain ⟨z, hz, rfl⟩ := Option.map_eq_some_iff.mp hx
    rw [List.flatten_cons, List.any_append, Bool.or_eq_true]
    obtain ⟨r', hmem, hneeds⟩ := hr
    rcases List.mem_cons.mp hmem with rfl | hmem
    · exact .inl (any_of_needs hneeds hy)
    · exact .inr (ih ⟨r', hmem, hneeds⟩ hz)

theorem firstMatch_lt {rs : List Regex} (hr : ∃ r ∈ rs, r.Needs fun _ => true) {b : Bool} {s : Text}
    {x : List Text × Text} (h : firstMatch rs b s = some x) : x.2.length < s.length := by
  have hany := firstMatch_any hr h
  have hne : x.1.flatten ≠ [] := fun hnil => by
    rw [hnil] at hany
    cases hany
  have hlen := congrArg List.length (firstMatch_split h)
  have hpos := List.length_pos_iff.mpr hne
  rw [List.length_append] at hlen
  omega

variable {R : Rule} {b : Bool} {s : Text} {x : Text × Text}

theorem attempt_suffix (h : R.attempt b s = some x) : x.2 <:+ s := by
  obtain ⟨y, hy, rfl⟩ := Option.map_eq_some_iff.mp h
  exact ⟨_, firstMatch_split hy⟩

theorem attempt_lt (h : R.attempt b s = some x) : x.2.length < s.length := by
  obtain ⟨y, hy, rfl⟩ := Option.map_eq_some_iff.mp h
  exact firstMatch_lt R.proper hy

theorem rewriteFrom_drop (R : Rule) (b : Bool) (k : ℕ) (s : Text) :
    R.rewriteFrom b (k + 1) s = R.rewrite false (s.drop (k + 1)) := by
  induction s generalizing b k with
  | nil => rfl
  | cons c s ih =>
    cases k with
    | zero => rfl
    | succ k => exact ih false k

@[simp] theorem rewrite_nil (R : Rule) (b : Bool) : R.rewrite b [] = [] := rfl

theorem rewrite_none {c : Char} (h : R.attempt b (c :: s) = none) : R.rewrite b (c :: s) = c :: R.rewrite false s := by
  rw [rewrite, rewriteFrom, h]
  rfl

theorem rewrite_some (h : R.attempt b s = some x) : R.rewrite b s = x.1 ++ R.rewrite false x.2 := by
  have hlt := attempt_lt h
  obtain ⟨m, hm⟩ := attempt_suffix h
  cases s with
  | nil => simp at hlt
  | cons c s =>
    rw [rewrite, rewriteFrom, h]
    dsimp only
    congr 1
    -- the match is its first character and what the loop skips
    cases m with
    | nil =>
      rw [List.nil_append] at hm
      rw [hm] at hlt
      exact absurd hlt (lt_irrefl _)
    | cons c' m =>
      obtain rfl : m ++ x.2 = s := (List.cons.inj hm).2
      rw [List.length_append, Nat.add_sub_cancel]
      cases m with
      | nil => rfl
      | cons c'' m =>
        rw [List.length_cons, rewriteFrom_drop]
        simp

/-- a rule does nothing to a text without the characters that its matches need -/
theorem rewrite_of_needs {q : Char → Bool} (h : ∃ r ∈ R.parts, r.Needs q) (hs : s.any q = false) (b : Bool) :
    R.rewrite b s = s := by
  induction s generalizing b with
  | nil => rfl
  | cons c s ih =>
    have hnone : R.attempt b (c :: s) = none := by
      rw [Option.eq_none_iff_forall_ne_some]
      intro x hx
      obtain ⟨y, hy, rfl⟩ := Option.map_eq_some_iff.mp hx
      have hany := firstMatch_any h hy
      rw [← firstMatch_split hy, List.any_append, hany] at hs
      cases hs
    rw [rewrite_none hnone, ih (Bool.or_eq_false_iff.mp hs).2]

theorem rewrite_of_not_occurs (h : R.occurs b s = false) : R.rewrite b s = s := by
  induction s generalizing b with
  | nil => rfl
  | cons c s ih =>
    rw [occurs, Bool.or_eq_false_iff, Option.isSome_eq_false_iff, Option.isNone_iff_eq_none] at h
    rw [rewrite_none h.1, ih h.2]

end Rule

end Crane.Regexp
