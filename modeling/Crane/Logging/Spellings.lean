/-
Spellings of a secret. A key and a value can be written `k=v`, `k="v"` with the quotes in `v` escaped, or as the only
member of a JSON object. Each spelling is found by another rule of `redactString`: a word or a quoted text behind a name
by `secretKeyValueRe`, a JSON member by `jsonSecretRe`.

They do not agree on all keys and values. A quoted text ends at its first quote, also at an escaped one; `dsn` and
names with something before them, such as `db_password`, are no names of JSON members; and `authorizationRe`, which comes
first, may take the closing quote of a value for a part of a token. Apart from these the value does not show: this is
`Hidden` for plain keys.
-/
import Crane.Logging.Rules
import Mathlib.Data.List.TakeWhile

namespace Crane.Logging.Rules

open Regexp Regex

/-! ## Spellings -/

def escapeQuotes (v : Text) : Text := v.flatMap fun c => if c = '"' then ['\\', '"'] else [c]

/-- `k=v` -/
def plain (k v : Text) : Text := k ++ '=' :: v

/-- `k="v"` -/
def quoted (k v : Text) : Text := k ++ '=' :: '"' :: (escapeQuotes v ++ ['"'])

/-- the two-character escapes of JSON -/
def shortEscapes : List (Char × Char) :=
  [('"', '"'), ('\\', '\\'), ('/', '/'), ('\x08', 'b'), ('\x0c', 'f'), ('\n', 'n'), ('\r', 'r'), ('\t', 't')]

def hexDigits : Text := "0123456789abcdefABCDEF".toList

def hexValue (c : Char) : ℕ :=
  if c.isDigit then c.toNat - '0'.toNat else c.toLower.toNat - 'a'.toNat + 10

/-- four hexadecimal digits and their value -/
structure Hex where
  digits : Text
  length : digits.length = 4
  hex : ∀ c ∈ digits, c ∈ hexDigits

def Hex.value (h : Hex) : ℕ := h.digits.foldl (fun n c => 16 * n + hexValue c) 0

/-- `s` is a way to write the text `v` between the quotes of a JSON string -/
inductive JsonSpells : Text → Text → Prop
  | nil : JsonSpells [] []
  | char {v s : Text} (c : Char) (hq : c ≠ '"') (hb : c ≠ '\\') (hc : 32 ≤ c.toNat) (h : JsonSpells v s) :
      JsonSpells (c :: v) (c :: s)
  | short {v s : Text} (c e : Char) (he : (c, e) ∈ shortEscapes) (h : JsonSpells v s) :
      JsonSpells (c :: v) ('\\' :: e :: s)
  | unicode {v s : Text} (c : Char) (x : Hex) (hx : x.value = c.toNat) (h : JsonSpells v s) :
      JsonSpells (c :: v) ('\\' :: 'u' :: (x.digits ++ s))
  | surrogates {v s : Text} (c : Char) (x y : Hex)
      (hc : 0x10000 ≤ c.toNat) (hx : x.value = 0xD800 + (c.toNat - 0x10000) / 0x400)
      (hy : y.value = 0xDC00 + (c.toNat - 0x10000) % 0x400) (h : JsonSpells v s) :
      JsonSpells (c :: v) ('\\' :: 'u' :: (x.digits ++ '\\' :: 'u' :: (y.digits ++ s)))

/-- the JSON object with the one member `k`, with `s` between the quotes of its value and whitespace around the colon -/
def member (k before after s : Text) : Text :=
  '{' :: '"' :: (k ++ '"' :: (before ++ ':' :: (after ++ '"' :: (s ++ ['"', '}']))))

def alnumText (v : Text) : Bool := v ≠ [] && v.all Char.isAlphanum

/-- in `k=v` no non-empty alphanumeric value shows -/
def Hidden (k : Text) : Prop :=
  ∀ v w, alnumText v = true → alnumText w = true → redactString (plain k v) = redactString (plain k w)

/-- characters of a plain key -/
def keyChar (c : Char) : Bool := !space c && !equalsOrColon c && c != '"' && c != '\''

/-! ## Keys -/

/-- `s` starts with a boundary and a name that ends it -/
def keyAt (b : Bool) : Text → Bool
  | [] => false
  | c :: s => (b && names.accepts (c :: s)) || (!alphanumeric c && names.accepts s)

/-- a name ends the key -/
def keyed : Bool → Text → Bool
  | _, [] => false
  | b, c :: s => keyAt b (c :: s) || keyed false s

/-- what the rule writes for a key and a value, and what is left behind the value -/
def replaced (s z : Text) : Option (Text × Text) :=
  (valueEnd (z.dropWhile space)).map fun t => (s ++ '=' :: redacted, t)

section Keys
variable {k s z : Text}

theorem findSome_unique {α β : Type} {l : List α} {f : α → Option β} {o : Option β} (h : ∀ x ∈ l, f x = none ∨ f x = o)
    (hx : ∃ x ∈ l, f x = o) : l.findSome? f = o := by
  cases hfound : l.findSome? f with
  | none =>
    obtain ⟨x, hmem, hx⟩ := hx
    rw [← hx, List.findSome?_eq_none_iff.mp hfound x hmem]
  | some y =>
    obtain ⟨x, hmem, hy⟩ := List.exists_of_findSome?_eq_some hfound
    rcases h x hmem with hnone | hsame
    · rw [hnone] at hy
      cases hy
    · rw [← hy, hsame]

theorem pairEnd_key {c : Char} (h : keyChar c = true) (t : Text) : pairEnd (c :: t) = none := by
  simp only [keyChar, Bool.and_eq_true, Bool.not_eq_true'] at h
  rw [pairEnd, separatorEnd, List.dropWhile_cons_of_neg (by simp [h.1.1.1])]
  simp [h.1.1.2]

theorem namedAttempt_key (hs : ∀ c ∈ s, keyChar c = true) (u : Text) (b : Bool) :
    namedAttempt u b (s ++ '=' :: z) = if names.accepts s then replaced (u ++ s) z else none := by
  have havoid : names.avoids '=' = true := rfl
  have hfloat : names.floats = true := rfl
  rw [namedAttempt, parses_barrier havoid, findSome_extend, parses_floats hfloat b false]
  -- a name is followed by the separator only if it ends the key
  have hmid : ∀ x ∈ names.parses false s, x.2 ≠ [] → pairEnd (x.2 ++ '=' :: z) = none := by
    intro x hx hne
    obtain ⟨c, t, hx2⟩ := List.exists_cons_of_ne_nil hne
    rw [hx2]
    exact pairEnd_key (hs c ((parses_suffix hx).subset (by rw [hx2]; exact List.mem_cons_self))) _
  have hend : ∀ x ∈ names.parses false s, x.2 = [] →
      (pairEnd (x.2 ++ '=' :: z)).map (fun t => (u ++ x.1 ++ '=' :: redacted, t)) = replaced (u ++ s) z := by
    intro x hx hnil
    have hsplit := parses_split hx
    rw [hnil, List.append_nil] at hsplit
    rw [hnil, hsplit]
    rfl
  split_ifs with hacc
  · refine findSome_unique (fun x hx => ?_) ?_
    · by_cases hnil : x.2 = []
      · exact .inr (hend x hx hnil)
      · exact .inl (by rw [hmid x hx hnil]; rfl)
    · obtain ⟨x, hx, hnil⟩ := List.any_eq_true.mp hacc
      exact ⟨x, hx, hend x hx (List.isEmpty_iff.mp hnil)⟩
  · rw [List.findSome?_eq_none_iff]
    intro x hx
    have hne : x.2 ≠ [] := fun hnil => hacc (List.any_eq_true.mpr ⟨x, hx, List.isEmpty_iff.mpr hnil⟩)
    rw [hmid x hx hne]
    rfl

theorem attempt_key (hs : ∀ c ∈ s, keyChar c = true) (hne : s ≠ []) (b : Bool) :
    secretKeyValueRe.attempt b (s ++ '=' :: z) = if keyAt b s then replaced s z else none := by
  obtain ⟨c, s, rfl⟩ := List.exists_cons_of_ne_nil hne
  have hstart := namedAttempt_key (z := z) hs [] true
  have hnext := namedAttempt_key (z := z) (fun d hd => hs d (List.mem_cons_of_mem c hd)) [c] false
  rw [List.cons_append] at hstart ⊢
  rw [secretKeyValueRe_cons, hstart, hnext, keyAt, List.nil_append, List.singleton_append]
  cases b <;> cases names.accepts (c :: s) <;> cases alphanumeric c <;> cases names.accepts s <;> simp

/-- a key and a value for which the rule has a match at every key -/
theorem rewrite_keyed {t : Text} (hk : ∀ c ∈ k, keyChar c = true) (hend : valueEnd (z.dropWhile space) = some t) {b : Bool}
    (h : keyed b k = true) :
    secretKeyValueRe.rewrite b (plain k z) = k ++ '=' :: (redacted ++ secretKeyValueRe.rewrite false t) := by
  induction k generalizing b with
  | nil => cases h
  | cons c k ih =>
    have hattempt := attempt_key (z := z) hk (by simp) b
    rw [keyed] at h
    by_cases hat : keyAt b (c :: k) = true
    · rw [if_pos hat, replaced, hend] at hattempt
      rw [plain, Rule.rewrite_some hattempt]
      simp
    · rw [if_neg hat] at hattempt
      have hrest : keyed false k = true := by simpa [hat] using h
      have hk' : ∀ d ∈ k, keyChar d = true := fun d hd => hk d (List.mem_cons_of_mem c hd)
      exact (Rule.rewrite_none hattempt).trans (congrArg (c :: ·) (ih hk' hrest))

theorem rewrite_not_keyed (hk : ∀ c ∈ k, keyChar c = true) {b : Bool} (h : keyed b k = false) :
    ∃ b', secretKeyValueRe.rewrite b (plain k z) = k ++ secretKeyValueRe.rewrite b' ('=' :: z) := by
  induction k generalizing b with
  | nil => exact ⟨b, rfl⟩
  | cons c k ih =>
    rw [keyed, Bool.or_eq_false_iff] at h
    have hattempt := attempt_key (z := z) hk (by simp) b
    rw [h.1, if_neg (by simp)] at hattempt
    obtain ⟨b', hrest⟩ := ih (fun d hd => hk d (List.mem_cons_of_mem c hd)) h.2
    refine ⟨b', ?_⟩
    exact (Rule.rewrite_none hattempt).trans (congrArg (c :: ·) hrest)

end Keys

/-! ## Plain values -/

section Plain
variable {k v : Text}

theorem keyChar_ne {c d : Char} (h : keyChar c = true) (hd : keyChar d = false) : c ≠ d := by
  rintro rfl
  rw [h] at hd
  cases hd

theorem keyChar_not_space {c : Char} (h : keyChar c = true) : space c = false := by
  simp only [keyChar, Bool.and_eq_true, Bool.not_eq_true'] at h
  exact h.1.1.1

theorem keyChar_not_separator {c : Char} (h : keyChar c = true) : equalsOrColon c = false := by
  simp only [keyChar, Bool.and_eq_true, Bool.not_eq_true'] at h
  exact h.1.1.2

theorem keyChar_of_isAlphanum {c : Char} (h : c.isAlphanum = true) : keyChar c = true := by
  have hne : ∀ d : Char, d.isAlphanum = false → c ≠ d := by
    rintro d hd rfl
    rw [h] at hd
    cases hd
  have h₁ := hne '\t' rfl
  have h₂ := hne '\n' rfl
  have h₃ := hne '\x0c' rfl
  have h₄ := hne '\r' rfl
  have h₅ := hne ' ' rfl
  have h₆ := hne '=' rfl
  have h₇ := hne ':' rfl
  have h₈ := hne '"' rfl
  have h₉ := hne '\'' rfl
  simp [keyChar, space, equalsOrColon, h₁, h₂, h₃, h₄, h₅, h₆, h₇, h₈, h₉]

theorem alnumText_keyChars (h : alnumText v = true) : ∀ c ∈ v, keyChar c = true := by
  simp only [alnumText, Bool.and_eq_true, List.all_eq_true] at h
  exact fun c hc => keyChar_of_isAlphanum (h.2 c hc)

theorem valueEnd_alnum (h : alnumText v = true) : valueEnd (v.dropWhile space) = some [] := by
  have hchars := alnumText_keyChars h
  cases v with
  | nil => cases h
  | cons c w =>
    have hc := hchars c List.mem_cons_self
    have hwords : ∀ d ∈ c :: w, wordChar d = true := fun d hd => by simp [wordChar, keyChar_not_space (hchars d hd)]
    have hrun : runEnd wordChar (c :: w) = some [] := by
      rw [runEnd, List.takeWhile_eq_self_iff.mpr hwords, List.dropWhile_eq_nil_iff.mpr hwords, if_neg (by simp)]
    have hdouble : quoteEnd '"' (c :: w) = none := if_neg (keyChar_ne hc rfl)
    have hsingle : quoteEnd '\'' (c :: w) = none := if_neg (keyChar_ne hc rfl)
    rw [List.dropWhile_cons_of_neg (by simp [keyChar_not_space hc]), valueEnd, hdouble, hsingle, hrun]
    rfl

/-- a key and a value without spaces, quotes and separators -/
theorem redactString_plain (hk : ∀ c ∈ k, keyChar c = true) (hv : ∀ c ∈ v, keyChar c = true) :
    redactString (plain k v) = urlCredentialRe.rewrite true (secretKeyValueRe.rewrite true (plain k v)) := by
  have hany : ∀ q : Char → Bool, q '=' = false → (∀ c, keyChar c = true → q c = false) → (plain k v).any q = false := by
    intro q hq hchar
    rw [List.any_eq_false]
    intro c hc
    rcases List.mem_append.mp hc with hc | hc
    · simp [hchar c (hk c hc)]
    · rcases List.mem_cons.mp hc with rfl | hc
      · simp [hq]
      · simp [hchar c (hv c hc)]
  have htoken : authorizationRe.rewrite true (plain k v) = plain k v :=
    Rule.rewrite_of_needs ⟨tokenKey, List.mem_cons_self, tokenKey_needs⟩ (hany space rfl fun c => keyChar_not_space) true
  have hstring : jsonSecretRe.rewrite true (plain k v) = plain k v :=
    Rule.rewrite_of_needs ⟨stringKey, List.mem_cons_self, stringKey_needs⟩
      (hany _ rfl fun c hc => by simpa using keyChar_ne hc rfl) true
  have hne : plain k v ≠ [] := by simp [plain]
  rw [redactString, if_neg hne]
  dsimp only
  rw [htoken, hstring]

theorem redactString_keyed (hk : ∀ c ∈ k, keyChar c = true) (h : keyed true k = true) (hv : alnumText v = true) :
    redactString (plain k v) = urlCredentialRe.rewrite true (k ++ '=' :: redacted) := by
  rw [redactString_plain hk (alnumText_keyChars hv), rewrite_keyed hk (valueEnd_alnum hv) h, Rule.rewrite_nil,
    List.append_nil]

/-- a value behind another key is left as it is -/
theorem redactString_not_keyed (hk : ∀ c ∈ k, keyChar c = true) (h : keyed true k = false) (hv : alnumText v = true) :
    redactString (plain k v) = plain k v := by
  have hchars := alnumText_keyChars hv
  -- no separator follows the value
  have hname : namedAttempt ['='] false v = none := by
    rw [namedAttempt, List.findSome?_eq_none_iff]
    intro x hx
    have hend : pairEnd x.2 = none := by
      cases hx2 : x.2 with
      | nil => rfl
      | cons c t => exact pairEnd_key (hchars c ((parses_suffix hx).subset (by rw [hx2]; exact List.mem_cons_self))) t
    rw [hend]
    rfl
  have hequals : ∀ b, secretKeyValueRe.attempt b ('=' :: v) = none := by
    intro b
    have hstart := namedAttempt_key (s := []) (z := v) (by simp) [] true
    rw [List.nil_append] at hstart
    have hempty : names.accepts [] = false := rfl
    rw [hempty, if_neg Bool.false_ne_true] at hstart
    rw [secretKeyValueRe_cons, hstart, hname, ite_self, ite_self]
    rfl
  have hvalue : secretKeyValueRe.rewrite false v = v := by
    refine Rule.rewrite_of_needs ⟨separator, by simp [secretKeyValueRe], separator_needs⟩ ?_ false
    rw [List.any_eq_false]
    intro c hc
    simp [keyChar_not_separator (hchars c hc)]
  obtain ⟨b', hkey⟩ := rewrite_not_keyed (z := v) hk h
  rw [Rule.rewrite_none (hequals b'), hvalue] at hkey
  rw [redactString_plain hk hchars, hkey]
  refine Rule.rewrite_of_needs ⟨urlKey, List.mem_cons_self, urlKey_needs⟩ ?_ true
  rw [List.any_eq_false]
  intro c hc
  rcases List.mem_append.mp hc with hc | hc
  · simpa using keyChar_ne (hk c hc) rfl
  · rcases List.mem_cons.mp hc with rfl | hc
    · decide
    · simpa using keyChar_ne (hchars c hc) rfl

theorem hidden_iff (hk : ∀ c ∈ k, keyChar c = true) : Hidden k ↔ keyed true k = true := by
  constructor
  · intro h
    by_contra hno
    rw [Bool.not_eq_true] at hno
    have hsame := h ['a'] ['b'] rfl rfl
    rw [redactString_not_keyed hk hno rfl, redactString_not_keyed hk hno rfl] at hsame
    simp [plain] at hsame
  · intro h v w hv hw
    rw [redactString_keyed hk h hv, redactString_keyed hk h hw]

end Plain

/-! ## Quoted values -/

section Quoted
variable {k v : Text}

theorem escapeQuotes_of_not_mem (h : '"' ∉ v) : escapeQuotes v = v := by
  induction v with
  | nil => rfl
  | cons c v ih =>
    simp only [List.mem_cons, not_or] at h
    rw [escapeQuotes, List.flatMap_cons, if_neg (Ne.symm h.1)]
    exact congrArg (c :: ·) (ih h.2)

theorem valueEnd_quoted (h : '"' ∉ v) : valueEnd (('"' :: (v ++ ['"'])).dropWhile space) = some [] := by
  have hplain : ∀ c ∈ v, (c != '"') = true := fun c hc => bne_iff_ne.mpr fun he => h (he ▸ hc)
  have hquote : quoteEnd '"' ('"' :: (v ++ ['"'])) = some [] := by
    rw [quoteEnd, if_pos rfl, List.dropWhile_append_of_pos hplain]
    rfl
  rw [List.dropWhile_cons_of_neg (by decide), valueEnd, hquote]
  rfl

/-- a JSON member has two quotes around its name and a third before its value -/
theorem quotes_of_attempt {b : Bool} {s : Text} {x : Text × Text} (h : jsonSecretRe.attempt b s = some x) :
    3 ≤ s.count '"' := by
  rw [jsonSecretRe_attempt] at h
  obtain ⟨y, hy, hx⟩ := List.exists_of_findSome?_eq_some h
  obtain ⟨t, ht, rfl⟩ := Option.map_eq_some_iff.mp hx
  have hvalue : 1 ≤ y.2.count '"' := by
    cases hy2 : y.2 with
    | nil =>
      rw [hy2] at ht
      cases ht
    | cons c s =>
      rw [hy2, stringEnd] at ht
      split_ifs at ht with hc
      simp [hc]
  have hname : 2 ≤ y.1.count '"' := by
    obtain ⟨q₁, h₁, y₁, hy₁, rfl⟩ := seq_of_mem hy
    obtain ⟨n, -, y₂, hy₂, rfl⟩ := seq_of_mem hy₁
    obtain ⟨q₂, h₂, y₃, -, rfl⟩ := seq_of_mem hy₂
    obtain ⟨c, hc, hq₁⟩ := char_of_mem h₁
    obtain ⟨d, hd, hq₂⟩ := char_of_mem h₂
    simp only [List.count_append, hq₁, hq₂, eq_of_beq hc, eq_of_beq hd, List.count_singleton_self]
    omega
  rw [← parses_split hy, List.count_append]
  omega

theorem jsonSecretRe_not_occurs {b : Bool} {s : Text} (h : s.count '"' ≤ 2) : jsonSecretRe.occurs b s = false := by
  induction s generalizing b with
  | nil => rfl
  | cons c s ih =>
    have hrest := (List.sublist_cons_self c s).count_le '"'
    rw [Rule.occurs, ih (by omega), Bool.or_false, Option.isSome_eq_false_iff, Option.isNone_iff_eq_none,
      Option.eq_none_iff_forall_ne_some]
    intro x hx
    have hquotes := quotes_of_attempt hx
    omega

theorem redactString_quoted (hk : ∀ c ∈ k, keyChar c = true) (h : keyed true k = true) (hv : '"' ∉ v)
    (htoken : authorizationRe.occurs true (quoted k v) = false) :
    redactString (quoted k v) = urlCredentialRe.rewrite true (k ++ '=' :: redacted) := by
  have hcount : (quoted k v).count '"' ≤ 2 := by
    have hkq : '"' ∉ k := fun hmem => by cases hk _ hmem
    simp [quoted, escapeQuotes_of_not_mem hv, List.count_eq_zero.mpr hkq, List.count_eq_zero.mpr hv]
  have hstring := Rule.rewrite_of_not_occurs (jsonSecretRe_not_occurs (b := true) hcount)
  have hvalue := rewrite_keyed hk (valueEnd_quoted hv) h
  rw [Rule.rewrite_nil, List.append_nil] at hvalue
  have hspelled : quoted k v = plain k ('"' :: (v ++ ['"'])) := by
    rw [quoted, escapeQuotes_of_not_mem hv]
    rfl
  rw [redactString, if_neg (by simp [quoted])]
  dsimp only
  rw [Rule.rewrite_of_not_occurs htoken, hstring, hspelled, hvalue]

end Quoted

/-! ## JSON members -/

section Members
variable {k before after : Text}

theorem closing_spelled {v s : Text} (h : JsonSpells v s) (z : Text) : closing (s ++ '"' :: z) = some z := by
  have hall : hexDigits.all (fun c => c != '"' && c != '\\') = true := rfl
  have hdigit : ∀ c ∈ hexDigits, c ≠ '"' ∧ c ≠ '\\' := fun c hc => by simpa using List.all_eq_true.mp hall c hc
  have hhex : ∀ (x : Hex) (t : Text), closing ('\\' :: 'u' :: (x.digits ++ t)) = closing t := by
    intro x t
    rw [closing_escape (by decide)]
    have hx := x.hex
    generalize x.digits = l at hx
    induction l with
    | nil => rfl
    | cons c l ih =>
      have hc := hdigit c (hx c List.mem_cons_self)
      rw [List.cons_append, closing_char hc.1 hc.2]
      exact ih fun d hd => hx d (List.mem_cons_of_mem c hd)
  induction h with
  | nil => exact closing_quote z
  | char c hq hb hc h ih => exact (closing_char hq hb _).trans ih
  | short c e he h ih =>
    have hne : e ≠ '\n' := by
      rintro rfl
      simp [shortEscapes] at he
    exact (closing_escape hne _).trans ih
  | unicode c x hx h ih =>
    rw [List.cons_append, List.cons_append, List.append_assoc, hhex, ih]
  | surrogates c x y hc hx hy h ih =>
    rw [List.cons_append, List.cons_append, List.append_assoc, List.cons_append, List.cons_append, List.append_assoc, hhex,
      hhex, ih]

/-- behind the name of a member -/
theorem findSome_colon {α : Type} {F : Way → Option α} (hF : ∀ m c t, space c = true → F (m, c :: t) = none) (b : Bool)
    (hbefore : ∀ c ∈ before, space c = true) (hafter : ∀ c ∈ after, space c = true) {d : Char} (hd : space d = false)
    (z : Text) :
    ((seq spaces (seq (char (· == ':')) spaces)).parses b (before ++ ':' :: (after ++ d :: z))).findSome? F =
      F (before ++ (':' :: after), d :: z) := by
  have hcolon : ¬ space ':' = true := by decide
  have hstop : ∀ (m : Text) (c : Char) (t : Text), space c = true →
      ((seq (char (· == ':')) spaces).parses (b && m.isEmpty) (c :: t)).findSome? (fun y => F (m ++ y.1, y.2)) = none := by
    intro m c t hc
    have hne : ¬ (c == ':') = true := fun he => hcolon (eq_of_beq he ▸ hc)
    rw [findSome_seq, findSome_char, if_neg hne]
  have hlast := fun b' => findSome_star_run (k := fun y => F (before ++ ([':'] ++ y.1), y.2)) (fun m c t hc => hF _ c t hc)
    hafter hd b' z
  have hfirst := findSome_star_run (k := fun x => ((seq (char (· == ':')) spaces).parses (b && x.1.isEmpty) x.2).findSome?
    fun y => F (x.1 ++ y.1, y.2)) hstop hbefore (d := ':') rfl b (after ++ d :: z)
  rw [findSome_seq]
  refine hfirst.trans ?_
  rw [findSome_seq, findSome_char]
  exact hlast _

/-- behind the quote that opens the name of a member -/
theorem findSome_name {α : Type} {F : Way → Option α} (hF : ∀ m c t, space c = true → F (m, c :: t) = none) (b : Bool)
    (hk : jsonNames.accepts k = true) (hq : '"' ∉ k) (hbefore : ∀ c ∈ before, space c = true)
    (hafter : ∀ c ∈ after, space c = true) {d : Char} (hd : space d = false) (z : Text) :
    ((seq jsonNames (seq doubleQuote (seq spaces (seq (char (· == ':')) spaces)))).parses b
      (k ++ '"' :: (before ++ ':' :: (after ++ d :: z)))).findSome? F =
      F (k ++ '"' :: (before ++ ':' :: after), d :: z) := by
  have havoid : jsonNames.avoids '"' = true := rfl
  have hfloat : jsonNames.floats = true := rfl
  rw [findSome_seq, parses_barrier havoid, findSome_extend, parses_floats hfloat b false]
  have hend : ∀ (x : Way) (b' : Bool), x ∈ jsonNames.parses false k → x.2 = [] →
      ((seq doubleQuote (seq spaces (seq (char (· == ':')) spaces))).parses b'
        (x.2 ++ '"' :: (before ++ ':' :: (after ++ d :: z)))).findSome? (fun y => F (x.1 ++ y.1, y.2)) =
        F (k ++ '"' :: (before ++ ':' :: after), d :: z) := by
    intro x b' hx hnil
    have hsplit := parses_split hx
    rw [hnil, List.append_nil] at hsplit
    have hcolon := fun b' => findSome_colon (F := fun y => F (k ++ (['"'] ++ y.1), y.2)) (fun m c t hc => hF _ c t hc) b'
      hbefore hafter hd z
    rw [hnil, hsplit, List.nil_append, findSome_seq, doubleQuote, findSome_char]
    exact hcolon _
  have hmid : ∀ (x : Way) (b' : Bool), x ∈ jsonNames.parses false k → x.2 ≠ [] →
      ((seq doubleQuote (seq spaces (seq (char (· == ':')) spaces))).parses b'
        (x.2 ++ '"' :: (before ++ ':' :: (after ++ d :: z)))).findSome? (fun y => F (x.1 ++ y.1, y.2)) = none := by
    intro x b' hx hne
    obtain ⟨c, s, hx2⟩ := List.exists_cons_of_ne_nil hne
    have hc : ¬ (c == '"') = true := by
      intro he
      refine hq ((parses_suffix hx).subset ?_)
      rw [hx2, eq_of_beq he]
      exact List.mem_cons_self
    rw [hx2, List.cons_append, findSome_seq, doubleQuote, findSome_char, if_neg hc]
  refine findSome_unique (fun x hx => ?_) ?_
  · by_cases hnil : x.2 = []
    · exact .inr (hend x _ hx hnil)
    · exact .inl (hmid x _ hx hnil)
  · obtain ⟨x, hx, hnil⟩ := List.any_eq_true.mp hk
    exact ⟨x, hx, hend x _ hx (List.isEmpty_iff.mp hnil)⟩

theorem stringKey_attempt (hk : jsonNames.accepts k = true) (hq : '"' ∉ k) (hbefore : ∀ c ∈ before, space c = true)
    (hafter : ∀ c ∈ after, space c = true) {z t : Text} (hz : closing z = some t) (b : Bool) :
    jsonSecretRe.attempt b ('"' :: (k ++ '"' :: (before ++ ':' :: (after ++ '"' :: z)))) =
      some ('"' :: (k ++ '"' :: (before ++ ':' :: (after ++ '"' :: (redacted ++ ['"'])))), t) := by
  -- a string does not start with a space
  have hspace : ∀ (m : Text) (c : Char) (s : Text), space c = true →
      (stringEnd (c :: s)).map (fun t => ('"' :: m ++ '"' :: (redacted ++ ['"']), t)) = none := by
    intro m c s hc
    have hne : c ≠ '"' := by
      rintro rfl
      cases hc
    rw [stringEnd, if_neg hne]
    rfl
  have hname := fun b => findSome_name
    (F := fun x => (stringEnd x.2).map fun t => ('"' :: x.1 ++ '"' :: (redacted ++ ['"']), t)) hspace b hk hq hbefore hafter
    (d := '"') rfl z
  have hkey : stringKey =
      seq doubleQuote (seq jsonNames (seq doubleQuote (seq spaces (seq (char (· == ':')) spaces)))) := rfl
  rw [jsonSecretRe_attempt, hkey, findSome_seq, doubleQuote, findSome_char]
  refine (hname _).trans ?_
  rw [stringEnd, if_pos rfl, hz]
  simp

theorem redactString_member (hk : jsonNames.accepts k = true) (hq : '"' ∉ k) (hbefore : ∀ c ∈ before, space c = true)
    (hafter : ∀ c ∈ after, space c = true) {v s : Text} (hs : JsonSpells v s)
    (htoken : authorizationRe.occurs true (member k before after s) = false) :
    redactString (member k before after s) =
      urlCredentialRe.rewrite true (secretKeyValueRe.rewrite true (member k before after redacted)) := by
  have hend : closing (s ++ ['"', '}']) = some ['}'] := closing_spelled hs ['}']
  have hbrace : ∀ b z, jsonSecretRe.attempt b ('{' :: z) = none := fun b z => rfl
  have hlast : jsonSecretRe.rewrite false ['}'] = ['}'] := rfl
  have hstring : jsonSecretRe.rewrite true (member k before after s) = member k before after redacted := by
    rw [member, Rule.rewrite_none (hbrace true _),
      Rule.rewrite_some (stringKey_attempt hk hq hbefore hafter hend false), hlast]
    simp [member]
  rw [redactString, if_neg (by simp [member])]
  dsimp only
  rw [Rule.rewrite_of_not_occurs htoken, hstring]

end Members

namespace Sample

theorem keyChars_of {k : Text} (h : k.all keyChar = true) : ∀ c ∈ k, keyChar c = true := List.all_eq_true.mp h

theorem hidden_of {k : Text} (h : (k.all keyChar && keyed true k) = true) : Hidden k := by
  rw [Bool.and_eq_true] at h
  exact (hidden_iff (keyChars_of h.1)).mpr h.2

end Sample

end Crane.Logging.Rules
