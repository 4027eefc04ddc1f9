/-
Redaction of free text (`redactString` in `internal/logging/redact.go`): four rewrites, one after another, each of which
replaces all matches of a regular expression.

A text is the list of its characters. The parts of a rule are the groups of its expression, and what is between and behind
them. All expressions ignore case, which in the source's engine also gives the Kelvin sign for k and the long s for s.

What each rule does at one place of a text is stated below without the ways of the matcher: where the value of a match
ends (`closing`, `valueEnd`) and what becomes of the text before it.
-/
import Crane.Lib.Regex

namespace Crane.Logging.Rules

open Regexp Regex

/-! ## Characters -/

/-- the lower-case ASCII letter that matches `c` when case is ignored -/
def fold (c : Char) : Char := if c = '\u212a' then 'k' else if c = '\u017f' then 's' else c.toLower

def letter (c : Char) : Bool := (fold c).isLower

def alphanumeric (c : Char) : Bool := letter c || c.isDigit

/-- `\s` -/
def space (c : Char) : Bool := c == '\t' || c == '\n' || c == '\x0c' || c == '\r' || c == ' '

def literal (t : String) : Regex := seqs (t.toList.map fun c => char fun d => fold d == c)

def spaces : Regex := star (char space)

def equalsOrColon (c : Char) : Bool := c == '=' || c == ':'

def doubleQuote : Regex := char (· == '"')

/-! ## The rules -/

def redacted : Text := "[REDACTED]".toList

def tokenChar (c : Char) : Bool := !space c && c != ',' && c != ';'

/-- `authorization\s*[=:]\s*(?:bearer|basic)\s+` -/
def tokenKey : Regex :=
  seqs [literal "authorization", spaces, char equalsOrColon, spaces, alts [literal "bearer", literal "basic"],
    plus (char space)]

/-- `(?i)(authorization\s*[=:]\s*(?:bearer|basic)\s+)[^\s,;]+` -/
def authorizationRe : Rule where
  parts := [tokenKey, plus (char tokenChar)]
  template := [.part 0, .text redacted]
  proper := ⟨_, List.mem_cons_of_mem _ List.mem_cons_self, .inl fun _ _ => rfl⟩

/-- a name in two words -/
def keyNamed (t : String) : Regex := seqs [literal t, opt (char fun c => c == '_' || c == '-'), literal "key"]

def jsonNames : Regex :=
  alts [literal "password", literal "passwd", literal "pwd", literal "secret", literal "token", keyNamed "api",
    keyNamed "access", keyNamed "secret", literal "authorization", literal "credential"]

/-- `"(?:password|…|credential)"\s*:\s*` -/
def stringKey : Regex := seqs [doubleQuote, jsonNames, doubleQuote, spaces, char (· == ':'), spaces]

/-- a character of a JSON string, or an escape -/
def jsonChar : Regex := alt (seq (char (· == '\\')) (char (· != '\n'))) (char fun c => c != '"' && c != '\\')

/-- `(?i)("(?:password|…|credential)"\s*:\s*)"(?:\\.|[^"\\])*"` -/
def jsonSecretRe : Rule where
  parts := [stringKey, seqs [doubleQuote, star jsonChar, doubleQuote]]
  template := [.part 0, .text ('"' :: (redacted ++ ['"']))]
  proper := ⟨_, List.mem_cons_of_mem _ List.mem_cons_self, .inl fun _ _ => rfl⟩

def names : Regex :=
  alts [literal "password", literal "passwd", literal "pwd", literal "secret", literal "token", keyNamed "api",
    keyNamed "access", keyNamed "secret", literal "dsn", literal "authorization", literal "credential"]

def boundary : Regex := alt start (char fun c => !alphanumeric c)

def quotedBy (q : Char) : Regex := seqs [char (· == q), star (char (· != q)), char (· == q)]

def wordChar (c : Char) : Bool := !space c

def separator : Regex := seqs [spaces, char equalsOrColon, spaces]

/-- `"[^"]*"|'[^']*'|\S+` -/
def value : Regex := alts [quotedBy '"', quotedBy '\'', plus (char wordChar)]

/-- `(?i)(^|[^A-Za-z0-9])(password|…|credential)\s*[=:]\s*("[^"]*"|'[^']*'|\S+)` -/
def secretKeyValueRe : Rule where
  parts := [boundary, names, separator, value]
  template := [.part 0, .part 1, .text ('=' :: redacted)]
  proper := ⟨_, List.mem_cons_of_mem _ (List.mem_cons_of_mem _ List.mem_cons_self), .inr (.inl fun _ _ => rfl)⟩

def schemeChar (c : Char) : Bool := letter c || c.isDigit || c == '+' || c == '.' || c == '-'

def userChar (c : Char) : Bool := c != ':' && c != '@' && c != '/' && !space c

def passwordChar (c : Char) : Bool := c != '@' && !space c

/-- `[a-z][a-z0-9+.\-]*://[^:@/\s]+:` -/
def urlKey : Regex :=
  seqs [char letter, star (char schemeChar), char (· == ':'), char (· == '/'), char (· == '/'), plus (char userChar),
    char (· == ':')]

/-- `(?i)([a-z][a-z0-9+.\-]*://[^:@/\s]+:)([^@\s]+)(@)` -/
def urlCredentialRe : Rule where
  parts := [urlKey, plus (char passwordChar), char (· == '@')]
  template := [.part 0, .text redacted, .part 2]
  proper := ⟨_, List.mem_cons_of_mem _ List.mem_cons_self, .inl fun _ _ => rfl⟩

def redactString (s : Text) : Text :=
  if s = [] then s
  else
    let s := authorizationRe.rewrite true s
    let s := jsonSecretRe.rewrite true s
    let s := secretKeyValueRe.rewrite true s
    urlCredentialRe.rewrite true s

example : redactString "note: Password = \"a b\" token:x".toList = "note: Password=[REDACTED] token=[REDACTED]".toList := by
  decide +kernel

/-! ## Values -/

/-- what is left behind the closing quote of a JSON string -/
def closing : Text → Option Text
  | [] => none
  | c :: s =>
    if c = '"' then some s
    else if c = '\\' then
      match s with
      | [] => none
      | d :: t => if d = '\n' then none else closing t
    else closing s

theorem closing_quote (s : Text) : closing ('"' :: s) = some s := by
  rw [closing.eq_def]
  rfl

theorem closing_escape {d : Char} (h : d ≠ '\n') (t : Text) : closing ('\\' :: d :: t) = closing t := by
  simp [closing, h]

theorem closing_char {c : Char} (h : c ≠ '"') (h' : c ≠ '\\') (s : Text) : closing (c :: s) = closing s := by
  rw [closing.eq_def]
  simp [h, h']

def stringEnd : Text → Option Text
  | [] => none
  | c :: s => if c = '"' then closing s else none

/-- what is left behind a text between two `q` -/
def quoteEnd (q : Char) : Text → Option Text
  | [] => none
  | c :: s => if c = q then (s.dropWhile (· != q)).tail? else none

/-- what is left behind a run of characters -/
def runEnd (p : Char → Bool) (s : Text) : Option Text := if s.takeWhile p = [] then none else some (s.dropWhile p)

/-- what is left behind a value: a quoted text or a word -/
def valueEnd (s : Text) : Option Text := ((quoteEnd '"' s).or (quoteEnd '\'' s)).or (runEnd wordChar s)

def separatorEnd (s : Text) : Option Text :=
  match s.dropWhile space with
  | [] => none
  | c :: t => if equalsOrColon c then some (t.dropWhile space) else none

/-- what is left behind a separator and a value -/
def pairEnd (s : Text) : Option Text := (separatorEnd s).bind valueEnd

theorem jsonChar_plain {c : Char} (h : c ≠ '"') (h' : c ≠ '\\') (b : Bool) (s : Text) :
    jsonChar.parses b (c :: s) = [([c], s)] := by
  simp [jsonChar, parses, h, h']

theorem jsonChar_escape {d : Char} (h : d ≠ '\n') (b : Bool) (s : Text) :
    jsonChar.parses b ('\\' :: d :: s) = [(['\\', d], s)] := by
  simp [jsonChar, parses, h]

theorem jsonChar_stuck (b : Bool) {s : Text} (h : ∀ d t, s = d :: t → d = '\n') : jsonChar.parses b ('\\' :: s) = [] := by
  cases s with
  | nil => rfl
  | cons d t =>
    obtain rfl := h d t rfl
    rfl

section Ends
variable {α : Type}

/-- how to go on behind a character of `p` -/
def behind (p : Char → Bool) (g : Text → Option α) : Text → Option α
  | [] => none
  | c :: s => if p c then g s else none

theorem behind_map {β : Type} (p : Char → Bool) (g : Text → Option α) (h : α → β) (s : Text) :
    (behind p g s).map h = behind p (fun t => (g t).map h) s := by
  cases s with
  | nil => rfl
  | cons c s =>
    rw [behind, behind]
    split_ifs
    · rfl
    · rfl

theorem findSome_one (p : Char → Bool) (b : Bool) (s : Text) (g : Text → Option α) :
    ((char p).parses b s).findSome? (fun x => g x.2) = behind p g s := by
  cases s with
  | nil => rfl
  | cons c t =>
    rw [findSome_char]
    rfl

theorem findSome_jsonChars (b : Bool) (s : Text) (g : Text → α) :
    ((star jsonChar).parses b s).findSome? (fun x => behind (· == '"') (fun t => some (g t)) x.2) = (closing s).map g := by
  fun_induction closing s generalizing b with
  | case1 => exact findSome_star_stop rfl
  | case2 s => exact findSome_star_stop rfl
  | case3 => exact findSome_star_stop (jsonChar_stuck b (by simp))
  | case4 t => exact findSome_star_stop (jsonChar_stuck b (by simp))
  | case5 d t hd _ ih =>
    rw [findSome_star_step (jsonChar_escape hd b t) (by simp), ih]
    exact Option.or_none
  | case6 c s hq hb ih =>
    have hfail : behind (· == '"') (fun t => some (g t)) (c :: s) = none := if_neg (by simpa using hq)
    rw [findSome_star_step (jsonChar_plain hq hb b s) (by simp), ih, hfail]
    exact Option.or_none

theorem findSome_string (b : Bool) (s : Text) (g : Text → α) :
    ((seqs [doubleQuote, star jsonChar, doubleQuote]).parses b s).findSome? (fun y => some (g y.2)) =
      (stringEnd s).map g := by
  simp only [seqs, findSome_seq, doubleQuote, findSome_one (· == '"') _ _ fun t => some (g t), findSome_jsonChars]
  rw [findSome_one (· == '"') b s fun t => (closing t).map g]
  cases s with
  | nil => rfl
  | cons c s =>
    by_cases hc : c = '"'
    · simp [behind, stringEnd, hc]
    · simp [behind, stringEnd, hc]

theorem findSome_quotedBy (q : Char) (b : Bool) (s : Text) (g : Text → α) :
    ((quotedBy q).parses b s).findSome? (fun y => some (g y.2)) = (quoteEnd q s).map g := by
  -- a character other than the quote is not the closing quote
  have hstop : ∀ (m : Text) (c : Char) (t : Text), (c != q) = true → behind (· == q) (fun t => some (g t)) (c :: t) = none :=
    fun m c t hc => if_neg (by simpa using hc)
  simp only [quotedBy, seqs, findSome_seq, findSome_one (· == q) _ _ fun t => some (g t)]
  simp only [findSome_star_char (k := fun x : Way => behind (· == q) (fun t => some (g t)) x.2) hstop]
  rw [findSome_one (· == q) b s fun t => behind (· == q) (fun t => some (g t)) (t.dropWhile (· != q))]
  cases s with
  | nil => rfl
  | cons c s =>
    by_cases hc : c = q
    · simp only [behind, quoteEnd, hc, if_true, beq_self_eq_true]
      cases hd : s.dropWhile (· != q) with
      | nil => rfl
      | cons d t =>
        have hstop := List.head?_dropWhile_not (· != q) s
        rw [hd] at hstop
        have hq : d = q := by simpa using hstop
        simp [hq]
    · simp [behind, quoteEnd, hc]

theorem findSome_run (p : Char → Bool) (b : Bool) (s : Text) (g : Text → α) :
    ((plus (char p)).parses b s).findSome? (fun y => some (g y.2)) = (runEnd p s).map g := by
  rw [findSome_plus_char_last fun x => rfl, runEnd]
  split_ifs <;> rfl

theorem findSome_value (b : Bool) (s : Text) (g : Text → α) :
    (value.parses b s).findSome? (fun y => some (g y.2)) = (valueEnd s).map g := by
  simp only [value, alts]
  rw [findSome_alt, findSome_alt, findSome_quotedBy, findSome_quotedBy, findSome_run, valueEnd,
    Option.map_or, Option.map_or, Option.or_assoc]

theorem valueEnd_space {c : Char} (h : space c = true) (t : Text) : valueEnd (c :: t) = none := by
  have hquote : c ≠ '"' := by
    rintro rfl
    cases h
  have hsingle : c ≠ '\'' := by
    rintro rfl
    cases h
  have hword : ¬ wordChar c = true := by simpa [wordChar] using h
  simp [valueEnd, quoteEnd, runEnd, hquote, hsingle, List.takeWhile_cons_of_neg hword]

theorem findSome_separator (b : Bool) (s : Text) (g : Text → Option α) (hg : ∀ c t, space c = true → g (c :: t) = none) :
    (separator.parses b s).findSome? (fun x => g x.2) = (separatorEnd s).bind g := by
  have hlast : ∀ b t, (spaces.parses b t).findSome? (fun x => g x.2) = g (t.dropWhile space) :=
    fun b t => findSome_star_char (fun m c t h => hg c t h) b t
  -- a space is not a separator
  have hstop : ∀ (m : Text) (c : Char) (t : Text), space c = true →
      behind equalsOrColon (fun t => g (t.dropWhile space)) (c :: t) = none := by
    intro m c t h
    refine if_neg fun hc => ?_
    simp only [equalsOrColon, Bool.or_eq_true, beq_iff_eq] at hc
    rcases hc with rfl | rfl
    · cases h
    · cases h
  simp only [separator, seqs, findSome_seq, hlast, findSome_one equalsOrColon _ _ fun t => g (t.dropWhile space)]
  rw [spaces, findSome_star_char (k := fun x : Way => behind equalsOrColon (fun t => g (t.dropWhile space)) x.2) hstop,
    separatorEnd]
  cases s.dropWhile space with
  | nil => rfl
  | cons c t =>
    by_cases hc : equalsOrColon c = true
    · simp [behind, hc]
    · simp [behind, hc]

end Ends

/-! ## The rules at one place -/

theorem authorizationRe_attempt (b : Bool) (s : Text) : authorizationRe.attempt b s =
    (tokenKey.parses b s).findSome? fun x => (runEnd tokenChar x.2).map fun t => (x.1 ++ redacted, t) := by
  rw [Rule.attempt, authorizationRe, firstMatch, map_findSome]
  refine congrArg (List.findSome? · _) (funext fun x => ?_)
  rw [firstMatch, map_findSome, map_findSome]
  simp only [firstMatch, Option.map_some, Rule.expand, List.flatMap_cons, List.flatMap_nil, List.append_nil,
    List.getD_cons_zero]
  exact findSome_run tokenChar _ _ fun t => (x.1 ++ redacted, t)

theorem jsonSecretRe_attempt (b : Bool) (s : Text) : jsonSecretRe.attempt b s =
    (stringKey.parses b s).findSome? fun x =>
      (stringEnd x.2).map fun t => (x.1 ++ '"' :: (redacted ++ ['"']), t) := by
  rw [Rule.attempt, jsonSecretRe, firstMatch, map_findSome]
  refine congrArg (List.findSome? · _) (funext fun x => ?_)
  rw [firstMatch, map_findSome, map_findSome]
  simp only [firstMatch, Option.map_some, Rule.expand, List.flatMap_cons, List.flatMap_nil, List.append_nil,
    List.getD_cons_zero]
  exact findSome_string _ _ fun t => (x.1 ++ '"' :: (redacted ++ ['"']), t)

/-- a name, a separator and a value; `u` is what stands before them -/
def namedAttempt (u : Text) (b : Bool) (s : Text) : Option (Text × Text) :=
  (names.parses b s).findSome? fun y => (pairEnd y.2).map fun t => (u ++ y.1 ++ '=' :: redacted, t)

theorem secretKeyValueRe_attempt (b : Bool) (s : Text) : secretKeyValueRe.attempt b s =
    (boundary.parses b s).findSome? fun x => namedAttempt x.1 (b && x.1.isEmpty) x.2 := by
  rw [Rule.attempt, secretKeyValueRe, firstMatch, map_findSome]
  refine congrArg (List.findSome? · _) (funext fun x => ?_)
  rw [namedAttempt, firstMatch, map_findSome, map_findSome]
  refine congrArg (List.findSome? · _) (funext fun y => ?_)
  rw [firstMatch, map_findSome, map_findSome, map_findSome]
  simp only [firstMatch, map_findSome, Option.map_some, Rule.expand, List.flatMap_cons, List.flatMap_nil, List.append_nil,
    List.getD_cons_zero, List.getD_cons_succ, findSome_value _ _ fun t => (x.1 ++ (y.1 ++ '=' :: redacted), t)]
  rw [findSome_separator _ _ (fun t => (valueEnd t).map fun t => (x.1 ++ (y.1 ++ '=' :: redacted), t))
    (fun c t h => by rw [valueEnd_space h]; rfl), pairEnd, Option.map_bind, List.append_assoc]
  rfl

theorem secretKeyValueRe_cons (b : Bool) (c : Char) (s : Text) : secretKeyValueRe.attempt b (c :: s) =
    (if b then namedAttempt [] true (c :: s) else none).or
      (if alphanumeric c then none else namedAttempt [c] false s) := by
  rw [secretKeyValueRe_attempt, boundary, findSome_alt, findSome_char]
  cases b with
  | false => cases alphanumeric c <;> rfl
  | true => cases alphanumeric c <;> simp [parses]

/-- what is left behind a password and the `@` that ends it -/
def secretEnd (s : Text) : Option Text := (runEnd passwordChar s).bind (behind (· == '@') some)

theorem urlCredentialRe_attempt (b : Bool) (s : Text) : urlCredentialRe.attempt b s =
    (urlKey.parses b s).findSome? fun x => (secretEnd x.2).map fun t => (x.1 ++ (redacted ++ ['@']), t) := by
  rw [Rule.attempt, urlCredentialRe, firstMatch, map_findSome]
  refine congrArg (List.findSome? · _) (funext fun x => ?_)
  rw [firstMatch, map_findSome, map_findSome]
  have hat : ∀ (b : Bool) (y : Way), Option.map (fun z => (urlCredentialRe.expand z.1, z.2)) (Option.map
      (fun z => (x.1 :: z.1, z.2)) (Option.map (fun z => (y.1 :: z.1, z.2)) (firstMatch [char (· == '@')] b y.2))) =
      behind (· == '@') (fun t => some (x.1 ++ (redacted ++ ['@']), t)) y.2 := by
    rintro b ⟨u, _ | ⟨c, t⟩⟩
    · rfl
    · rw [firstMatch, findSome_char, behind]
      split_ifs with hc
      · obtain rfl := eq_of_beq hc
        rfl
      · rfl
  refine (congrArg (List.findSome? · _) (funext fun y => hat _ y)).trans ?_
  have hstop : ∀ (m : Text) (c : Char) (t : Text), passwordChar c = true →
      behind (· == '@') (fun t => some (x.1 ++ (redacted ++ ['@']), t)) (c :: t) = none := by
    intro m c t hc
    refine if_neg fun hat => ?_
    obtain rfl := eq_of_beq hat
    cases hc
  rw [findSome_plus_char (k := fun y : Way => behind (· == '@') (fun t => some (x.1 ++ (redacted ++ ['@']), t)) y.2) hstop,
    secretEnd, runEnd]
  split_ifs
  · rfl
  · rw [Option.bind_some, behind_map]
    rfl

/-! ## What a match needs -/

theorem tokenKey_needs : tokenKey.Needs space :=
  Or.inr (Or.inr (Or.inr (Or.inr (Or.inr (Or.inl fun _ hc => hc)))))

theorem stringKey_needs : stringKey.Needs (· == '"') := Or.inl fun _ hc => hc

theorem separator_needs : separator.Needs equalsOrColon := Or.inr (Or.inl fun _ hc => hc)

theorem urlKey_needs : urlKey.Needs (· == ':') := Or.inr (Or.inr (Or.inl fun _ hc => hc))

end Crane.Logging.Rules
