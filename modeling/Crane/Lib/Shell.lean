/-
The POSIX shell's reading of a script: token recognition, quoting, and the simple commands of a list of pipelines.

A word keeps for each of its characters whether it was quoted. `commands` is the reading of a script that consists of
simple commands with plain output redirections, joined by pipes, newlines and semicolons; on everything else, and wherever
a word would be expanded, it has no result. So what it returns are the exact arguments that the shell passes on.

A character stands for one byte of the script. NUL is not part of any script.
-/
import Mathlib.Data.Nat.Notation
import Mathlib.Tactic.SplitIfs

namespace Crane.Shell

abbrev Text := List Char

/-- the characters of a word, each with whether it was quoted -/
abbrev Word := List (Char × Bool)

inductive Token where
  | word (w : Word)
  | operator (o : Text)
deriving DecidableEq, Repr

/-! ## Token recognition -/

inductive Mode where
  | plain | single | double
  | escape -- after a backslash
  | doubleEscape -- after a backslash in double quotes
  | comment
deriving DecidableEq, Repr

/-- the token that is being read -/
inductive Cur where
  | idle
  | word (w : Word)
  | operator (o : Text)
deriving DecidableEq, Repr

structure Lexer where
  mode : Mode := .plain
  tokens : List Token := []
  cur : Cur := .idle
deriving DecidableEq, Repr

def operators : List Text :=
  [['\n'], ['|'], ['&'], [';'], ['<'], ['>'], ['('], [')'], ['&', '&'], ['|', '|'], [';', ';'], ['<', '<'], ['>', '>'],
    ['<', '&'], ['>', '&'], ['<', '>'], ['>', '|'], ['<', '<', '-']]

def Cur.tokens : Cur → List Token
  | .idle => []
  | .word w => [.word w]
  | .operator o => [.operator o]

/-- the operator that the next character makes longer -/
def Cur.extended (cur : Cur) (c : Char) : Option Text :=
  match cur with
  | .operator o => if o ++ [c] ∈ operators then some (o ++ [c]) else none
  | _ => none

/-- a number right before a redirection names a file descriptor -/
def Cur.ioNumber : Cur → Bool
  | .word w => w ≠ [] && w.all fun x => x.1.isDigit && !x.2
  | _ => false

namespace Lexer

/-- ends the current token -/
def delimit (s : Lexer) : Lexer := { s with tokens := s.tokens ++ s.cur.tokens, cur := .idle }

/-- the current word, or a new one -/
def openWord (s : Lexer) : Lexer :=
  match s.cur with
  | .word _ => s
  | _ => { s.delimit with cur := .word [] }

def add (s : Lexer) (c : Char) (quoted : Bool) : Lexer :=
  match s.cur with
  | .word w => { s with cur := .word (w ++ [(c, quoted)]) }
  | _ => { s.delimit with cur := .word [(c, quoted)] }

/-- an unquoted character that does not make an operator longer -/
def plainChar (s : Lexer) (c : Char) : Option Lexer :=
  if c = '\\' then some { s.openWord with mode := .escape }
  else if c = '\'' then some { s.openWord with mode := .single }
  else if c = '"' then some { s.openWord with mode := .double }
  -- a parameter, a command or an arithmetic expression
  else if c = '$' ∨ c = '`' then none
  else if [c] ∈ operators then
    if (c = '<' ∨ c = '>') ∧ s.cur.ioNumber = true then none else some { s.delimit with cur := .operator [c] }
  else if c = ' ' ∨ c = '\t' then some s.delimit
  else match s.cur with
    | .word _ => some (s.add c false)
    | _ => if c = '#' then some { s.delimit with mode := .comment } else some (s.add c false)

def step (s : Lexer) (c : Char) : Option Lexer :=
  if c = '\x00' then none
  else match s.mode with
    | .plain => match s.cur.extended c with
      | some o => some { s with cur := .operator o }
      | none => s.plainChar c
    | .single => if c = '\'' then some { s with mode := .plain } else some (s.add c true)
    | .double =>
      if c = '"' then some { s with mode := .plain }
      else if c = '$' ∨ c = '`' then none
      else if c = '\\' then some { s with mode := .doubleEscape }
      else some (s.add c true)
    -- a backslash before a newline joins the lines
    | .escape => if c = '\n' then some { s with mode := .plain } else some { s.add c true with mode := .plain }
    | .doubleEscape =>
      if c = '\n' then some { s with mode := .double }
      else if c = '$' ∨ c = '`' ∨ c = '"' ∨ c = '\\' then some { s.add c true with mode := .double }
      else some { (s.add '\\' true).add c true with mode := .double }
    | .comment => if c = '\n' then some { s.delimit with mode := .plain, cur := .operator [c] } else some s

def read (s : Lexer) (text : Text) : Option Lexer := text.foldlM step s

end Lexer

/-- the tokens of a script; quotes have to be closed -/
def tokens (text : Text) : Option (List Token) := do
  let s ← Lexer.read {} text
  if s.mode = .plain ∨ s.mode = .comment then some s.delimit.tokens else none

/-! ## Commands -/

structure Simple where
  words : List Word := []
  out : Option Word := none
deriving DecidableEq, Repr

structure Parser where
  done : List (List Simple) := []
  pipeline : List Simple := []
  simple : Simple := {}
  redirect : Bool := false -- after `>`
deriving DecidableEq, Repr

namespace Parser

/-- a newline or the end; a newline after a pipe, or on an empty line, ends nothing -/
def newline (p : Parser) : Parser :=
  if p.simple = {} then p else { p with done := p.done ++ [p.pipeline ++ [p.simple]], pipeline := [], simple := {} }

def step (p : Parser) : Token → Option Parser
  | .word w =>
    if p.redirect then
      if p.simple.out.isSome then none else some { p with simple := { p.simple with out := some w }, redirect := false }
    else some { p with simple := { p.simple with words := p.simple.words ++ [w] } }
  | .operator o =>
    if p.redirect then none
    else if o = ['>'] then some { p with redirect := true }
    else if o = ['|'] then
      if p.simple = {} then none else some { p with pipeline := p.pipeline ++ [p.simple], simple := {} }
    else if o = [';'] then if p.simple = {} then none else some p.newline
    else if o = ['\n'] then some p.newline
    else none

/-- the pipelines of a script -/
def pipelines (ts : List Token) : Option (List (List Simple)) := do
  let p ← ts.foldlM step {}
  if p.redirect ∨ (p.simple = {} ∧ p.pipeline ≠ []) then none else some p.newline.done

end Parser

/-- characters that mean nothing to the shell even if they are not quoted; patterns, tildes, braces and assignments have
others -/
def inert (c : Char) : Bool :=
  c.isAlphanum || c = '-' || c = '/' || c = '.' || c = '_' || c = '%' || c = '+' || c = ',' || c = ':' || c = '@'

/-- the one argument that a word stands for, if nothing in it is expanded -/
def literal (w : Word) : Option Text := if w.all fun x => x.2 || inert x.1 then some (w.map Prod.fst) else none

def reservedWords : List String :=
  ["if", "then", "else", "elif", "fi", "do", "done", "case", "esac", "while", "until", "for", "in", "function", "select",
    "time", "coproc"]

/-- a command name that the grammar has a use for -/
def reserved (w : Word) : Bool :=
  reservedWords.any fun r => r.toList.map (fun c => (c, false)) = w

structure Command where
  args : List Text
  out : Option Text := none
deriving DecidableEq, Repr

def Simple.command (c : Simple) : Option Command := do
  if c.words.head?.any reserved then none
  else
    let args ← c.words.mapM literal
    match c.out with
    | none => return { args := args }
    | some w => return { args := args, out := some (← literal w) }

/-- the pipelines of a script, each command with its arguments and the file its output goes to -/
def commands (text : Text) : Option (List (List Command)) := do
  let ps ← Parser.pipelines (← tokens text)
  ps.mapM fun p => p.mapM Simple.command

/-! ## Reading piece by piece -/

namespace Lexer

/-- the same lexer after more tokens -/
def after (ts : List Token) (s : Lexer) : Lexer := { s with tokens := ts ++ s.tokens }

@[simp] theorem after_delimit (ts : List Token) (s : Lexer) : (s.after ts).delimit = s.delimit.after ts := by
  simp [after, delimit]

@[simp] theorem after_openWord (ts : List Token) (s : Lexer) : (s.after ts).openWord = s.openWord.after ts := by
  obtain ⟨mode, us, cur⟩ := s
  cases cur <;> simp [after, openWord, delimit]

@[simp] theorem after_add (ts : List Token) (s : Lexer) (c : Char) (q : Bool) :
    (s.after ts).add c q = (s.add c q).after ts := by
  obtain ⟨mode, us, cur⟩ := s
  cases cur <;> simp [after, add, delimit]

theorem after_plainChar (ts : List Token) (s : Lexer) (c : Char) :
    (s.after ts).plainChar c = (s.plainChar c).map (after ts) := by
  have hcur : (s.after ts).cur = s.cur := rfl
  simp only [plainChar, hcur, after_delimit, after_openWord, after_add]
  split_ifs <;> first | rfl | (cases s.cur <;> rfl)

theorem after_step (ts : List Token) (s : Lexer) (c : Char) : (s.after ts).step c = (s.step c).map (after ts) := by
  have hcur : (s.after ts).cur = s.cur := rfl
  have hmode : (s.after ts).mode = s.mode := rfl
  by_cases hnul : c = '\x00'
  · simp [step, hnul]
  · simp only [step, if_neg hnul, hcur, hmode, after_delimit, after_add, after_plainChar]
    cases s.mode with
    | plain => cases s.cur.extended c <;> rfl
    | single => by_cases h : c = '\'' <;> simp only [h, if_true, if_false] <;> rfl
    | _ => dsimp only; split_ifs <;> rfl

/-- the tokens that are there already do not matter -/
theorem after_read (ts : List Token) (s : Lexer) (text : Text) :
    (s.after ts).read text = (s.read text).map (after ts) := by
  induction text generalizing s with
  | nil => rfl
  | cons c text ih =>
    simp only [read, List.foldlM_cons, after_step]
    cases s.step c with
    | none => rfl
    | some s' => exact ih s'

theorem read_append (s : Lexer) (a b : Text) : s.read (a ++ b) = (s.read a).bind fun s' => s'.read b := by
  simp only [read, List.foldlM_append]
  rfl

theorem read_cons (s : Lexer) (c : Char) (text : Text) : s.read (c :: text) = (s.step c).bind fun s' => s'.read text := by
  simp only [read, List.foldlM_cons]
  rfl

end Lexer

/-- quoted characters stand for themselves -/
theorem literal_quoted (t : Text) : literal (t.map fun c => (c, true)) = some t := by
  simp [literal, List.all_map, Function.comp_def]

end Crane.Shell
