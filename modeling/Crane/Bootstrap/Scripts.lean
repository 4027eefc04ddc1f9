/-
Scripts that a bootstrap runs on a host (`internal/provider/awscompute/bootstrap_runner.go`, `runScriptObserved`).

The script travels compressed and encoded inside a body, quoted for the shell that reads the body; the body travels inside
a command, quoted again for the shell that reads the command. `read_shellQuote` is what a quoted text does to the shell's
reader, whatever stands before it; both readings of a command follow from it, piece by piece.

Compression is any function that decompression inverts. `Shell` is the shell's reading of a script.
-/
import Crane.Lib.Base64
import Crane.Lib.Shell
import Mathlib.Logic.Function.Iterate

namespace Crane.Bootstrap.Scripts

open Shell

/-! ## The command -/

structure Gzip where
  compress : List UInt8 → List UInt8
  decompress : List UInt8 → Option (List UInt8)
  inverse : ∀ b, decompress (compress b) = some b

/-- strings.ReplaceAll of each quote by a quoted one, in quotes -/
def shellQuote (s : Text) : Text :=
  ['\''] ++ (s.flatMap fun c => if c = '\'' then ['\'', '"', '\'', '"', '\''] else [c]) ++ ['\'']

def scriptPath (name : Text) : Text := "/var/lib/crane/".toList ++ name ++ ".sh".toList

def encodedScript (z : Gzip) (script : List UInt8) : Text := Base64.encode (z.compress script)

def body (z : Gzip) (name : Text) (script : List UInt8) : Text :=
  "set -eu\numask 077\nprintf %s ".toList ++ shellQuote (encodedScript z script) ++
    " | base64 -d | gzip -d > ".toList ++ shellQuote (scriptPath name) ++
    "\nbash ".toList ++ shellQuote (scriptPath name)

def command (z : Gzip) (name : Text) (script : List UInt8) : Text :=
  "set -eu\ncloud-init status --wait >/dev/null\ninstall -d -m 0755 /var/lib/crane\n".toList ++
    "flock -w 3500 /var/lib/crane-bootstrap.lock bash -c ".toList ++ shellQuote (body z name script)

/-- the command that is sent, unless it is too long -/
def runScript (z : Gzip) (name : Text) (script : List UInt8) : Option Text :=
  if 23000 < (command z name script).length then none else some (command z name script)

/-! ## What it is for -/

inductive Stream where
  | text (t : Text)
  | data (b : List UInt8)
deriving DecidableEq, Repr

/-- the three programs of the pipeline that stores a script -/
def stage (z : Gzip) (input : Stream) (c : Command) : Option Stream :=
  match c.args, input with
  | [a, b, t], _ => if a = "printf".toList ∧ b = "%s".toList then some (.text t) else none
  | [a, b], .text t => if a = "base64".toList ∧ b = "-d".toList then (Base64.decode t).map .data else none
  | [a, b], .data d => if a = "gzip".toList ∧ b = "-d".toList then (z.decompress d).map .data else none
  | _, _ => none

/-- the file that a pipeline writes, and its content -/
def writes (z : Gzip) (pipeline : List Command) : Option (Text × List UInt8) := do
  let out ← pipeline.foldlM (stage z) (.text [])
  let file ← pipeline.getLast?.bind Command.out
  match out with
  | .data b => some (file, b)
  | .text _ => none

/-- decodes a script into its file -/
def unpack (z : Gzip) (name : Text) (script : List UInt8) : List Command :=
  [⟨["printf".toList, "%s".toList, encodedScript z script], none⟩, ⟨["base64".toList, "-d".toList], none⟩,
    ⟨["gzip".toList, "-d".toList], some (scriptPath name)⟩]

/-- what the shell that gets the command, and the one that gets the body, make of them -/
structure Arrives (z : Gzip) (name : Text) (script : List UInt8) (sent : Text) : Prop where
  outer : commands sent = some [[⟨["set".toList, "-eu".toList], none⟩],
    [⟨["cloud-init".toList, "status".toList, "--wait".toList], some "/dev/null".toList⟩],
    [⟨["install".toList, "-d".toList, "-m".toList, "0755".toList, "/var/lib/crane".toList], none⟩],
    [⟨["flock".toList, "-w".toList, "3500".toList, "/var/lib/crane-bootstrap.lock".toList, "bash".toList, "-c".toList,
      body z name script], none⟩]]
  inner : commands (body z name script) = some [[⟨["set".toList, "-eu".toList], none⟩],
    [⟨["umask".toList, "077".toList], none⟩], unpack z name script,
    [⟨["bash".toList, scriptPath name], none⟩]]
  stored : writes z (unpack z name script) = some (scriptPath name, script)

/-- the one word of a text -/
def unquote (t : Text) : Option Text :=
  match tokens t with
  | some [.word w] => literal w
  | _ => none

def unquoteTimes : ℕ → Text → Option Text
  | 0, t => some t
  | n + 1, t => (unquote t).bind (unquoteTimes n)

/-! ## Quoted text -/

/-- the characters of a text, all of them quoted -/
def quoted (t : Text) : Word := t.map fun c => (c, true)

section Quoting
variable {s : Text}

/-- inside the quotes: a quote leaves them, comes in double quotes and enters them again -/
theorem read_inside (hs : '\x00' ∉ s) (ts : List Token) (w : Word) :
    Lexer.read ⟨.single, ts, .word w⟩ (s.flatMap fun c => if c = '\'' then ['\'', '"', '\'', '"', '\''] else [c]) =
      some ⟨.single, ts, .word (w ++ quoted s)⟩ := by
  induction s generalizing w with
  | nil => simp [Lexer.read, quoted]
  | cons c s ih =>
    have hc : c ≠ '\x00' := fun h => hs (by simp [h])
    have hrest : '\x00' ∉ s := fun h => hs (List.mem_cons_of_mem c h)
    rw [List.flatMap_cons, Lexer.read_append]
    have hone : Lexer.read ⟨.single, ts, .word w⟩ (if c = '\'' then ['\'', '"', '\'', '"', '\''] else [c]) =
        some ⟨.single, ts, .word (w ++ [(c, true)])⟩ := by
      by_cases hq : c = '\''
      · rw [if_pos hq, hq]
        rfl
      · rw [if_neg hq, Lexer.read_cons]
        simp [Lexer.step, hc, hq, Lexer.add, Lexer.read]
    rw [hone, Option.bind_some, ih hrest]
    simp [quoted]

/-- **A quoted text is one word.** Where a word can begin, the reader has read exactly the text after its quotes. -/
theorem read_shellQuote (hs : '\x00' ∉ s) (ts : List Token) :
    Lexer.read ⟨.plain, ts, .idle⟩ (shellQuote s) = some ⟨.plain, ts, .word (quoted s)⟩ := by
  have hopen : Lexer.read ⟨.plain, ts, .idle⟩ ['\''] = some ⟨.single, ts, .word []⟩ := by
    simp [Lexer.read, Lexer.step, Cur.extended, Lexer.plainChar, Lexer.openWord, Lexer.delimit, Cur.tokens]
  rw [shellQuote, Lexer.read_append, Lexer.read_append, hopen, Option.bind_some, read_inside hs, Option.bind_some]
  rfl

theorem tokens_shellQuote (hs : '\x00' ∉ s) : tokens (shellQuote s) = some [.word (quoted s)] := by
  have hread : Lexer.read {} (shellQuote s) = some ⟨.plain, [], .word (quoted s)⟩ := read_shellQuote hs []
  simp [tokens, hread, Lexer.delimit, Cur.tokens]

theorem unquote_shellQuote (hs : '\x00' ∉ s) : unquote (shellQuote s) = some s := by
  rw [unquote, tokens_shellQuote hs]
  exact literal_quoted s

theorem shellQuote_nul (hs : '\x00' ∉ s) : '\x00' ∉ shellQuote s := by
  simp only [shellQuote, List.mem_append, List.mem_flatMap, not_or, not_exists, not_and]
  refine ⟨⟨by decide, fun c hc hmem => ?_⟩, by decide⟩
  by_cases hq : c = '\''
  · rw [if_pos hq] at hmem
    exact absurd hmem (by decide)
  · rw [if_neg hq, List.mem_singleton] at hmem
    exact hs (hmem ▸ hc)

theorem unquoteTimes_shellQuote (hs : '\x00' ∉ s) (n : ℕ) : unquoteTimes n (shellQuote^[n] s) = some s := by
  have hnul : ∀ m, '\x00' ∉ shellQuote^[m] s := by
    intro m
    induction m with
    | zero => exact hs
    | succ m ih =>
      rw [Function.iterate_succ_apply']
      exact shellQuote_nul ih
  induction n with
  | zero => rfl
  | succ n ih =>
    rw [Function.iterate_succ_apply', unquoteTimes, unquote_shellQuote (hnul n)]
    exact ih

end Quoting

/-! ## Text around quoted text -/

/-- an unquoted text as a word -/
def bare (t : String) : Word := t.toList.map fun c => (c, false)

/-- a blank or a newline ends a word -/
theorem read_delimiter {c : Char} (hc : c = ' ' ∨ c = '\n') (ts : List Token) (w : Word) (text : Text) :
    Lexer.read ⟨.plain, ts, .word w⟩ (c :: text) =
      (Lexer.read {} (c :: text)).map (Lexer.after (ts ++ [.word w])) := by
  have hstep : Lexer.step ⟨.plain, ts, .word w⟩ c = (Lexer.step {} c).map (Lexer.after (ts ++ [.word w])) := by
    rcases hc with rfl | rfl
    · simp [Lexer.step, Cur.extended, Lexer.plainChar, operators, Lexer.delimit, Cur.tokens, Lexer.after]
    · simp [Lexer.step, Cur.extended, Lexer.plainChar, operators, Lexer.delimit, Cur.tokens, Lexer.after]
  rw [Lexer.read_cons, Lexer.read_cons, hstep]
  cases Lexer.step {} c with
  | none => rfl
  | some s' => exact Lexer.after_read _ s' text

/-- a text that ends where a word can begin, and a quoted one -/
theorem read_then_quoted {text s : Text} {ts : List Token} (h : Lexer.read {} text = some ⟨.plain, ts, .idle⟩)
    (hs : '\x00' ∉ s) : Lexer.read {} (text ++ shellQuote s) = some ⟨.plain, ts, .word (quoted s)⟩ := by
  rw [Lexer.read_append, h]
  exact read_shellQuote hs ts

/-- a text after a word that is ended by its first character -/
theorem read_after_word {text more : Text} {ts us : List Token} {w : Word}
    (h : Lexer.read {} text = some ⟨.plain, ts, .word w⟩) (hd : more.head? = some ' ' ∨ more.head? = some '\n')
    (hmore : Lexer.read {} more = some ⟨.plain, us, .idle⟩) :
    Lexer.read {} (text ++ more) = some ⟨.plain, ts ++ [.word w] ++ us, .idle⟩ := by
  cases more with
  | nil => simp at hd
  | cons c more =>
    simp only [List.head?_cons, Option.some.injEq] at hd
    rw [Lexer.read_append, h, Option.bind_some, read_delimiter hd, hmore]
    rfl

theorem encodedScript_nul (z : Gzip) (script : List UInt8) : '\x00' ∉ encodedScript z script := fun h =>
  Base64.forall_encode (P := fun c => c ≠ '\x00') (by decide) (by decide) _ _ h rfl

theorem nul_append {a b : Text} (ha : '\x00' ∉ a) (hb : '\x00' ∉ b) : '\x00' ∉ a ++ b := by
  rw [List.mem_append]
  exact not_or.mpr ⟨ha, hb⟩

theorem scriptPath_nul {name : Text} (h : '\x00' ∉ name) : '\x00' ∉ scriptPath name := by
  have hdir : '\x00' ∉ "/var/lib/crane/".toList := by decide
  have hend : '\x00' ∉ ".sh".toList := by decide
  exact nul_append (nul_append hdir h) hend

theorem body_nul {name : Text} (h : '\x00' ∉ name) (z : Gzip) (script : List UInt8) : '\x00' ∉ body z name script := by
  have hstart : '\x00' ∉ "set -eu\numask 077\nprintf %s ".toList := by decide
  have hpipe : '\x00' ∉ " | base64 -d | gzip -d > ".toList := by decide
  have hbash : '\x00' ∉ "\nbash ".toList := by decide
  have hscript := shellQuote_nul (encodedScript_nul z script)
  have hpath := shellQuote_nul (scriptPath_nul h)
  exact nul_append (nul_append (nul_append (nul_append (nul_append hstart hscript) hpipe) hpath) hbash) hpath

/-- the tokens of the body -/
def bodyTokens (script path : Text) : List Token :=
  [.word (bare "set"), .word (bare "-eu"), .operator ['\n'], .word (bare "umask"), .word (bare "077"), .operator ['\n'],
    .word (bare "printf"), .word (bare "%s"), .word (quoted script), .operator ['|'], .word (bare "base64"),
    .word (bare "-d"), .operator ['|'], .word (bare "gzip"), .word (bare "-d"), .operator ['>'], .word (quoted path),
    .operator ['\n'], .word (bare "bash"), .word (quoted path)]

theorem tokens_of_read {text : Text} {ts : List Token} {w : Word}
    (h : Lexer.read {} text = some ⟨.plain, ts, .word w⟩) : tokens text = some (ts ++ [.word w]) := by
  simp [tokens, h, Lexer.delimit, Cur.tokens]

theorem tokens_body {name : Text} (h : '\x00' ∉ name) (z : Gzip) (script : List UInt8) :
    tokens (body z name script) = some (bodyTokens (encodedScript z script) (scriptPath name)) := by
  have hstart : Lexer.read {} "set -eu\numask 077\nprintf %s ".toList = some ⟨.plain, [.word (bare "set"),
      .word (bare "-eu"), .operator ['\n'], .word (bare "umask"), .word (bare "077"), .operator ['\n'],
      .word (bare "printf"), .word (bare "%s")], .idle⟩ := rfl
  have hpipe : Lexer.read {} " | base64 -d | gzip -d > ".toList = some ⟨.plain, [.operator ['|'], .word (bare "base64"),
      .word (bare "-d"), .operator ['|'], .word (bare "gzip"), .word (bare "-d"), .operator ['>']], .idle⟩ := rfl
  have hbash : Lexer.read {} "\nbash ".toList = some ⟨.plain, [.operator ['\n'], .word (bare "bash")], .idle⟩ := rfl
  have hscript := read_then_quoted hstart (encodedScript_nul z script)
  have hpath := read_then_quoted (read_after_word hscript (.inl rfl) hpipe) (scriptPath_nul h)
  have hend := read_then_quoted (read_after_word hpath (.inr rfl) hbash) (scriptPath_nul h)
  exact tokens_of_read hend

/-- the tokens of the command -/
def commandTokens (text : Text) : List Token :=
  [.word (bare "set"), .word (bare "-eu"), .operator ['\n'], .word (bare "cloud-init"), .word (bare "status"),
    .word (bare "--wait"), .operator ['>'], .word (bare "/dev/null"), .operator ['\n'], .word (bare "install"),
    .word (bare "-d"), .word (bare "-m"), .word (bare "0755"), .word (bare "/var/lib/crane"), .operator ['\n'],
    .word (bare "flock"), .word (bare "-w"), .word (bare "3500"), .word (bare "/var/lib/crane-bootstrap.lock"),
    .word (bare "bash"), .word (bare "-c"), .word (quoted text)]

theorem tokens_command {name : Text} (h : '\x00' ∉ name) (z : Gzip) (script : List UInt8) :
    tokens (command z name script) = some (commandTokens (body z name script)) := by
  have hstart : Lexer.read {} ("set -eu\ncloud-init status --wait >/dev/null\ninstall -d -m 0755 /var/lib/crane\n".toList ++
      "flock -w 3500 /var/lib/crane-bootstrap.lock bash -c ".toList) =
      some ⟨.plain, (commandTokens []).dropLast, .idle⟩ := by decide +kernel
  exact tokens_of_read (read_then_quoted hstart (body_nul h z script))

theorem pipelines_body (script path : Text) : Parser.pipelines (bodyTokens script path) =
    some [[⟨[bare "set", bare "-eu"], none⟩], [⟨[bare "umask", bare "077"], none⟩],
      [⟨[bare "printf", bare "%s", quoted script], none⟩, ⟨[bare "base64", bare "-d"], none⟩,
        ⟨[bare "gzip", bare "-d"], some (quoted path)⟩], [⟨[bare "bash", quoted path], none⟩]] := rfl

theorem pipelines_command (text : Text) : Parser.pipelines (commandTokens text) =
    some [[⟨[bare "set", bare "-eu"], none⟩],
      [⟨[bare "cloud-init", bare "status", bare "--wait"], some (bare "/dev/null")⟩],
      [⟨[bare "install", bare "-d", bare "-m", bare "0755", bare "/var/lib/crane"], none⟩],
      [⟨[bare "flock", bare "-w", bare "3500", bare "/var/lib/crane-bootstrap.lock", bare "bash", bare "-c",
        quoted text], none⟩]] := rfl

/-! ## Arguments -/

/-- words that mean nothing to the shell though they are not quoted -/
def inertWords (bs : List String) : Bool := bs.all fun b => b.toList.all inert && !reserved (bare b)

theorem mapM_bare {bs : List String} (h : inertWords bs = true) :
    (bs.map bare).mapM literal = some (bs.map String.toList) := by
  induction bs with
  | nil => rfl
  | cons b bs ih =>
    simp only [inertWords, List.all_cons, Bool.and_eq_true] at h
    have hb : literal (bare b) = some b.toList := by
      have hall : (bare b).all (fun x => x.2 || inert x.1) = true := by
        simpa [bare, List.all_map, Function.comp_def] using h.1.1
      rw [literal, if_pos hall]
      simp [bare, Function.comp_def]
    rw [List.map_cons, List.mapM_cons, hb, ih h.2]
    rfl

theorem head_bare {bs : List String} (h : inertWords bs = true) : (bs.map bare).head?.any reserved = false := by
  cases bs with
  | nil => rfl
  | cons b bs =>
    simp only [inertWords, List.all_cons, Bool.and_eq_true, Bool.not_eq_true'] at h
    exact h.1.2

theorem command_eq {ws : List Word} {args : List Text} (hr : ws.head?.any reserved = false)
    (h : ws.mapM literal = some args) : Simple.command ⟨ws, none⟩ = some ⟨args, none⟩ := by
  simp [Simple.command, hr, h]

/-- a command of unquoted words -/
theorem command_bare (bs : List String) (h : inertWords bs = true) :
    Simple.command ⟨bs.map bare, none⟩ = some ⟨bs.map String.toList, none⟩ :=
  command_eq (head_bare h) (mapM_bare h)

/-- whose last word is quoted -/
theorem command_quoted (b : String) (bs : List String) (h : inertWords (b :: bs) = true) (t : Text) :
    Simple.command ⟨(b :: bs).map bare ++ [quoted t], none⟩ = some ⟨(b :: bs).map String.toList ++ [t], none⟩ := by
  refine command_eq (head_bare h) ?_
  rw [List.mapM_append, mapM_bare h, List.mapM_cons, quoted, literal_quoted]
  rfl

/-- whose output goes to a file -/
theorem command_output (bs : List String) (h : inertWords bs = true) {w : Word} {t : Text} (hw : literal w = some t) :
    Simple.command ⟨bs.map bare, some w⟩ = some ⟨bs.map String.toList, some t⟩ := by
  rw [Simple.command, head_bare h, mapM_bare h]
  simp [hw]

theorem commands_eq {text : Text} {ts : List Token} {ps : List (List Simple)} (ht : tokens text = some ts)
    (hp : Parser.pipelines ts = some ps) : commands text = ps.mapM fun p => p.mapM Simple.command := by
  simp [commands, ht, hp]

theorem mapM_nil_some {α β : Type} (f : α → Option β) : ([] : List α).mapM f = some [] := rfl

theorem mapM_cons_some {α β : Type} {f : α → Option β} {a : α} {b : β} {l : List α} {bs : List β} (ha : f a = some b)
    (hl : l.mapM f = some bs) : (a :: l).mapM f = some (b :: bs) := by
  simp [List.mapM_cons, ha, hl]

section Commands
variable {name : Text} {z : Gzip} {script : List UInt8}

theorem commands_body (h : '\x00' ∉ name) : commands (body z name script) =
    some [[⟨["set".toList, "-eu".toList], none⟩], [⟨["umask".toList, "077".toList], none⟩], unpack z name script,
      [⟨["bash".toList, scriptPath name], none⟩]] := by
  have hset := command_bare ["set", "-eu"] rfl
  have humask := command_bare ["umask", "077"] rfl
  have hprintf := command_quoted "printf" ["%s"] rfl (encodedScript z script)
  have hbase64 := command_bare ["base64", "-d"] rfl
  have hgzip := command_output ["gzip", "-d"] rfl (literal_quoted (scriptPath name))
  have hbash := command_quoted "bash" [] rfl (scriptPath name)
  rw [commands_eq (tokens_body h z script) (pipelines_body _ _)]
  have hunpack := mapM_cons_some hprintf (mapM_cons_some hbase64 (mapM_cons_some hgzip (mapM_nil_some _)))
  exact mapM_cons_some (mapM_cons_some hset (mapM_nil_some _)) (mapM_cons_some (mapM_cons_some humask (mapM_nil_some _))
    (mapM_cons_some hunpack (mapM_cons_some (mapM_cons_some hbash (mapM_nil_some _)) (mapM_nil_some _))))

theorem commands_command (h : '\x00' ∉ name) : commands (command z name script) =
    some [[⟨["set".toList, "-eu".toList], none⟩],
      [⟨["cloud-init".toList, "status".toList, "--wait".toList], some "/dev/null".toList⟩],
      [⟨["install".toList, "-d".toList, "-m".toList, "0755".toList, "/var/lib/crane".toList], none⟩],
      [⟨["flock".toList, "-w".toList, "3500".toList, "/var/lib/crane-bootstrap.lock".toList, "bash".toList, "-c".toList,
        body z name script], none⟩]] := by
  have hset := command_bare ["set", "-eu"] rfl
  have hwait := command_output ["cloud-init", "status", "--wait"] (w := bare "/dev/null") (t := "/dev/null".toList)
    rfl rfl
  have hinstall := command_bare ["install", "-d", "-m", "0755", "/var/lib/crane"] rfl
  have hflock := command_quoted "flock" ["-w", "3500", "/var/lib/crane-bootstrap.lock", "bash", "-c"]
    rfl (body z name script)
  rw [commands_eq (tokens_command h z script) (pipelines_command _)]
  exact mapM_cons_some (mapM_cons_some hset (mapM_nil_some _)) (mapM_cons_some (mapM_cons_some hwait (mapM_nil_some _))
    (mapM_cons_some (mapM_cons_some hinstall (mapM_nil_some _))
      (mapM_cons_some (mapM_cons_some hflock (mapM_nil_some _)) (mapM_nil_some _))))

theorem writes_unpack (z : Gzip) (name : Text) (script : List UInt8) :
    writes z (unpack z name script) = some (scriptPath name, script) := by
  have hdecode : Base64.decode (encodedScript z script) = some (z.compress script) := Base64.decode_encode _
  have hprintf : stage z (.text []) ⟨["printf".toList, "%s".toList, encodedScript z script], none⟩ =
      some (.text (encodedScript z script)) := by simp only [stage, and_self, if_true]
  have hbase64 : stage z (.text (encodedScript z script)) ⟨["base64".toList, "-d".toList], none⟩ =
      some (.data (z.compress script)) := by
    simp only [stage, and_self, if_true, hdecode, Option.map_some]
  have hgzip : stage z (.data (z.compress script)) ⟨["gzip".toList, "-d".toList], some (scriptPath name)⟩ =
      some (.data script) := by simp only [stage, and_self, if_true, z.inverse, Option.map_some]
  have hflow : (unpack z name script).foldlM (stage z) (.text []) = some (.data script) := by
    rw [unpack, List.foldlM_cons, hprintf, Option.bind_eq_bind, Option.bind_some, List.foldlM_cons, hbase64,
      Option.bind_eq_bind, Option.bind_some, List.foldlM_cons, hgzip]
    rfl
  rw [writes, hflow]
  rfl

end Commands

/-- **Scripts arrive unaltered.** A quoted text is one literal word, also when it is quoted again and again; and for every
script and every name for which a command is sent, the shell passes on the body as it is, the body's shell sees the
encoded script and the path as they are, and the file it writes holds the bytes of the script. -/
theorem scripts_unaltered (z : Gzip) :
    (∀ s : Text, '\x00' ∉ s → tokens (shellQuote s) = some [.word (quoted s)] ∧
      ∀ n, unquoteTimes n (shellQuote^[n] s) = some s) ∧
    ∀ (name : Text) (script : List UInt8) (sent : Text), '\x00' ∉ name → runScript z name script = some sent →
      Arrives z name script sent := by
  refine ⟨fun s hs => ⟨tokens_shellQuote hs, unquoteTimes_shellQuote hs⟩, fun name script sent hname hsent => ?_⟩
  simp only [runScript, Option.ite_none_left_eq_some, Option.some.injEq] at hsent
  obtain ⟨-, rfl⟩ := hsent
  exact ⟨commands_command hname, commands_body hname, writes_unpack z name script⟩

end Crane.Bootstrap.Scripts
