/-
Redaction of structured logs (`internal/logging/redact.go`): which names are sensitive, the traversal of attributes and of
arbitrary values, and handlers scoped by WithAttrs and WithGroup.

Values are the trees that package reflect sees; a cyclic value is its unrolling, of which the traversal looks at no more
than `maxRedactDepth` levels. LogValuers and errors stand as what they resolve to. `redactString`, the rewriting of free
text, is any function. A map is the list of its members in the order in which this run iterates over them.

The names of a map's members are the texts of its keys (`sprint`), and these are not redacted: what a key contains is
written out, also where the key is a struct with a sensitive field or an array of bytes.
-/
import Crane.Lib.Sequences
import Mathlib.Data.List.Infix

namespace Crane.Logging

open Sequences

/-! ## Sensitive names -/

def Redacted : String := "[REDACTED]"

def maxRedactDepth : ℕ := 12

def sensitiveKeySubstrings : List String :=
  ["password", "passwd", "pwd", "secret", "token", "credential", "authorization", "apikey", "accesskey", "secretkey",
    "privatekey", "dsn", "conn", "connection", "body", "rawbody", "cookie", "session"]

/-- unicode.ToLower as far as it gives ASCII characters: the Kelvin sign and the dotted capital I are the others -/
def toLower (c : Char) : Char := if c = '\u212a' then 'k' else if c = '\u0130' then 'i' else c.toLower

def isSensitiveKey (key : String) : Bool :=
  let normalized := (key.toList.map toLower).filter fun c => c ≠ '-' && c ≠ '_' && c ≠ ' ' && c ≠ '.'
  normalized ≠ [] && sensitiveKeySubstrings.any fun s => decide (s.toList <:+: normalized)

/-! ## Values -/

/-- a field of a struct type: its name, whether it is exported, and its json tag -/
structure StructField where
  name : String
  exported : Bool := true
  json : Option String := none
deriving DecidableEq, Repr

/-- the tag up to its first comma -/
def tagName (tag : String) : String := String.ofList (tag.toList.takeWhile (· ≠ ','))

/-- the name under which a field is written; none if it is left out -/
def StructField.outName (f : StructField) : Option String :=
  if f.exported then
    match f.json.map tagName with
    | none => some f.name
    | some "-" => none
    | some "" => some f.name
    | some name => some name
  else none

/-- a field with a sensitive Go name or JSON name -/
def StructField.sensitive (f : StructField) : Bool :=
  isSensitiveKey f.name || (f.json.map tagName).any isSensitiveKey

inductive Val where
  | invalid
  | nilPtr
  | ptr (address : String) (target : Val)
  | nilInterface
  | interface (value : Val)
  | string (s : String)
  | bool (b : Bool)
  | int (n : ℤ)
  | uint (n : ℕ)
  | float (text : String)
  | bytes (l : List ℕ) -- a slice or array whose elements are bytes
  | list (l : List Val) -- any other slice or array
  | nilMap
  | map (members : List (Val × Val))
  | struct (fields : List (StructField × Val))
  | time (t : ℤ)
  | other (text : String) -- channels, functions, complex numbers

/-- separated by blanks, as fmt does -/
def joined (l : List String) : String := " ".intercalate l

mutual
/-- fmt.Sprint of a map key inside another value -/
def sprintInner : Val → String
  | .invalid => "<invalid reflect.Value>"
  | .nilPtr | .nilInterface => "<nil>"
  | .ptr address _ => address
  | .interface v => sprintInner v
  | .string s => s
  | .bool b => toString b
  | .int n => toString n
  | .uint n => toString n
  | .float text => text
  | .bytes l => "[" ++ joined (l.map toString) ++ "]"
  | .list l => "[" ++ joined (sprintList l) ++ "]"
  | .nilMap | .map _ => "map[]" -- not comparable, so no part of a key
  | .struct fields => "\x7b" ++ joined (sprintFields fields) ++ "\x7d"
  | .time t => toString t
  | .other text => text

def sprintList : List Val → List String
  | [] => []
  | v :: l => sprintInner v :: sprintList l

def sprintFields : List (StructField × Val) → List String
  | [] => []
  | (_, v) :: l => sprintInner v :: sprintFields l
end

/-- fmt.Sprint of a map key: a pointer to a struct or an array is followed -/
def sprint : Val → String
  | .ptr _ (.bytes l) => "&" ++ sprintInner (.bytes l)
  | .ptr _ (.list l) => "&" ++ sprintInner (.list l)
  | .ptr _ (.struct fields) => "&" ++ sprintInner (.struct fields)
  | v => sprintInner v

/-! ## Redaction of values -/

/-- what is handed on: maps have texts as keys -/
inductive Out where
  | nil
  | str (s : String)
  | bool (b : Bool)
  | int (n : ℤ)
  | uint (n : ℕ)
  | float (text : String)
  | list (l : List Out)
  | map (members : List (String × Out))
  | time (t : ℤ)

/-- nothing below the depth limit is looked at -/
def cut (depth : ℕ) (o : Out) : Out := if maxRedactDepth < depth then .str Redacted else o

section Reflect
variable (redactString : String → String)

mutual
def redactReflect (depth : ℕ) : Val → Out
  | .invalid => .str Redacted
  | .nilPtr | .nilInterface => cut depth .nil
  | .ptr _ v => cut depth (redactReflect (depth + 1) v)
  | .interface v => cut depth (redactReflect (depth + 1) v)
  | .string s => cut depth (.str (redactString s))
  | .bool b => cut depth (.bool b)
  | .int n => cut depth (.int n)
  | .uint n => cut depth (.uint n)
  | .float text => cut depth (.float text)
  | .bytes _ => .str Redacted
  | .list l => cut depth (.list (redactList (depth + 1) l))
  | .nilMap => cut depth .nil
  | .map members => cut depth (.map (collect (redactMembers (depth + 1) members)))
  | .struct fields => cut depth (.map (collect (redactFields (depth + 1) fields)))
  | .time t => cut depth (.time t)
  | .other _ => .str Redacted

def redactList (depth : ℕ) : List Val → List Out
  | [] => []
  | v :: l => redactReflect depth v :: redactList depth l

def redactMembers (depth : ℕ) : List (Val × Val) → List (String × Out)
  | [] => []
  | (k, v) :: l =>
    (sprint k, if isSensitiveKey (sprint k) then .str Redacted else redactReflect depth v) :: redactMembers depth l

def redactFields (depth : ℕ) : List (StructField × Val) → List (String × Out)
  | [] => []
  | (f, v) :: l => match f.outName with
    | none => redactFields depth l
    | some name => (name, if isSensitiveKey name || isSensitiveKey f.name then .str Redacted else redactReflect depth v) ::
        redactFields depth l
end

end Reflect

/-! ## Agreement -/

mutual
/-- the two differ only in what must not be seen -/
inductive Agree : Val → Val → Prop where
  | same (v : Val) : Agree v v
  | ptr {address : String} {v v' : Val} : Agree v v' → Agree (.ptr address v) (.ptr address v')
  | interface {v v' : Val} : Agree v v' → Agree (.interface v) (.interface v')
  | bytes (l l' : List ℕ) : Agree (.bytes l) (.bytes l')
  | list {l l' : List Val} : AgreeList l l' → Agree (.list l) (.list l')
  | map {m m' n : List (Val × Val)} : AgreeMembers m n → n.Perm m' → Agree (.map m) (.map m')
  | struct {l l' : List (StructField × Val)} : AgreeFields l l' → Agree (.struct l) (.struct l')

inductive AgreeList : List Val → List Val → Prop where
  | nil : AgreeList [] []
  | cons {v v' : Val} {l l' : List Val} : Agree v v' → AgreeList l l' → AgreeList (v :: l) (v' :: l')

inductive AgreeMembers : List (Val × Val) → List (Val × Val) → Prop where
  | nil : AgreeMembers [] []
  | cons {k k' v v' : Val} {l l' : List (Val × Val)} : Agree k k' → Agree v v' → AgreeMembers l l' →
      AgreeMembers ((k, v) :: l) ((k', v') :: l')
  | sensitive {k k' : Val} (v v' : Val) {l l' : List (Val × Val)} : Agree k k' → isSensitiveKey (sprint k) = true →
      isSensitiveKey (sprint k') = true → AgreeMembers l l' → AgreeMembers ((k, v) :: l) ((k', v') :: l')

inductive AgreeFields : List (StructField × Val) → List (StructField × Val) → Prop where
  | nil : AgreeFields [] []
  | cons {f : StructField} {v v' : Val} {l l' : List (StructField × Val)} : Agree v v' → AgreeFields l l' →
      AgreeFields ((f, v) :: l) ((f, v') :: l')
  | sensitive {f : StructField} (v v' : Val) {l l' : List (StructField × Val)} : f.sensitive = true → AgreeFields l l' →
      AgreeFields ((f, v) :: l) ((f, v') :: l')
end

/-! ## Maps whose keys hide nothing -/

mutual
/-- no part of the key is one that must not be seen -/
def plainKey : Val → Bool
  | .ptr _ v => plainKey v
  | .interface v => plainKey v
  | .bytes _ => false
  | .list l => plainKeys l
  | .map _ => false
  | .struct fields => plainKeyFields fields
  | .invalid | .nilPtr | .nilInterface | .string _ | .bool _ | .int _ | .uint _ | .float _ | .nilMap | .time _ | .other _ =>
    true

def plainKeys : List Val → Bool
  | [] => true
  | v :: l => plainKey v && plainKeys l

def plainKeyFields : List (StructField × Val) → Bool
  | [] => true
  | (f, v) :: l => !f.sensitive && plainKey v && plainKeyFields l
end

mutual
/-- every map in the value has such keys, with different texts -/
def clean : Val → Bool
  | .ptr _ v => clean v
  | .interface v => clean v
  | .list l => cleanList l
  | .map members => decide (members.map fun m => sprint m.1).Nodup && cleanMembers members
  | .struct fields => cleanFields fields
  | .invalid | .nilPtr | .nilInterface | .string _ | .bool _ | .int _ | .uint _ | .float _ | .bytes _ | .nilMap | .time _ |
    .other _ => true

def cleanList : List Val → Bool
  | [] => true
  | v :: l => clean v && cleanList l

def cleanMembers : List (Val × Val) → Bool
  | [] => true
  | (k, v) :: l => plainKey k && (isSensitiveKey (sprint k) || clean v) && cleanMembers l

def cleanFields : List (StructField × Val) → Bool
  | [] => true
  | (f, v) :: l => (f.sensitive || clean v) && cleanFields l
end

mutual
theorem Agree.eq_of_plainKey : ∀ {v v' : Val}, Agree v v' → plainKey v = true → v = v'
  | _, _, .same _, _ => rfl
  | _, _, .ptr h, hp => by rw [h.eq_of_plainKey (by simpa [plainKey] using hp)]
  | _, _, .interface h, hp => by rw [h.eq_of_plainKey (by simpa [plainKey] using hp)]
  | _, _, .bytes _ _, hp => by simp [plainKey] at hp
  | _, _, .list h, hp => by rw [h.eq_of_plainKeys (by simpa [plainKey] using hp)]
  | _, _, .map _ _, hp => by simp [plainKey] at hp
  | _, _, .struct h, hp => by rw [h.eq_of_plainKeyFields (by simpa [plainKey] using hp)]

theorem AgreeList.eq_of_plainKeys : ∀ {l l' : List Val}, AgreeList l l' → plainKeys l = true → l = l'
  | _, _, .nil, _ => rfl
  | _, _, .cons h hl, hp => by
    simp only [plainKeys, Bool.and_eq_true] at hp
    rw [h.eq_of_plainKey hp.1, hl.eq_of_plainKeys hp.2]

theorem AgreeFields.eq_of_plainKeyFields : ∀ {l l' : List (StructField × Val)}, AgreeFields l l' →
    plainKeyFields l = true → l = l'
  | _, _, .nil, _ => rfl
  | _, _, .cons h hl, hp => by
    simp only [plainKeyFields, Bool.and_eq_true] at hp
    rw [h.eq_of_plainKey hp.1.2, hl.eq_of_plainKeyFields hp.2]
  | _, _, .sensitive _ _ hs _, hp => by simp [plainKeyFields, hs] at hp
end

/-! ## Agreeing values are redacted alike -/

section Values
variable (r : String → String)

theorem redactMembers_names (depth : ℕ) (m : List (Val × Val)) :
    (redactMembers r depth m).map Prod.fst = m.map fun e => sprint e.1 := by
  induction m with
  | nil => simp [redactMembers]
  | cons e m ih => simp [redactMembers, ih]

theorem redactMembers_perm (depth : ℕ) {m m' : List (Val × Val)} (h : m.Perm m') :
    (redactMembers r depth m).Perm (redactMembers r depth m') := by
  have hmap : ∀ m : List (Val × Val), redactMembers r depth m = m.map fun e =>
      (sprint e.1, if isSensitiveKey (sprint e.1) then .str Redacted else redactReflect r depth e.2) := fun m => by
    induction m with
    | nil => simp [redactMembers]
    | cons e m ih => simp [redactMembers, ih]
  rw [hmap, hmap]
  exact h.map _

omit r in
/-- a sensitive field that is written is redacted -/
theorem StructField.sensitive_of_out {f : StructField} {name : String} (hn : f.outName = some name)
    (hs : f.sensitive = true) : (isSensitiveKey name || isSensitiveKey f.name) = true := by
  have hempty : isSensitiveKey "" = false := by decide
  unfold StructField.outName at hn
  unfold StructField.sensitive at hs
  split_ifs at hn
  cases ht : f.json.map tagName with
  | none =>
    rw [ht] at hn hs
    obtain rfl := Option.some.inj hn
    simpa using hs
  | some tag =>
    rw [ht] at hn hs
    split at hn
    · simp_all
    · cases hn
    · simp_all
    · simp_all [Bool.or_comm]

mutual
theorem Agree.redacted : ∀ {v v' : Val}, Agree v v' → clean v = true → ∀ depth,
    redactReflect r depth v = redactReflect r depth v'
  | _, _, .same _, _, _ => rfl
  | _, _, .ptr h, hc, depth => by
    simp only [redactReflect, h.redacted (by simpa [clean] using hc)]
  | _, _, .interface h, hc, depth => by
    simp only [redactReflect, h.redacted (by simpa [clean] using hc)]
  | _, _, .bytes _ _, _, _ => by simp only [redactReflect]
  | _, _, .list h, hc, depth => by
    simp only [redactReflect, h.redacted (by simpa [clean] using hc)]
  | _, _, .map h hperm, hc, depth => by
    simp only [clean, Bool.and_eq_true, decide_eq_true_eq] at hc
    have hmembers := h.redacted hc.2 (depth + 1)
    have hnames : ((redactMembers r (depth + 1) _).map Prod.fst).Nodup := (redactMembers_names r (depth + 1) _).symm ▸ hc.1
    rw [redactReflect, redactReflect, collect_perm (hmembers ▸ redactMembers_perm r (depth + 1) hperm) hnames]
  | _, _, .struct h, hc, depth => by
    simp only [redactReflect, h.redacted (by simpa [clean] using hc)]

theorem AgreeList.redacted : ∀ {l l' : List Val}, AgreeList l l' → cleanList l = true → ∀ depth,
    redactList r depth l = redactList r depth l'
  | _, _, .nil, _, _ => rfl
  | _, _, .cons h hl, hc, depth => by
    simp only [cleanList, Bool.and_eq_true] at hc
    simp only [redactList, h.redacted hc.1, hl.redacted hc.2]

theorem AgreeMembers.redacted : ∀ {m m' : List (Val × Val)}, AgreeMembers m m' → cleanMembers m = true → ∀ depth,
    redactMembers r depth m = redactMembers r depth m'
  | _, _, .nil, _, _ => rfl
  | _, _, .cons hk hv hl, hc, depth => by
    simp only [cleanMembers, Bool.and_eq_true, Bool.or_eq_true] at hc
    have hkey := hk.eq_of_plainKey hc.1.1
    simp only [redactMembers, hkey, hl.redacted hc.2]
    split_ifs with hs
    · rfl
    · rw [hv.redacted (hc.1.2.resolve_left (hkey ▸ hs))]
  | _, _, .sensitive v v' hk hs hs' hl, hc, depth => by
    simp only [cleanMembers, Bool.and_eq_true] at hc
    simp only [redactMembers, hs', if_true, hk.eq_of_plainKey hc.1.1, hl.redacted hc.2]

theorem AgreeFields.redacted : ∀ {l l' : List (StructField × Val)}, AgreeFields l l' → cleanFields l = true → ∀ depth,
    redactFields r depth l = redactFields r depth l'
  | _, _, .nil, _, _ => rfl
  | _, _, .cons (f := f) hv hl, hc, depth => by
    simp only [cleanFields, Bool.and_eq_true, Bool.or_eq_true] at hc
    simp only [redactFields, hl.redacted hc.2]
    split
    · rfl
    next name hn =>
      split_ifs with hs
      · rfl
      · rw [hv.redacted (hc.1.resolve_left fun hf => hs (StructField.sensitive_of_out hn hf))]
  | _, _, .sensitive v v' hs hl, hc, depth => by
    simp only [cleanFields, Bool.and_eq_true] at hc
    simp only [redactFields, hl.redacted hc.2]
    split
    · rfl
    next name hn => rw [if_pos (StructField.sensitive_of_out hn hs), if_pos (StructField.sensitive_of_out hn hs)]
end

end Values

/-! ## Attributes -/

/-- values of the kinds that are passed on as they are: bool, int64, uint64, float64, duration and time -/
inductive Scalar where
  | bool (b : Bool)
  | int64 (n : ℤ)
  | uint64 (n : ℕ)
  | float64 (text : String)
  | duration (n : ℤ)
  | time (t : ℤ)
deriving DecidableEq, Repr

/-- a resolved slog.Value; the last four are of kind any -/
inductive Value where
  | string (s : String)
  | group (attrs : List (String × Value))
  | scalar (s : Scalar)
  | nil
  | error (text : String)
  | bytes (l : List ℕ)
  | any (v : Val)

inductive OutValue where
  | string (s : String)
  | group (attrs : List (String × OutValue))
  | scalar (s : Scalar)
  | any (o : Out)

/-- GroupValue and AddAttrs leave out empty groups -/
def nonEmptyGroup (a : String × OutValue) : Bool :=
  match a.2 with
  | .group [] => false
  | _ => true

section Attributes
variable (redactString : String → String)

/-- the value, unless the handler is in a sensitive group or the key is sensitive -/
def hidden (suppress : Bool) (key : String) (v : OutValue) : String × OutValue :=
  (key, if suppress || isSensitiveKey key then .string Redacted else v)

mutual
def redactAttr (suppress : Bool) (key : String) : Value → String × OutValue
  | .string s => hidden suppress key (.string (redactString s))
  | .group attrs => hidden suppress key (.group ((redactAttrs suppress attrs).filter nonEmptyGroup))
  | .scalar s => hidden suppress key (.scalar s)
  -- the zero attribute is passed on
  | .nil => if key = "" then (key, .any .nil) else hidden suppress key (.any .nil)
  | .error text => hidden suppress key (.string (redactString text))
  | .bytes _ => hidden suppress key (.string Redacted)
  | .any v => hidden suppress key (.any (redactReflect redactString 0 v))

def redactAttrs (suppress : Bool) : List (String × Value) → List (String × OutValue)
  | [] => []
  | (key, v) :: attrs => redactAttr suppress key v :: redactAttrs suppress attrs
end

end Attributes

/-! ## Handlers -/

/-- the calls that set up a handler -/
inductive Scope where
  | withAttrs (attrs : List (String × Value))
  | withGroup (name : String)

/-- the same calls of the inner handler -/
inductive InnerScope where
  | withAttrs (attrs : List (String × OutValue))
  | withGroup (name : String)

structure Record where
  time : ℤ
  level : ℤ
  message : String
  pc : ℕ
  attrs : List (String × Value)

structure OutRecord where
  time : ℤ
  level : ℤ
  message : String
  pc : ℕ
  attrs : List (String × OutValue)

/-- the inner handler is the calls that made it -/
structure Handler where
  inner : List InnerScope := []
  suppress : Bool := false

section Handlers
variable (redactString : String → String)

def Handler.withAttrs (h : Handler) (attrs : List (String × Value)) : Handler :=
  { h with inner := .withAttrs (attrs.map fun a =>
      if h.suppress then (a.1, .string Redacted) else redactAttr redactString h.suppress a.1 a.2) :: h.inner }

def Handler.withGroup (h : Handler) (name : String) : Handler :=
  ⟨.withGroup name :: h.inner, h.suppress || isSensitiveKey name⟩

def Handler.scope (h : Handler) : Scope → Handler
  | .withAttrs attrs => h.withAttrs redactString attrs
  | .withGroup name => h.withGroup name

/-- the inner handler and the record it is given -/
def Handler.handle (h : Handler) (record : Record) : List InnerScope × OutRecord :=
  (h.inner, ⟨record.time, record.level, redactString record.message, record.pc,
    (redactAttrs redactString h.suppress record.attrs).filter nonEmptyGroup⟩)

/-- a record logged through a chain of scopes -/
def passed (scopes : List Scope) (record : Record) : List InnerScope × OutRecord :=
  (scopes.foldl (Handler.scope redactString) {}).handle redactString record

end Handlers

/-! ## Agreeing records are passed on alike -/

mutual
inductive AgreeValue : Value → Value → Prop where
  | same (v : Value) : AgreeValue v v
  | group {l l' : List (String × Value)} : AgreeAttrs l l' → AgreeValue (.group l) (.group l')
  | bytes (l l' : List ℕ) : AgreeValue (.bytes l) (.bytes l')
  | any {v v' : Val} : Agree v v' → AgreeValue (.any v) (.any v')

inductive AgreeAttrs : List (String × Value) → List (String × Value) → Prop where
  | nil : AgreeAttrs [] []
  | cons {key : String} {v v' : Value} {l l' : List (String × Value)} : AgreeValue v v' → AgreeAttrs l l' →
      AgreeAttrs ((key, v) :: l) ((key, v') :: l')
  | sensitive {key : String} (v v' : Value) {l l' : List (String × Value)} : isSensitiveKey key = true → AgreeAttrs l l' →
      AgreeAttrs ((key, v) :: l) ((key, v') :: l')
end

/-- in a sensitive group all values may differ -/
def AgreeIn (suppress : Bool) (l l' : List (String × Value)) : Prop :=
  if suppress then l.map Prod.fst = l'.map Prod.fst else AgreeAttrs l l'

def AgreeScopes : Bool → List Scope → List Scope → Prop
  | _, [], [] => True
  | suppress, .withAttrs l :: rest, .withAttrs l' :: rest' => AgreeIn suppress l l' ∧ AgreeScopes suppress rest rest'
  | suppress, .withGroup name :: rest, .withGroup name' :: rest' =>
    name = name' ∧ AgreeScopes (suppress || isSensitiveKey name) rest rest'
  | _, _, _ => False

/-- whether a record logged through these scopes is in a sensitive group -/
def suppressed (scopes : List Scope) : Bool :=
  scopes.any fun
    | .withAttrs _ => false
    | .withGroup name => isSensitiveKey name

/-- two logged records that differ only in what must not be seen -/
structure Alike (scopes scopes' : List Scope) (record record' : Record) : Prop where
  chain : AgreeScopes false scopes scopes'
  time : record.time = record'.time
  level : record.level = record'.level
  message : record.message = record'.message
  pc : record.pc = record'.pc
  attrs : AgreeIn (suppressed scopes) record.attrs record'.attrs

mutual
def cleanValue : Value → Bool
  | .group attrs => cleanAttrs attrs
  | .any v => clean v
  | .string _ | .scalar _ | .nil | .error _ | .bytes _ => true

def cleanAttrs : List (String × Value) → Bool
  | [] => true
  | (key, v) :: attrs => (isSensitiveKey key || cleanValue v) && cleanAttrs attrs
end

/-- not the zero attribute -/
def nonZero (a : String × Value) : Bool :=
  match a.2 with
  | .nil => a.1 ≠ ""
  | _ => true

def cleanScopes : Bool → List Scope → Bool
  | _, [] => true
  | suppress, .withAttrs attrs :: rest => (suppress || cleanAttrs attrs) && cleanScopes suppress rest
  | suppress, .withGroup name :: rest => cleanScopes (suppress || isSensitiveKey name) rest

/-- keys of maps hide nothing, and there is no zero attribute in a sensitive group -/
def cleanInput (scopes : List Scope) (record : Record) : Bool :=
  cleanScopes false scopes && if suppressed scopes then record.attrs.all nonZero else cleanAttrs record.attrs

section Records
variable (r : String → String)

theorem redactAttr_sensitive {key : String} (h : isSensitiveKey key = true) (suppress : Bool) (v : Value) :
    redactAttr r suppress key v = (key, .string Redacted) := by
  have hkey : key ≠ "" := by
    rintro rfl
    exact absurd h (by decide)
  cases v <;> simp [redactAttr, hidden, h, hkey]

theorem redactAttr_suppressed {a : String × Value} (h : nonZero a = true) :
    redactAttr r true a.1 a.2 = (a.1, .string Redacted) := by
  obtain ⟨key, v⟩ := a
  cases v <;> simp_all [redactAttr, hidden, nonZero]

mutual
theorem AgreeValue.redacted : ∀ {v v' : Value}, AgreeValue v v' → cleanValue v = true → ∀ key,
    redactAttr r false key v = redactAttr r false key v'
  | _, _, .same _, _, _ => rfl
  | _, _, .group h, hc, key => by simp only [redactAttr, h.redacted (by simpa [cleanValue] using hc)]
  | _, _, .bytes _ _, _, key => by simp only [redactAttr]
  | _, _, .any h, hc, key => by simp only [redactAttr, h.redacted r (by simpa [cleanValue] using hc)]

theorem AgreeAttrs.redacted : ∀ {l l' : List (String × Value)}, AgreeAttrs l l' → cleanAttrs l = true →
    redactAttrs r false l = redactAttrs r false l'
  | _, _, .nil, _ => rfl
  | _, _, @AgreeAttrs.cons key _ _ _ _ h hl, hc => by
    simp only [cleanAttrs, Bool.and_eq_true, Bool.or_eq_true] at hc
    simp only [redactAttrs, hl.redacted hc.2]
    cases hs : isSensitiveKey key with
    | true => rw [redactAttr_sensitive r hs, redactAttr_sensitive r hs]
    | false => rw [h.redacted (hc.1.resolve_left (by simp [hs]))]
  | _, _, .sensitive v v' hs hl, hc => by
    simp only [cleanAttrs, Bool.and_eq_true] at hc
    simp only [redactAttrs, hl.redacted hc.2, redactAttr_sensitive r hs]
end

theorem redactAttrs_map (suppress : Bool) (l : List (String × Value)) :
    redactAttrs r suppress l = l.map fun a => redactAttr r suppress a.1 a.2 := by
  induction l with
  | nil => simp [redactAttrs]
  | cons a l ih => simp [redactAttrs, ih]

/-- in a sensitive group only the keys are seen -/
theorem redactAttrs_suppressed {l : List (String × Value)} (h : l.all nonZero = true) :
    redactAttrs r true l = (l.map Prod.fst).map fun key => (key, .string Redacted) := by
  rw [redactAttrs_map, List.map_map]
  exact List.map_congr_left fun a ha => redactAttr_suppressed r (List.all_eq_true.mp h a ha)

theorem withAttrs_eq {h : Handler} {l l' : List (String × Value)} (ha : AgreeIn h.suppress l l')
    (hc : (h.suppress || cleanAttrs l) = true) : h.withAttrs r l = h.withAttrs r l' := by
  unfold Handler.withAttrs
  cases hs : h.suppress with
  | true =>
    rw [hs] at ha
    have hkeys : ∀ l : List (String × Value), (l.map fun a => (a.1, OutValue.string Redacted)) =
        (l.map Prod.fst).map fun key => (key, .string Redacted) := fun l => by rw [List.map_map]; rfl
    simp only [if_true, hkeys, show l.map Prod.fst = l'.map Prod.fst from ha]
  | false =>
    rw [hs] at ha hc
    have hattrs := AgreeAttrs.redacted r (show AgreeAttrs l l' from ha) (by simpa using hc)
    rw [redactAttrs_map, redactAttrs_map] at hattrs
    simp only [Bool.false_eq_true, if_false, hattrs]

theorem scope_suppress (h : Handler) (scopes : List Scope) :
    (scopes.foldl (Handler.scope r) h).suppress = (h.suppress || suppressed scopes) := by
  induction scopes generalizing h with
  | nil => simp [suppressed]
  | cons a scopes ih =>
    rw [List.foldl_cons, ih]
    cases a <;> simp [Handler.scope, Handler.withAttrs, Handler.withGroup, suppressed, Bool.or_assoc]

/-- agreeing chains make the same handler: each call does, and the rest of the chain by induction -/
theorem scopes_eq {scopes scopes' : List Scope} (h : Handler) (ha : AgreeScopes h.suppress scopes scopes')
    (hc : cleanScopes h.suppress scopes = true) :
    scopes.foldl (Handler.scope r) h = scopes'.foldl (Handler.scope r) h := by
  induction scopes generalizing h scopes' with
  | nil =>
    cases scopes' with
    | nil => rfl
    | cons b rest' => exact ha.elim
  | cons a rest ih =>
    cases a with
    | withAttrs l =>
      match scopes', ha with
      | .withAttrs l' :: rest', ha =>
        simp only [cleanScopes, Bool.and_eq_true] at hc
        simp only [List.foldl_cons, Handler.scope, withAttrs_eq r ha.1 hc.1]
        exact ih (h.withAttrs r l') ha.2 hc.2
    | withGroup name =>
      match scopes', ha with
      | .withGroup name' :: rest', ha =>
        obtain ⟨rfl, ha⟩ := ha
        exact ih (h.withGroup name) ha (by rwa [cleanScopes] at hc)

end Records

namespace Sample

def log (attrs : List (String × Value)) : Record := ⟨0, 0, "connected", 0, attrs⟩

/-- a map from login data to whether they are valid -/
def logins (password : String) : Value :=
  .any (.map [(.struct [(⟨"User", true, none⟩, .string "bob"), (⟨"Password", true, none⟩, .string password)], .bool true)])

theorem logins_alike (p p' : String) : Alike [] [] (log [("logins", logins p)]) (log [("logins", logins p')]) where
  chain := trivial
  time := rfl
  level := rfl
  message := rfl
  pc := rfl
  attrs := .cons (.any (.map (.cons (.struct (.cons (.same _) (.sensitive _ _ (by decide) .nil))) (.same _) .nil)
    (.refl _))) .nil

/-- the names of the members of a map -/
def names : OutValue → List String
  | .any (.map members) => members.map Prod.fst
  | _ => []

/-- a sensitive key, a tagged field, a nested map and bytes -/
def request (password tagged token : String) (body : List ℕ) : List (String × Value) :=
  [("password", .string password), ("request", .group [("raw", .bytes body), ("config", .any (.struct
    [(⟨"Password", true, some "value"⟩, .string tagged), (⟨"Options", true, none⟩,
      .ptr "0xc000" (.map [(.string "api_token", .string token), (.string "zone", .string "z1")]))]))])]

theorem request_alike : Alike [.withGroup "http", .withAttrs (request "a" "b" "c" [1])]
    [.withGroup "http", .withAttrs (request "x" "y" "z" [])] (log (request "a" "b" "c" [1])) (log (request "x" "y" "z" [])) := by
  have hattrs : AgreeAttrs (request "a" "b" "c" [1]) (request "x" "y" "z" []) :=
    .sensitive _ _ (by decide) (.cons (.group (.cons (.bytes _ _) (.cons (.any (.struct (.sensitive _ _ (by decide)
      (.cons (.ptr (.map (.sensitive _ _ (.same _) (by decide) (by decide) (.cons (.same _) (.same _) .nil))
        (.refl _))) .nil)))) .nil))) .nil)
  exact ⟨⟨rfl, hattrs, trivial⟩, rfl, rfl, rfl, rfl, hattrs⟩

end Sample

end Crane.Logging
