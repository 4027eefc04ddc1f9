/-
Database transactions as programs.

A transaction is a tree of SQL statements. Each statement sees one database state, takes row locks, stores row versions
and chooses the rest of the transaction from what it saw; a transaction may also make one-argument calls to the outside
while it stays open, and it ends by committing a result or by failing with an error. A failed transaction stores nothing.

`run` is the meaning of a transaction that nothing interrupts. The same program is executed statement by statement,
between other transactions, in `Crane.Lib.Interleave`.
-/
import Mathlib.Data.Nat.Notation
import Mathlib.Logic.Basic
import Mathlib.Tactic.SplitIfs

namespace Crane

/-- a database of rows `ρ`, each stored under a key `κ` that is also the name of its row lock -/
class RowStore (σ : Type) (κ ρ : outParam Type) where
  key : ρ → κ
  put : ρ → σ → σ
  look : σ → κ → Option ρ
  look_put_self : ∀ r s, look (put r s) (key r) = some r
  look_put_ne : ∀ r s k, key r ≠ k → look (put r s) k = look s k

namespace RowStore

variable {σ κ ρ : Type} [RowStore σ κ ρ]

/-- store several row versions, in order -/
def putAll (ws : List ρ) (s : σ) : σ := ws.foldl (fun s r => put r s) s

@[simp] theorem putAll_nil (s : σ) : putAll ([] : List ρ) s = s := rfl

@[simp] theorem putAll_cons (r : ρ) (ws : List ρ) (s : σ) : putAll (r :: ws) s = putAll ws (put r s) := rfl

theorem putAll_append (ws vs : List ρ) (s : σ) : putAll (ws ++ vs) s = putAll vs (putAll ws s) := List.foldl_append

/-- rows whose key is not written keep their version -/
theorem look_putAll (ws : List ρ) (s : σ) (k : κ) (h : k ∉ ws.map (key σ)) : look (putAll ws s) k = look s k := by
  induction ws generalizing s with
  | nil => rfl
  | cons r ws ih =>
    rw [List.map_cons, List.mem_cons, not_or] at h
    rw [putAll_cons, ih _ h.2, look_put_ne r s k fun e => h.1 e.symm]

/-- each row version of the list stands in `G` to the version it replaces -/
def Follow (G : Option ρ → ρ → Prop) : σ → List ρ → Prop
  | _, [] => True
  | s, r :: ws => G (look s (key σ r)) r ∧ Follow G (put r s) ws

section Follow
variable {G : Option ρ → ρ → Prop}

theorem follow_append {s : σ} {ws vs : List ρ} :
    Follow G s (ws ++ vs) ↔ Follow G s ws ∧ Follow G (putAll ws s) vs := by
  induction ws generalizing s with
  | nil => simp [Follow]
  | cons r ws ih => simp only [List.cons_append, Follow, putAll_cons, ih, and_assoc]

theorem Follow.mono {G' : Option ρ → ρ → Prop} (h : ∀ old new, G old new → G' old new) {s : σ} {ws : List ρ}
    (hf : Follow G s ws) : Follow G' s ws := by
  induction ws generalizing s with
  | nil => trivial
  | cons r ws ih => exact ⟨h _ _ hf.1, ih hf.2⟩

theorem Follow.exists {s : σ} {ws : List ρ} (hf : Follow G s ws) {r : ρ} (hr : r ∈ ws) : ∃ old, G old r := by
  induction ws generalizing s with
  | nil => simp at hr
  | cons r' ws ih =>
    rcases List.mem_cons.mp hr with rfl | hr
    · exact ⟨_, hf.1⟩
    · exact ih hf.2 hr

theorem follow_toList {s : σ} {o : Option ρ} (h : ∀ r, o = some r → G (look s (key σ r)) r) : Follow G s o.toList := by
  cases o with
  | none => trivial
  | some r => exact ⟨h r rfl, trivial⟩

theorem look_put_congr {s s' : σ} (r : ρ) {k : κ} (h : key σ r ≠ k → look s k = look s' k) :
    look (put r s) k = look (put r s') k := by
  by_cases hk : key σ r = k
  · subst hk
    rw [look_put_self, look_put_self]
  · rw [look_put_ne r s k hk, look_put_ne r s' k hk, h hk]

/-- only the versions stored under the written keys matter -/
theorem follow_congr {s s' : σ} {ws : List ρ} (h : ∀ r ∈ ws, look s (key σ r) = look s' (key σ r))
    (hf : Follow G s ws) : Follow G s' ws := by
  induction ws generalizing s s' with
  | nil => trivial
  | cons r ws ih =>
    refine ⟨h r List.mem_cons_self ▸ hf.1, ih (fun r' hr' => ?_) hf.2⟩
    exact look_put_congr r fun _ => h r' (List.mem_cons_of_mem _ hr')

/-- an UPDATE of several rows: the keys differ, so each version replaces the one the statement saw -/
theorem follow_of_nodup {s : σ} {ws : List ρ} (hn : (ws.map (key σ)).Nodup)
    (h : ∀ r ∈ ws, G (look s (key σ r)) r) : Follow G s ws := by
  induction ws generalizing s with
  | nil => trivial
  | cons r ws ih =>
    rw [List.map_cons, List.nodup_cons] at hn
    refine ⟨h r List.mem_cons_self, ih hn.2 fun r' hr' => ?_⟩
    have hne : key σ r ≠ key σ r' := fun e => hn.1 (e ▸ List.mem_map_of_mem hr')
    rw [look_put_ne r s _ hne]
    exact h r' (List.mem_cons_of_mem _ hr')

/-- what one version that stands in `G` keeps, several keep -/
theorem Follow.keeps_mem {I : σ → Prop} {ws : List ρ} {s : σ}
    (hput : ∀ r ∈ ws, ∀ s, G (look s (key σ r)) r → I s → I (put r s)) (hf : Follow G s ws) (hs : I s) :
    I (putAll ws s) := by
  induction ws generalizing s with
  | nil => exact hs
  | cons r ws ih =>
    exact ih (fun r' hr' => hput r' (List.mem_cons_of_mem _ hr')) hf.2 (hput r List.mem_cons_self s hf.1 hs)

theorem Follow.keeps {I : σ → Prop} (hput : ∀ r s, G (look s (key σ r)) r → I s → I (put r s)) {ws : List ρ} {s : σ}
    (hf : Follow G s ws) (hs : I s) : I (putAll ws s) :=
  hf.keeps_mem (fun r _ => hput r) hs

/-! Columns `v` that no version of row `k` changes once it is stored. -/

section Columns
variable {τ : Type} {v : ρ → τ} {k : κ} (hG : ∀ old new, key σ new = k → G (some old) new → v new = v old)
include hG

theorem Follow.columns_kept {ws : List ρ} {s : σ} (hf : Follow G s ws) {t : τ} (h : (look s k).map v = some t) :
    (look (putAll ws s) k).map v = some t := by
  refine hf.keeps (I := fun s => (look s k).map v = some t) (fun r s hr hs => ?_) h
  by_cases hk : key σ r = k
  · obtain ⟨old, hold, hv⟩ := Option.map_eq_some_iff.mp hs
    rw [hk, hold] at hr
    rw [← hk, look_put_self, Option.map_some, hG old r hk hr, hv]
  · rwa [look_put_ne r s k hk]

/-- a version that is stored keeps them to the end -/
theorem Follow.columns_mem {ws : List ρ} {s : σ} (hf : Follow G s ws) {r : ρ} (hr : r ∈ ws) (hk : key σ r = k) :
    (look (putAll ws s) k).map v = some (v r) := by
  induction ws generalizing s with
  | nil => simp at hr
  | cons r' ws ih =>
    rcases List.mem_cons.mp hr with rfl | hr
    · refine hf.2.columns_kept hG ?_
      rw [← hk, look_put_self, Option.map_some]
    · exact ih hf.2 hr

/-- a row at the end was there before, or one of the versions inserted it -/
theorem Follow.origin {ws : List ρ} {s : σ} (hf : Follow G s ws) {r : ρ} (hr : look (putAll ws s) k = some r) :
    (∃ r₀, look s k = some r₀ ∧ v r = v r₀) ∨ ∃ r₁ ∈ ws, key σ r₁ = k ∧ G none r₁ ∧ v r = v r₁ := by
  induction ws generalizing s with
  | nil => exact .inl ⟨r, hr, rfl⟩
  | cons r' ws ih =>
    rcases ih hf.2 hr with ⟨r₀, hr₀, hv⟩ | ⟨r₁, hmem, h⟩
    · by_cases hk : key σ r' = k
      · rw [← hk, look_put_self, Option.some.injEq] at hr₀
        subst hr₀
        have hstep := hf.1
        rw [hk] at hstep
        cases hold : look s k with
        | none => exact .inr ⟨r', List.mem_cons_self, hk, hold ▸ hstep, hv⟩
        | some old => exact .inl ⟨old, rfl, hv.trans (hG old r' hk (hold ▸ hstep))⟩
      · rw [look_put_ne r' s k hk] at hr₀
        exact .inl ⟨r₀, hr₀, hv⟩
    · exact .inr ⟨r₁, List.mem_cons_of_mem _ hmem, h⟩

end Columns

end Follow

end RowStore

open RowStore

/-- a transaction over states `σ` with locks `κ` and row versions `ρ`; `ε` are its errors, `χ` and `β` its calls to the
outside and their answers, `α` its result -/
inductive Tx (σ κ ρ ε χ β α : Type) where
  | done (a : α)
  | fail (e : ε)
  | stmt (locks : σ → List κ) (writes : σ → List ρ) (next : σ → Tx σ κ ρ ε χ β α)
  | call (c : χ) (next : β → Tx σ κ ρ ε χ β α)

namespace Tx

variable {σ κ ρ ε χ β α γ : Type}

def bind : Tx σ κ ρ ε χ β α → (α → Tx σ κ ρ ε χ β γ) → Tx σ κ ρ ε χ β γ
  | done a, f => f a
  | fail e, _ => fail e
  | stmt l w k, f => stmt l w fun s => (k s).bind f
  | call c k, f => call c fun b => (k b).bind f

instance : Monad (Tx σ κ ρ ε χ β) where
  pure := done
  bind := bind

@[simp] theorem pure_eq (a : α) : (pure a : Tx σ κ ρ ε χ β α) = done a := rfl

@[simp] theorem bind_eq (x : Tx σ κ ρ ε χ β α) (f : α → Tx σ κ ρ ε χ β γ) : x >>= f = x.bind f := rfl

@[simp] theorem done_bind (a : α) (f : α → Tx σ κ ρ ε χ β γ) : (done a : Tx σ κ ρ ε χ β α).bind f = f a := rfl

@[simp] theorem fail_bind (e : ε) (f : α → Tx σ κ ρ ε χ β γ) : (fail e : Tx σ κ ρ ε χ β α).bind f = fail e := rfl

/-! ## Statements -/

/-- a query without locks -/
def select (q : σ → α) : Tx σ κ ρ ε χ β α := stmt (fun _ => []) (fun _ => []) fun s => done (q s)

/-- a query that locks rows until the transaction ends -/
def selectForUpdate (locks : σ → List κ) (q : σ → α) : Tx σ κ ρ ε χ β α := stmt locks (fun _ => []) fun s => done (q s)

/-- an UPDATE; the result is the number of affected rows -/
def update (w : σ → List ρ) : Tx σ κ ρ ε χ β ℕ := stmt (fun _ => []) w fun s => done (w s).length

/-- an UPDATE ... RETURNING of at most one row -/
def updateReturning (q : σ → Option (ρ × α)) : Tx σ κ ρ ε χ β (Option α) :=
  stmt (fun _ => []) (fun s => (q s).toList.map Prod.fst) fun s => done ((q s).map Prod.snd)

/-- a writing statement that fails when a constraint is violated -/
def execute (w : σ → Except ε (List ρ)) : Tx σ κ ρ ε χ β Unit :=
  stmt (fun _ => []) (fun s => match w s with | .ok rows => rows | .error _ => [])
    fun s => match w s with | .ok _ => done () | .error e => fail e

/-- a call to the outside while the transaction stays open -/
def external (c : χ) : Tx σ κ ρ ε χ β β := call c done

/-- fail unless `p` -/
def require (p : Prop) [Decidable p] (e : ε) : Tx σ κ ρ ε χ β Unit := if p then done () else fail e

/-- run `x` only if `p` -/
def when (p : Prop) [Decidable p] (x : Tx σ κ ρ ε χ β Unit) : Tx σ κ ρ ε χ β Unit := if p then x else done ()

/-- the value, or the error for a query without rows -/
def orFail (o : Option α) (e : ε) : Tx σ κ ρ ε χ β α := o.elim (fail e) done

/-! ## Written rows -/

section Writes
variable [RowStore σ κ ρ]

/-- every row version the transaction may store stands in `G` to the version its statement replaces -/
def Writes (G : Option ρ → ρ → Prop) : Tx σ κ ρ ε χ β α → Prop
  | done _ => True
  | fail _ => True
  | stmt _ w k => ∀ s, Follow G s (w s) ∧ (k s).Writes G
  | call _ k => ∀ b, (k b).Writes G

variable {G : Option ρ → ρ → Prop}

theorem Writes.bind {x : Tx σ κ ρ ε χ β α} {f : α → Tx σ κ ρ ε χ β γ} (hx : x.Writes G) (hf : ∀ a, (f a).Writes G) :
    (x.bind f).Writes G := by
  induction x with
  | done a => exact hf a
  | fail e => trivial
  | stmt l w k ih => exact fun s => ⟨(hx s).1, ih s (hx s).2⟩
  | call c k ih => exact fun b => ih b (hx b)

theorem Writes.mono {G' : Option ρ → ρ → Prop} (h : ∀ old new, G old new → G' old new) {x : Tx σ κ ρ ε χ β α}
    (hx : x.Writes G) : x.Writes G' := by
  induction x with
  | done a => trivial
  | fail e => trivial
  | stmt l w k ih => exact fun s => ⟨(hx s).1.mono h, ih s (hx s).2⟩
  | call c k ih => exact fun b => ih b (hx b)

theorem writes_select (p : σ → α) : (select p : Tx σ κ ρ ε χ β α).Writes G := fun _ => ⟨trivial, trivial⟩

theorem writes_selectForUpdate (l : σ → List κ) (p : σ → α) : (selectForUpdate l p : Tx σ κ ρ ε χ β α).Writes G :=
  fun _ => ⟨trivial, trivial⟩

theorem writes_external (c : χ) : (external c : Tx σ κ ρ ε χ β β).Writes G := fun _ => trivial

theorem writes_require (p : Prop) [Decidable p] (e : ε) : (require p e : Tx σ κ ρ ε χ β Unit).Writes G := by
  unfold require
  split_ifs <;> trivial

theorem writes_orFail (o : Option α) (e : ε) : (orFail o e : Tx σ κ ρ ε χ β α).Writes G := by cases o <;> trivial

theorem writes_update {w : σ → List ρ} (h : ∀ s, Follow G s (w s)) : (update w : Tx σ κ ρ ε χ β ℕ).Writes G :=
  fun s => ⟨h s, trivial⟩

theorem writes_updateReturning {w : σ → Option (ρ × α)} (h : ∀ s r a, w s = some (r, a) → G (look s (key σ r)) r) :
    (updateReturning w : Tx σ κ ρ ε χ β (Option α)).Writes G := by
  refine fun s => ⟨?_, trivial⟩
  cases hw : w s with
  | none => simp [hw, Follow]
  | some x => simpa [hw, Follow] using h s x.1 x.2 hw

theorem writes_execute {w : σ → Except ε (List ρ)} (h : ∀ s rows, w s = .ok rows → Follow G s rows) :
    (execute w : Tx σ κ ρ ε χ β Unit).Writes G := by
  intro s
  cases hw : w s with
  | error e => simp [hw, Writes, Follow]
  | ok rows => simpa [hw, Writes] using h s rows hw

theorem Writes.when {p : Prop} [Decidable p] {x : Tx σ κ ρ ε χ β Unit} (hx : x.Writes G) : (when p x).Writes G := by
  unfold Tx.when
  split_ifs
  · exact hx
  · trivial

end Writes

/-! ## Errors -/

/-- every error the transaction may end with is in `E` -/
def Fails (E : ε → Prop) : Tx σ κ ρ ε χ β α → Prop
  | done _ => True
  | fail e => E e
  | stmt _ _ k => ∀ s, (k s).Fails E
  | call _ k => ∀ b, (k b).Fails E

section Fails
variable {E : ε → Prop}

theorem Fails.bind {x : Tx σ κ ρ ε χ β α} {f : α → Tx σ κ ρ ε χ β γ} (hx : x.Fails E) (hf : ∀ a, (f a).Fails E) :
    (x.bind f).Fails E := by
  induction x with
  | done a => exact hf a
  | fail e => exact hx
  | stmt l w k ih => exact fun s => ih s (hx s)
  | call c k ih => exact fun b => ih b (hx b)

theorem fails_require {p : Prop} [Decidable p] {e : ε} (h : ¬p → E e) : (require p e : Tx σ κ ρ ε χ β Unit).Fails E := by
  unfold require
  split_ifs with hp
  · trivial
  · exact h hp

theorem fails_orFail {o : Option α} {e : ε} (h : E e) : (orFail o e : Tx σ κ ρ ε χ β α).Fails E := by
  cases o with
  | none => exact h
  | some a => trivial

theorem fails_execute {w : σ → Except ε (List ρ)} (h : ∀ s e, w s = .error e → E e) :
    (execute w : Tx σ κ ρ ε χ β Unit).Fails E := by
  intro s
  cases hw : w s with
  | error e => simpa [hw, Fails] using h s e hw
  | ok rows => simp [hw, Fails]

end Fails

/-- whatever a transaction that does not fail answers and stores, in order, is in `R` -/
def Emits (R : α → List ρ → Prop) : Tx σ κ ρ ε χ β α → Prop
  | done a => R a []
  | fail _ => True
  | stmt _ w k => ∀ s, (k s).Emits fun a ws => R a (w s ++ ws)
  | call _ k => ∀ b, (k b).Emits R

section Emits

theorem Emits.mono {R R' : α → List ρ → Prop} (h : ∀ a ws, R a ws → R' a ws) {x : Tx σ κ ρ ε χ β α} (hx : x.Emits R) :
    x.Emits R' := by
  induction x generalizing R R' with
  | done a => exact h a [] hx
  | fail e => trivial
  | stmt l w k ih => exact fun s => ih s (fun a ws => h a (w s ++ ws)) (hx s)
  | call c k ih => exact fun b => ih b h (hx b)

theorem Emits.bind {R : α → List ρ → Prop} {R' : γ → List ρ → Prop} {x : Tx σ κ ρ ε χ β α}
    {f : α → Tx σ κ ρ ε χ β γ} (hx : x.Emits R) (hf : ∀ a ws, R a ws → (f a).Emits fun c vs => R' c (ws ++ vs)) :
    (x.bind f).Emits R' := by
  induction x generalizing R R' with
  | done a => exact hf a [] hx
  | fail e => trivial
  | stmt l w k ih => exact fun s => ih s (hx s) fun a ws h => by simpa using hf a (w s ++ ws) h
  | call c k ih => exact fun b => ih b (hx b) hf

theorem Emits.and {R R' : α → List ρ → Prop} {x : Tx σ κ ρ ε χ β α} (hx : x.Emits R) (hx' : x.Emits R') :
    x.Emits fun a ws => R a ws ∧ R' a ws := by
  induction x generalizing R R' with
  | done a => exact ⟨hx, hx'⟩
  | fail e => trivial
  | stmt l w k ih => exact fun s => ih s (hx s) (hx' s)
  | call c k ih => exact fun b => ih b (hx b) (hx' b)

theorem emits_true (x : Tx σ κ ρ ε χ β α) : x.Emits fun _ _ => True := by
  induction x with
  | done a => trivial
  | fail e => trivial
  | stmt l w k ih => exact fun s => ih s
  | call c k ih => exact fun b => ih b

theorem emits_execute {R : Unit → List ρ → Prop} {w : σ → Except ε (List ρ)} (h : ∀ s rows, w s = .ok rows → R () rows) :
    (execute w : Tx σ κ ρ ε χ β Unit).Emits R := by
  intro s
  cases hw : w s with
  | error e => simp [hw, Emits]
  | ok rows => simpa [hw, Emits] using h s rows hw

/-- rows that satisfy a predicate by themselves -/
theorem Writes.emits [RowStore σ κ ρ] {Z : ρ → Prop} {x : Tx σ κ ρ ε χ β α} (hx : x.Writes fun _ r => Z r) :
    x.Emits fun _ ws => ∀ r ∈ ws, Z r := by
  have hall : ∀ (ws : List ρ) (s : σ), Follow (fun _ r => Z r) s ws → ∀ r ∈ ws, Z r := by
    intro ws
    induction ws with
    | nil => simp
    | cons r ws ih => exact fun s h => List.forall_mem_cons.mpr ⟨h.1, ih _ h.2⟩
  induction x with
  | done a => simp [Emits]
  | fail e => trivial
  | stmt l w k ih =>
    refine fun s => (ih s (hx s).2).mono fun a ws h r hr => ?_
    rcases List.mem_append.mp hr with hr | hr
    · exact hall _ s (hx s).1 r hr
    · exact h r hr
  | call c k ih => exact fun b => ih b (hx b)

theorem emits_nil_when {p : Prop} [Decidable p] {x : Tx σ κ ρ ε χ β Unit} (hx : x.Emits fun _ ws => ws = []) :
    (when p x).Emits fun _ ws => ws = [] := by
  unfold Tx.when
  split_ifs
  · exact hx
  · exact rfl

/-- a sequence of parts that store nothing -/
theorem emits_nil_bind {x : Tx σ κ ρ ε χ β α} {f : α → Tx σ κ ρ ε χ β γ} (hx : x.Emits fun _ ws => ws = [])
    (hf : ∀ a, (f a).Emits fun _ ws => ws = []) : (x.bind f).Emits fun _ ws => ws = [] :=
  hx.bind fun a _ hws => by simpa [hws] using hf a

theorem emits_nil_select (q : σ → α) : (select q : Tx σ κ ρ ε χ β α).Emits fun _ ws => ws = [] := fun _ => rfl

theorem emits_nil_selectForUpdate (l : σ → List κ) (q : σ → α) :
    (selectForUpdate l q : Tx σ κ ρ ε χ β α).Emits fun _ ws => ws = [] := fun _ => rfl

theorem emits_nil_require (p : Prop) [Decidable p] (e : ε) :
    (require p e : Tx σ κ ρ ε χ β Unit).Emits fun _ ws => ws = [] := by
  unfold require
  split_ifs
  · exact rfl
  · trivial

theorem emits_nil_orFail (o : Option α) (e : ε) : (orFail o e : Tx σ κ ρ ε χ β α).Emits fun _ ws => ws = [] := by
  cases o
  · trivial
  · exact rfl

end Emits

/-! ## Uninterrupted execution -/

section Run
variable [RowStore σ κ ρ] (ans : χ → β)

/-- execute alone, with the outside answering `ans`; a failure leaves no state behind -/
def run : Tx σ κ ρ ε χ β α → σ → Except ε (α × σ)
  | done a, s => .ok (a, s)
  | fail e, _ => .error e
  | stmt _ w k, s => (k s).run (putAll (w s) s)
  | call c k, s => (k (ans c)).run s

/-- the state after the transaction, rolled back when it failed -/
def after (x : Tx σ κ ρ ε χ β α) (s : σ) : σ := match x.run ans s with | .ok (_, s') => s' | .error _ => s

/-- what the caller is told -/
def result (x : Tx σ κ ρ ε χ β α) (s : σ) : Except ε α := match x.run ans s with | .ok (a, _) => .ok a | .error e => .error e

theorem after_cases (x : Tx σ κ ρ ε χ β α) (s : σ) : x.after ans s = s ∨ ∃ a, x.run ans s = .ok (a, x.after ans s) := by
  unfold after
  cases h : x.run ans s with
  | error e => exact .inl rfl
  | ok y => exact .inr ⟨y.1, rfl⟩

variable {ans}

theorem result_ok {x : Tx σ κ ρ ε χ β α} {s : σ} {a : α} (h : x.result ans s = .ok a) : ∃ s', x.run ans s = .ok (a, s') := by
  unfold result at h
  cases hr : x.run ans s with
  | error e => simp [hr] at h
  | ok y =>
    obtain rfl : y.1 = a := by simpa [hr] using h
    exact ⟨y.2, rfl⟩

theorem run_bind (x : Tx σ κ ρ ε χ β α) (f : α → Tx σ κ ρ ε χ β γ) (s : σ) :
    (x.bind f).run ans s = match x.run ans s with | .ok (a, s') => (f a).run ans s' | .error e => .error e := by
  induction x generalizing s with
  | done a => rfl
  | fail e => rfl
  | stmt l w k ih => exact ih s _
  | call c k ih => exact ih (ans c) s

/-- a sequence commits exactly when both parts do -/
theorem run_bind_ok {x : Tx σ κ ρ ε χ β α} {f : α → Tx σ κ ρ ε χ β γ} {s : σ} {q : γ × σ} :
    (x.bind f).run ans s = .ok q ↔ ∃ p, x.run ans s = .ok p ∧ (f p.1).run ans p.2 = .ok q := by
  rw [run_bind]
  constructor
  · intro h
    cases hx : x.run ans s with
    | error e => simp [hx] at h
    | ok p => exact ⟨p, rfl, by simpa [hx] using h⟩
  · rintro ⟨p, hx, hf⟩
    rw [hx]
    exact hf

/-- what storing a version that stands in `G` keeps, a transaction that writes only such versions keeps -/
theorem Writes.run_keeps {G : Option ρ → ρ → Prop} {I : σ → Prop}
    (hput : ∀ r s, G (look s (key σ r)) r → I s → I (put r s)) {x : Tx σ κ ρ ε χ β α} (hx : x.Writes G) {s : σ}
    {q : α × σ} (h : x.run ans s = .ok q) (hs : I s) : I q.2 := by
  induction x generalizing s with
  | done a =>
    obtain rfl := Except.ok.inj h
    exact hs
  | fail e => simp [run] at h
  | stmt l w k ih => exact ih s (hx s).2 h ((hx s).1.keeps hput hs)
  | call c k ih => exact ih (ans c) (hx _) h hs

@[simp] theorem run_done (a : α) (s : σ) : (done a : Tx σ κ ρ ε χ β α).run ans s = .ok (a, s) := rfl

@[simp] theorem run_fail (e : ε) (s : σ) : (fail e : Tx σ κ ρ ε χ β α).run ans s = .error e := rfl

/-! One lemma for each statement followed by the rest `f` of its transaction: queries and UPDATEs go on in the new state,
a statement that can fail gives its condition. -/

section Peel
variable {f : α → Tx σ κ ρ ε χ β γ} {g : Unit → Tx σ κ ρ ε χ β γ} {s : σ} {q : γ × σ}

theorem run_select_bind (p : σ → α) : ((select p).bind f).run ans s = (f (p s)).run ans s := rfl

theorem run_selectForUpdate_bind (l : σ → List κ) (p : σ → α) :
    ((selectForUpdate l p).bind f).run ans s = (f (p s)).run ans s := rfl

theorem run_update_bind (w : σ → List ρ) (k : ℕ → Tx σ κ ρ ε χ β γ) :
    ((update w).bind k).run ans s = (k (w s).length).run ans (putAll (w s) s) := rfl

theorem run_updateReturning_bind (w : σ → Option (ρ × α)) (k : Option α → Tx σ κ ρ ε χ β γ) :
    ((updateReturning w).bind k).run ans s =
      (k ((w s).map Prod.snd)).run ans (putAll ((w s).toList.map Prod.fst) s) := rfl

theorem run_external_bind (c : χ) (k : β → Tx σ κ ρ ε χ β γ) :
    ((external c).bind k).run ans s = (k (ans c)).run ans s := rfl

theorem run_require_bind {p : Prop} [Decidable p] {e : ε} :
    ((require p e).bind g).run ans s = .ok q ↔ p ∧ (g ()).run ans s = .ok q := by
  unfold require
  split_ifs with h <;> simp [h]

theorem run_orFail_bind {o : Option α} {e : ε} :
    ((orFail o e).bind f).run ans s = .ok q ↔ ∃ a, o = some a ∧ (f a).run ans s = .ok q := by
  cases o <;> simp [orFail]

theorem run_execute_bind {w : σ → Except ε (List ρ)} :
    ((execute w).bind g).run ans s = .ok q ↔ ∃ rows, w s = .ok rows ∧ (g ()).run ans (putAll rows s) = .ok q := by
  cases h : w s <;> simp [execute, bind, run, h]

/-- a conditional part ran, or its condition was false -/
theorem run_when_bind {p : Prop} [Decidable p] {x : Tx σ κ ρ ε χ β Unit} :
    ((when p x).bind g).run ans s = .ok q ↔
      ∃ s', ((p ∧ x.run ans s = .ok ((), s')) ∨ (¬p ∧ s' = s)) ∧ (g ()).run ans s' = .ok q := by
  unfold when
  split_ifs with h
  · simp only [run_bind_ok, h, true_and, not_true_eq_false, false_and, or_false]
    exact ⟨fun ⟨r, hr, hg⟩ => ⟨r.2, hr, hg⟩, fun ⟨s', hr, hg⟩ => ⟨((), s'), hr, hg⟩⟩
  · simp [h]

theorem run_require {p : Prop} [Decidable p] {e : ε} {x : Unit × σ} :
    (require p e : Tx σ κ ρ ε χ β Unit).run ans s = .ok x ↔ p ∧ x.2 = s := by
  unfold require
  split_ifs with h <;> simp [h, Prod.ext_iff, eq_comm]

theorem run_execute {w : σ → Except ε (List ρ)} {x : Unit × σ} :
    (execute w : Tx σ κ ρ ε χ β Unit).run ans s = .ok x ↔ ∃ rows, w s = .ok rows ∧ x.2 = putAll rows s := by
  cases h : w s <;> simp [execute, run, h, Prod.ext_iff, eq_comm]

theorem run_orFail {o : Option α} {e : ε} {x : α × σ} :
    (orFail o e : Tx σ κ ρ ε χ β α).run ans s = .ok x ↔ o = some x.1 ∧ x.2 = s := by
  cases o <;> simp [orFail, Prod.ext_iff, eq_comm]

end Peel

end Run

end Tx

end Crane
