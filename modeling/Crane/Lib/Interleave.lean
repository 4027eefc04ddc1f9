/-
Transactions interleaved statement by statement under row locks.

Any number of transactions are open at once. A statement runs only while every lock it needs is free or already its
own; it sees the committed rows and the rows its own transaction wrote; locks are kept until the transaction ends;
commit stores all row versions at once. Between two statements of a transaction anything may happen: other
transactions begin, commit, fail or are rolled back, and the environment (the clock) moves. This is READ COMMITTED
with SELECT ... FOR UPDATE; unique-index and foreign-key waits are not modelled, which only adds interleavings.

Proof rule (rely-guarantee). A `Protocol` names an invariant of the committed world, what each call may store in place
of what (`guard`), and, for each set of held locks, what the holder may rely on while others run; that locked rows keep
their versions is always part of it. `WP` is the weakest precondition of a transaction whose every step may be preceded
by such interference. If each program, from any world with the invariant, ends every way by re-establishing the
invariant and by giving the others what they rely on (`Implements`), then the invariant holds in every run (`run_inv`),
what everyone relies on holds between any two points of it (`run_rely`), and what the protocol says of outside calls
holds at every one of them (`run_call`).
-/
import Crane.Lib.Tx
import Mathlib

namespace Crane.Interleave

open RowStore

variable {σ κ ρ ε χ β α ι η : Type}

/-- one ended transaction: the call, what it answered, and the committed state before and after -/
structure Finished (σ ε α ι : Type) where
  call : ι
  out : Except ε α
  before : σ
  after : σ

/-- the committed state and the transactions ended so far, oldest first -/
structure World (σ ε α ι : Type) where
  db : σ
  log : List (Finished σ ε α ι)

/-- an open transaction: the rest of its program and the row versions it has written -/
structure Txn (σ κ ρ ε χ β α ι : Type) where
  call : ι
  prog : Tx σ κ ρ ε χ β α
  pending : List ρ

structure Sys (σ κ ρ ε χ β α ι : Type) where
  world : World σ ε α ι
  owner : κ → Option ℕ
  txns : ℕ → Option (Txn σ κ ρ ε χ β α ι)

inductive Act (β ι η : Type) where
  | begin (i : ℕ) (c : ι)
  | exec (i : ℕ)
  | answer (i : ℕ) (b : β)
  | finish (i : ℕ)
  | rollback (i : ℕ)
  | env (e : η)

def World.finish [RowStore σ κ ρ] (w : World σ ε α ι) (c : ι) (out : Except ε α) (ws : List ρ) : World σ ε α ι :=
  ⟨putAll ws w.db, w.log ++ [⟨c, out, w.db, putAll ws w.db⟩]⟩

/-- forget transaction `i` and free its locks -/
def Sys.close (s : Sys σ κ ρ ε χ β α ι) (i : ℕ) : Sys σ κ ρ ε χ β α ι :=
  { s with owner := fun k => if s.owner k = some i then none else s.owner k,
           txns := fun j => if j = i then none else s.txns j }

def Sys.set (s : Sys σ κ ρ ε χ β α ι) (i : ℕ) (t : Txn σ κ ρ ε χ β α ι) : Sys σ κ ρ ε χ β α ι :=
  { s with txns := fun j => if j = i then some t else s.txns j }

/-- the locks a statement takes: those it asks for and those of the rows it writes -/
def needed [RowStore σ κ ρ] (locks : σ → List κ) (writes : σ → List ρ) (v : σ) : List κ :=
  locks v ++ (writes v).map (key σ)

section Machine
variable [RowStore σ κ ρ] [DecidableEq κ] (code : ι → Tx σ κ ρ ε χ β α) (tick : η → σ → σ)

/-- one step; an action that is not enabled changes nothing -/
def step (s : Sys σ κ ρ ε χ β α ι) : Act β ι η → Sys σ κ ρ ε χ β α ι
  | .begin i c => match s.txns i with
    | none => s.set i ⟨c, code c, []⟩
    | some _ => s
  | .exec i => match s.txns i with
    | some ⟨c, .stmt l w k, ws⟩ =>
      let v := putAll ws s.world.db
      let need := needed l w v
      if need.all fun k => s.owner k = none ∨ s.owner k = some i then
        { s with owner := fun k => if k ∈ need then some i else s.owner k }.set i ⟨c, k v, ws ++ w v⟩
      else s
    | _ => s
  | .answer i b => match s.txns i with
    | some ⟨c, .call _ k, ws⟩ => s.set i ⟨c, k b, ws⟩
    | _ => s
  | .finish i => match s.txns i with
    | some ⟨c, .done a, ws⟩ => { s.close i with world := s.world.finish c (.ok a) ws }
    | some ⟨c, .fail e, _⟩ => { s.close i with world := s.world.finish c (.error e) ([] : List ρ) }
    | _ => s
  | .rollback i => s.close i
  | .env e => { s with world := { s.world with db := tick e s.world.db } }

def run (s : Sys σ κ ρ ε χ β α ι) (acts : List (Act β ι η)) : Sys σ κ ρ ε χ β α ι := acts.foldl (step code tick) s

/-- no open transaction and nothing logged -/
def start (d : σ) : Sys σ κ ρ ε χ β α ι := ⟨⟨d, []⟩, fun _ => none, fun _ => none⟩

/-- a step ends at most one open transaction, in the committed state it finds -/
theorem step_log (s : Sys σ κ ρ ε χ β α ι) (a : Act β ι η) :
    (step code tick s a).world.log = s.world.log ∨
      ∃ i t out, s.txns i = some t ∧ (step code tick s a).world.log =
        s.world.log ++ [⟨t.call, out, s.world.db, (step code tick s a).world.db⟩] := by
  cases a with
  | finish i =>
    cases ht : s.txns i with
    | none => exact .inl (by simp [step, ht])
    | some t =>
      obtain ⟨c, p, ws⟩ := t
      cases p with
      | done a => exact .inr ⟨i, _, .ok a, ht, by simp [step, ht, World.finish]⟩
      | fail e => exact .inr ⟨i, _, .error e, ht, by simp [step, ht, World.finish]⟩
      | stmt l w k => exact .inl (by simp [step, ht])
      | call y k => exact .inl (by simp [step, ht])
  | rollback i => exact .inl rfl
  | env e => exact .inl rfl
  | begin i c =>
    refine .inl ?_
    simp only [step]
    split <;> rfl
  | exec i =>
    refine .inl ?_
    simp only [step]
    split
    · split_ifs <;> rfl
    · rfl
  | answer i b =>
    refine .inl ?_
    simp only [step]
    split <;> rfl

/-- a transaction that is open after a step was open before, or has just begun -/
theorem step_txns (s : Sys σ κ ρ ε χ β α ι) (a : Act β ι η) {i : ℕ} {t : Txn σ κ ρ ε χ β α ι}
    (ht : (step code tick s a).txns i = some t) :
    (∃ t₀, s.txns i = some t₀ ∧ t₀.call = t.call) ∨ a = .begin i t.call := by
  have hset : ∀ (s' : Sys σ κ ρ ε χ β α ι) j t', s'.txns = s.txns → (s'.set j t').txns i = some t →
      (∃ t₀, s.txns j = some t₀ ∧ t₀.call = t'.call) → ∃ t₀, s.txns i = some t₀ ∧ t₀.call = t.call := by
    intro s' j t' hs h hold
    simp only [Sys.set] at h
    split_ifs at h with hj
    · obtain rfl := Option.some.inj h
      exact hj ▸ hold
    · exact ⟨t, hs ▸ h, rfl⟩
  have hclose : ∀ j, (s.close j).txns i = some t → ∃ t₀, s.txns i = some t₀ ∧ t₀.call = t.call := by
    intro j h
    simp only [Sys.close] at h
    split_ifs at h
    exact ⟨t, h, rfl⟩
  cases a with
  | begin j c =>
    cases hj : s.txns j with
    | some t' => exact .inl ⟨t, by simpa [step, hj] using ht, rfl⟩
    | none =>
      simp only [step, hj, Sys.set] at ht
      split_ifs at ht with hij
      · obtain rfl := Option.some.inj ht
        exact .inr (by rw [hij])
      · exact .inl ⟨t, ht, rfl⟩
  | exec j =>
    refine .inl ?_
    cases hj : s.txns j with
    | none => exact ⟨t, by simpa [step, hj] using ht, rfl⟩
    | some t' =>
      obtain ⟨c, p, ws⟩ := t'
      cases p with
      | stmt l w k =>
        simp only [step, hj] at ht
        split_ifs at ht
        · exact hset _ j _ rfl ht ⟨_, hj, rfl⟩
        · exact ⟨t, ht, rfl⟩
      | _ => exact ⟨t, by simpa [step, hj] using ht, rfl⟩
  | answer j b =>
    refine .inl ?_
    cases hj : s.txns j with
    | none => exact ⟨t, by simpa [step, hj] using ht, rfl⟩
    | some t' =>
      obtain ⟨c, p, ws⟩ := t'
      cases p with
      | call y k =>
        simp only [step, hj] at ht
        exact hset _ j _ rfl ht ⟨_, hj, rfl⟩
      | _ => exact ⟨t, by simpa [step, hj] using ht, rfl⟩
  | finish j =>
    refine .inl ?_
    cases hj : s.txns j with
    | none => exact ⟨t, by simpa [step, hj] using ht, rfl⟩
    | some t' =>
      obtain ⟨c, p, ws⟩ := t'
      cases p with
      | done a => exact hclose j (by simpa [step, hj] using ht)
      | fail e => exact hclose j (by simpa [step, hj] using ht)
      | _ => exact ⟨t, by simpa [step, hj] using ht, rfl⟩
  | rollback j => exact .inl (hclose j ht)
  | env e => exact .inl ⟨t, ht, rfl⟩

end Machine

/-! ## Rely-guarantee -/

/-- what is kept true of the committed world, and what a holder of locks may rely on -/
structure Protocol (σ κ ρ ε χ α ι : Type) where
  Inv : World σ ε α ι → Prop
  rely : Set κ → World σ ε α ι → World σ ε α ι → Prop
  /-- the row versions a call may store in place of others -/
  guard : ι → Option ρ → ρ → Prop
  /-- what is claimed whenever a transaction stands at an outside call, with these rows written -/
  atCall : ι → χ → List ρ → World σ ε α ι → Prop
  refl : ∀ h w, rely h w w
  trans : ∀ {h u v w}, rely h u v → rely h v w → rely h u w
  mono : ∀ {h h' v w}, h ⊆ h' → rely h' v w → rely h v w

variable (P : Protocol σ κ ρ ε χ α ι)

section Rule
variable [RowStore σ κ ρ]

/-- the rows under `h` keep their versions -/
def Frozen (h : Set κ) (s s' : σ) : Prop := ∀ k ∈ h, look s' k = look s k

/-- what a holder of `h` relies on: the protocol's part and that locked rows keep their versions -/
structure Protocol.Rely (h : Set κ) (w w' : World σ ε α ι) : Prop where
  rely : P.rely h w w'
  frozen : Frozen h w.db w'.db

/-- what holds when a transaction of call `c` that holds `h` and wrote `ws` ends in `w` -/
structure Ending (c : ι) (h : Set κ) (ws : List ρ) (w : World σ ε α ι) : Prop where
  inv : P.Inv w
  follow : Follow (P.guard c) w.db ws
  locked : ∀ r ∈ ws, key σ r ∈ h

/-- ending call `c` with answer `out` and rows `ws` is fine whatever happened since `w` -/
def Ends (c : ι) (out : Except ε α) (h : Set κ) (ws : List ρ) (w : World σ ε α ι) : Prop :=
  ∀ w', P.Rely h w w' → Ending P c h ws w' → P.Inv (w'.finish c out ws) ∧
    ∀ h', Disjoint h h' → P.rely h' w' (w'.finish c out ws)

/-- weakest precondition of a transaction of call `c` that holds locks `h`, wrote `ws` and last looked at `w` -/
def WP (c : ι) {γ : Type} (Q : γ → Set κ → List ρ → World σ ε α ι → Prop)
    (E : ε → Set κ → World σ ε α ι → Prop) : Tx σ κ ρ ε χ β γ → Set κ → List ρ → World σ ε α ι → Prop
  | .done a, h, ws, w => Q a h ws w
  | .fail e, h, _, w => E e h w
  | .stmt l wr k, h, ws, w => ∀ w', P.Rely h w w' → P.Inv w' →
      WP c Q E (k (putAll ws w'.db)) (h ∪ {x | x ∈ needed l wr (putAll ws w'.db)}) (ws ++ wr (putAll ws w'.db)) w'
  | .call x k, h, ws, w => ∀ w', P.Rely h w w' → P.Inv w' → P.atCall c x ws w' ∧ ∀ b, WP c Q E (k b) h ws w'

/-- the transaction may stand here: every way it can go on ends well -/
def Safe (c : ι) : Tx σ κ ρ ε χ β α → Set κ → List ρ → World σ ε α ι → Prop :=
  WP P c (fun a h ws w => Ends P c (.ok a) h ws w) fun e h w => Ends P c (.error e) h [] w

variable {P}

theorem Protocol.Rely.refl (h : Set κ) (w : World σ ε α ι) : P.Rely h w w := ⟨P.refl h w, fun _ _ => rfl⟩

theorem Protocol.Rely.trans {h : Set κ} {u v w : World σ ε α ι} (huv : P.Rely h u v) (hvw : P.Rely h v w) :
    P.Rely h u w :=
  ⟨P.trans huv.rely hvw.rely, fun k hk => (hvw.frozen k hk).trans (huv.frozen k hk)⟩

theorem Protocol.Rely.mono {h h' : Set κ} {v w : World σ ε α ι} (hh : h ⊆ h') (hr : P.Rely h' v w) : P.Rely h v w :=
  ⟨P.mono hh hr.rely, fun k hk => hr.frozen k (hh hk)⟩

section Sequence
variable {c : ι} {γ δ : Type} {Q : δ → Set κ → List ρ → World σ ε α ι → Prop}
  {E : ε → Set κ → World σ ε α ι → Prop} {h : Set κ} {ws : List ρ} {w : World σ ε α ι}

theorem wp_bind {x : Tx σ κ ρ ε χ β γ} {f : γ → Tx σ κ ρ ε χ β δ}
    (hx : WP P c (fun a h ws w => WP P c Q E (f a) h ws w) E x h ws w) : WP P c Q E (x.bind f) h ws w := by
  induction x generalizing h ws w with
  | done a => exact hx
  | fail e => exact hx
  | stmt l wr k ih => exact fun w' hr hi => ih _ (hx w' hr hi)
  | call y k ih => exact fun w' hr hi => ⟨(hx w' hr hi).1, fun b => ih _ ((hx w' hr hi).2 b)⟩

/-- one rule for each statement followed by the rest `f` of its transaction -/
theorem wp_select_bind {q : σ → γ} {f : γ → Tx σ κ ρ ε χ β δ}
    (hf : ∀ w', P.Rely h w w' → P.Inv w' → WP P c Q E (f (q (putAll ws w'.db))) h ws w') :
    WP P c Q E ((Tx.select q).bind f) h ws w := by
  intro w' hr hi
  simpa [needed] using hf w' hr hi

theorem wp_selectForUpdate_bind {l : σ → List κ} {q : σ → γ} {f : γ → Tx σ κ ρ ε χ β δ}
    (hf : ∀ w', P.Rely h w w' → P.Inv w' →
      WP P c Q E (f (q (putAll ws w'.db))) (h ∪ {x | x ∈ l (putAll ws w'.db)}) ws w') :
    WP P c Q E ((Tx.selectForUpdate l q).bind f) h ws w := by
  intro w' hr hi
  simpa [needed] using hf w' hr hi

theorem wp_update_bind {wr : σ → List ρ} {f : ℕ → Tx σ κ ρ ε χ β δ}
    (hf : ∀ w', P.Rely h w w' → P.Inv w' → WP P c Q E (f (wr (putAll ws w'.db)).length)
      (h ∪ {k | k ∈ (wr (putAll ws w'.db)).map (key σ)}) (ws ++ wr (putAll ws w'.db)) w') :
    WP P c Q E ((Tx.update wr).bind f) h ws w := by
  intro w' hr hi
  simpa [needed] using hf w' hr hi

theorem wp_updateReturning_bind {q : σ → Option (ρ × γ)} {f : Option γ → Tx σ κ ρ ε χ β δ}
    (hf : ∀ w', P.Rely h w w' → P.Inv w' → WP P c Q E (f ((q (putAll ws w'.db)).map Prod.snd))
      (h ∪ {k | k ∈ ((q (putAll ws w'.db)).toList.map Prod.fst).map (key σ)})
      (ws ++ (q (putAll ws w'.db)).toList.map Prod.fst) w') :
    WP P c Q E ((Tx.updateReturning q).bind f) h ws w := by
  intro w' hr hi
  simpa [needed] using hf w' hr hi

theorem wp_external_bind {y : χ} {f : β → Tx σ κ ρ ε χ β δ}
    (hcall : ∀ w', P.Rely h w w' → P.Inv w' → P.atCall c y ws w')
    (hf : ∀ w' b, P.Rely h w w' → P.Inv w' → WP P c Q E (f b) h ws w') :
    WP P c Q E ((Tx.external y).bind f) h ws w :=
  fun w' hr hi => ⟨hcall w' hr hi, fun b => hf w' b hr hi⟩

theorem wp_require_bind {p : Prop} [Decidable p] {e : ε} {f : Unit → Tx σ κ ρ ε χ β δ} (hE : ¬p → E e h w)
    (hf : p → WP P c Q E (f ()) h ws w) : WP P c Q E ((Tx.require p e).bind f) h ws w := by
  unfold Tx.require
  split_ifs with hp
  · exact hf hp
  · exact hE hp

theorem wp_require {p : Prop} [Decidable p] {e : ε} {Q : Unit → Set κ → List ρ → World σ ε α ι → Prop}
    (hE : ¬p → E e h w) (hQ : p → Q () h ws w) :
    WP P c Q E (Tx.require p e : Tx σ κ ρ ε χ β Unit) h ws w := by
  unfold Tx.require
  split_ifs with hp
  · exact hQ hp
  · exact hE hp

theorem wp_orFail_bind {o : Option γ} {e : ε} {f : γ → Tx σ κ ρ ε χ β δ} (hE : o = none → E e h w)
    (hf : ∀ a, o = some a → WP P c Q E (f a) h ws w) : WP P c Q E ((Tx.orFail o e).bind f) h ws w := by
  cases o with
  | none => exact hE rfl
  | some a => exact hf a rfl

theorem wp_mono {Q Q' : γ → Set κ → List ρ → World σ ε α ι → Prop} {E' : ε → Set κ → World σ ε α ι → Prop}
    {x : Tx σ κ ρ ε χ β γ} (hQ : ∀ a h ws w, Q a h ws w → Q' a h ws w) (hE : ∀ e h w, E e h w → E' e h w)
    (hx : WP P c Q E x h ws w) : WP P c Q' E' x h ws w := by
  induction x generalizing h ws w with
  | done a => exact hQ _ _ _ _ hx
  | fail e => exact hE _ _ _ hx
  | stmt l wr k ih => exact fun w' hr hi => ih _ (hx w' hr hi)
  | call y k ih => exact fun w' hr hi => ⟨(hx w' hr hi).1, fun b => ih _ ((hx w' hr hi).2 b)⟩

/-- a writing statement: it fails, or its rows are written and locked -/
theorem wp_execute_bind {wr : σ → Except ε (List ρ)} {f : Unit → Tx σ κ ρ ε χ β δ}
    (hE : ∀ w' e, P.Rely h w w' → P.Inv w' → wr (putAll ws w'.db) = .error e → E e h w')
    (hf : ∀ w' rows, P.Rely h w w' → P.Inv w' → wr (putAll ws w'.db) = .ok rows →
      WP P c Q E (f ()) (h ∪ {k | k ∈ rows.map (key σ)}) (ws ++ rows) w') :
    WP P c Q E ((Tx.execute wr).bind f) h ws w := by
  intro w' hr hi
  cases hw : wr (putAll ws w'.db) with
  | error e => simpa [needed, hw, WP] using hE w' e hr hi hw
  | ok rows => simpa [needed, hw, WP] using hf w' rows hr hi hw

theorem wp_execute {wr : σ → Except ε (List ρ)} {Q : Unit → Set κ → List ρ → World σ ε α ι → Prop}
    (hE : ∀ w' e, P.Rely h w w' → P.Inv w' → wr (putAll ws w'.db) = .error e → E e h w')
    (hQ : ∀ w' rows, P.Rely h w w' → P.Inv w' → wr (putAll ws w'.db) = .ok rows →
      Q () (h ∪ {k | k ∈ rows.map (key σ)}) (ws ++ rows) w') :
    WP P c Q E (Tx.execute wr : Tx σ κ ρ ε χ β Unit) h ws w := by
  intro w' hr hi
  cases hw : wr (putAll ws w'.db) with
  | error e => simpa [needed, hw, WP] using hE w' e hr hi hw
  | ok rows => simpa [needed, hw, WP] using hQ w' rows hr hi hw

/-- a conditional part; `R` is what holds after it, whether or not it ran -/
theorem wp_when_bind {R : Set κ → List ρ → World σ ε α ι → Prop} {p : Prop} [Decidable p]
    {x : Tx σ κ ρ ε χ β Unit} {f : Unit → Tx σ κ ρ ε χ β δ} (hx : p → WP P c (fun _ => R) E x h ws w) (hn : ¬p → R h ws w)
    (hf : ∀ h ws w, R h ws w → WP P c Q E (f ()) h ws w) : WP P c Q E ((Tx.when p x).bind f) h ws w := by
  unfold Tx.when
  split_ifs with hp
  · exact wp_bind (wp_mono (fun _ h ws w hR => hf h ws w hR) (fun _ _ _ => id) (hx hp))
  · exact hf h ws w (hn hp)

/-- a part of which only what it stores matters -/
theorem wp_emits {R : γ → List ρ → Prop} {Q : γ → Set κ → List ρ → World σ ε α ι → Prop} {x : Tx σ κ ρ ε χ β γ}
    (hx : x.Emits R) (hcall : ∀ y vs w', P.atCall c y vs w')
    (hE : ∀ e h' w', h ⊆ h' → P.Rely h w w' → E e h' w')
    (hQ : ∀ a h' vs w', h ⊆ h' → P.Rely h w w' → R a vs → Q a h' (ws ++ vs) w') : WP P c Q E x h ws w := by
  induction x generalizing h ws w R with
  | done a =>
    have := hQ a h [] w subset_rfl (.refl h w) hx
    rwa [List.append_nil] at this
  | fail e => exact hE e h w subset_rfl (.refl h w)
  | stmt l wr k ih =>
    intro w' hr hi
    -- more locks are held from here on, and the rows of this statement come before those of the rest
    refine ih _ (hx _) (fun e h' w'' hh hr' => ?_) fun a h' vs w'' hh hr' hR => ?_
    · exact hE e h' w'' (Set.subset_union_left.trans hh) (hr.trans (hr'.mono Set.subset_union_left))
    · rw [List.append_assoc]
      exact hQ a h' _ w'' (Set.subset_union_left.trans hh) (hr.trans (hr'.mono Set.subset_union_left)) hR
  | call y k ih =>
    intro w' hr hi
    refine ⟨hcall y ws w', fun b => ih b (hx b) (fun e h' w'' hh hr' => ?_) fun a h' vs w'' hh hr' hR => ?_⟩
    · exact hE e h' w'' hh (hr.trans hr')
    · exact hQ a h' vs w'' hh (hr.trans hr') hR

end Sequence

/-- a part that stores nothing, followed by the rest -/
theorem wp_reads_bind {c : ι} {γ δ : Type} {Q : δ → Set κ → List ρ → World σ ε α ι → Prop}
    {E : ε → Set κ → World σ ε α ι → Prop} {h : Set κ} {ws : List ρ} {w : World σ ε α ι} {x : Tx σ κ ρ ε χ β γ}
    {f : γ → Tx σ κ ρ ε χ β δ} (hx : x.Emits fun _ vs => vs = []) (hcall : ∀ y vs w', P.atCall c y vs w')
    (hE : ∀ e h' w', h ⊆ h' → P.Rely h w w' → E e h' w')
    (hf : ∀ a h' w', h ⊆ h' → P.Rely h w w' → WP P c Q E (f a) h' ws w') : WP P c Q E (x.bind f) h ws w := by
  refine wp_bind (wp_emits hx hcall hE fun a h' vs w' hh hr hvs => ?_)
  rw [hvs, List.append_nil]
  exact hf a h' w' hh hr

/-- interference that the locks allow keeps a transaction safe -/
theorem Safe.rely {c : ι} {x : Tx σ κ ρ ε χ β α} {h : Set κ} {ws : List ρ} {w w' : World σ ε α ι}
    (hs : Safe P c x h ws w) (hr : P.Rely h w w') : Safe P c x h ws w' := by
  cases x with
  | done a => exact fun v hv hi => hs v (hr.trans hv) hi
  | fail e => exact fun v hv hi => hs v (hr.trans hv) hi
  | stmt l wr k => exact fun v hv hi => hs v (hr.trans hv) hi
  | call y k => exact fun v hv hi => hs v (hr.trans hv) hi

/-- a call that needs no locks for what the protocol asks: only what it stores matters -/
theorem safe_of_emits {c : ι} {x : Tx σ κ ρ ε χ β α} {R : α → List ρ → Prop} {w : World σ ε α ι} (hx : x.Emits R)
    (hcall : ∀ y vs w', P.atCall c y vs w')
    (hend : ∀ out h ws w', (∀ a, out = .ok a → R a ws) → (∀ e, out = .error e → ws = []) → Ending P c h ws w' →
      P.Inv (w'.finish c out ws) ∧ ∀ h', Disjoint h h' → P.rely h' w' (w'.finish c out ws)) :
    Safe P c x ∅ [] w := by
  refine wp_emits hx hcall (fun e h' w' _ _ v _ hv => ?_) fun a h' vs w' _ _ hR v _ hv => ?_
  · exact hend _ h' [] v (by simp) (by simp) hv
  · exact hend _ h' vs v (fun b hb => Except.ok.inj hb ▸ hR) (by simp) hv

end Rule

/-! ## Soundness -/

/-- the locks transaction `i` holds -/
def held (s : Sys σ κ ρ ε χ β α ι) (i : ℕ) : Set κ := {k | s.owner k = some i}

theorem held_disjoint (s : Sys σ κ ρ ε χ β α ι) {i j : ℕ} (h : i ≠ j) : Disjoint (held s i) (held s j) := by
  refine Set.disjoint_left.mpr fun k hi hj => h ?_
  simp only [held, Set.mem_ofPred_eq] at hi hj
  exact Option.some.inj (hi.symm.trans hj)

section Soundness
variable [RowStore σ κ ρ]

/-- the programs and the environment keep to the protocol -/
structure Implements (P : Protocol σ κ ρ ε χ α ι) (code : ι → Tx σ κ ρ ε χ β α) (tick : η → σ → σ) : Prop where
  writes : ∀ c, (code c).Writes (P.guard c)
  safe : ∀ c w, P.Inv w → Safe P c (code c) ∅ [] w
  tick_look : ∀ e d k, look (tick e d) k = look d k
  tick_inv : ∀ e w, P.Inv w → P.Inv { w with db := tick e w.db }
  tick_rely : ∀ e h w, P.Inv w → P.rely h w { w with db := tick e w.db }

/-- what the protocol promises of one open transaction -/
structure Stands (P : Protocol σ κ ρ ε χ α ι) (h : Set κ) (w : World σ ε α ι) (t : Txn σ κ ρ ε χ β α ι) : Prop where
  safe : Safe P t.call t.prog h t.pending w
  writes : t.prog.Writes (P.guard t.call)
  follow : Follow (P.guard t.call) w.db t.pending
  locked : ∀ r ∈ t.pending, key σ r ∈ h

/-- the committed world is invariant, only open transactions own locks, and every open transaction stands well -/
structure Good (P : Protocol σ κ ρ ε χ α ι) (s : Sys σ κ ρ ε χ β α ι) : Prop where
  inv : P.Inv s.world
  owned : ∀ k i, s.owner k = some i → (s.txns i).isSome
  stands : ∀ i t, s.txns i = some t → Stands P (held s i) s.world t

theorem good_start {d : σ} (h : P.Inv ⟨d, []⟩) : Good P (start d : Sys σ κ ρ ε χ β α ι) :=
  ⟨h, fun _ _ h => by simp [start] at h, fun _ _ h => by simp [start] at h⟩

variable {P}

theorem Stands.rely {h : Set κ} {w w' : World σ ε α ι} {t : Txn σ κ ρ ε χ β α ι} (ht : Stands P h w t)
    (hr : P.Rely h w w') : Stands P h w' t :=
  ⟨ht.safe.rely hr, ht.writes, follow_congr (fun r hr' => (hr.frozen _ (ht.locked r hr')).symm) ht.follow, ht.locked⟩

/-- rows under other locks are not touched by an ending transaction -/
theorem Stands.frozen {h h' : Set κ} {w : World σ ε α ι} {t : Txn σ κ ρ ε χ β α ι} (ht : Stands P h w t)
    (hd : Disjoint h h') : Frozen h' w.db (putAll t.pending w.db) := by
  intro k hk
  refine look_putAll _ _ _ fun hmem => ?_
  obtain ⟨r, hr, rfl⟩ := List.mem_map.mp hmem
  exact Set.disjoint_left.mp hd (ht.locked r hr) hk

/-- ending transaction `i` hands every other one a world it relies on -/
theorem Good.close {s : Sys σ κ ρ ε χ β α ι} (hg : Good P s) (i : ℕ) (w : World σ ε α ι) (hi : P.Inv w)
    (hr : ∀ j, j ≠ i → P.Rely (held s j) s.world w) : Good P { s.close i with world := w } := by
  refine ⟨hi, fun k j hk => ?_, fun j t hj => ?_⟩
  · simp only [Sys.close] at hk ⊢
    split_ifs at hk with ho
    have hji : j ≠ i := by rintro rfl; exact ho hk
    simpa [hji] using hg.owned k j hk
  · simp only [Sys.close] at hj
    split_ifs at hj with hji
    have hheld : held { s.close i with world := w } j = held s j := by
      ext k
      simp only [held, Sys.close, Set.mem_ofPred_eq]
      split_ifs with ho
      · simp [ho, Ne.symm hji]
      · rfl
    rw [hheld]
    exact (hg.stands j t hj).rely (hr j hji)

/-- replacing the program of transaction `i` after it took the locks `need` -/
theorem Good.advance [DecidableEq κ] {s : Sys σ κ ρ ε χ β α ι} (hg : Good P s) (i : ℕ) (need : List κ)
    (hfree : ∀ k ∈ need, s.owner k = none ∨ s.owner k = some i) (t : Txn σ κ ρ ε χ β α ι)
    (ht : Stands P (held s i ∪ {k | k ∈ need}) s.world t) :
    Good P ({ s with owner := fun k => if k ∈ need then some i else s.owner k }.set i t) := by
  have hheld : ∀ j, j ≠ i → held ({ s with owner := fun k => if k ∈ need then some i else s.owner k }.set i t) j =
      held s j := by
    intro j hj
    ext k
    simp only [held, Sys.set, Set.mem_ofPred_eq]
    split_ifs with hk
    · rcases hfree k hk with h | h <;> simp [h, Ne.symm hj]
    · rfl
  refine ⟨hg.inv, fun k j hk => ?_, fun j t' hj => ?_⟩
  · by_cases hji : j = i
    · simp [Sys.set, hji]
    · have : k ∈ held s j := hheld j hji ▸ hk
      simpa [Sys.set, hji] using hg.owned k j this
  · by_cases hji : j = i
    · subst hji
      have hself : held ({ s with owner := fun k => if k ∈ need then some j else s.owner k }.set j t) j =
          held s j ∪ {k | k ∈ need} := by
        ext k
        by_cases hk : k ∈ need <;> simp [held, Sys.set, hk]
      obtain rfl : t = t' := by simpa [Sys.set] using hj
      rw [hself]
      exact ht
    · rw [hheld j hji]
      exact hg.stands j t' (by simpa [Sys.set, hji] using hj)

/-- a transaction that takes no new lock -/
theorem Good.set {s : Sys σ κ ρ ε χ β α ι} (hg : Good P s) (i : ℕ) (t : Txn σ κ ρ ε χ β α ι)
    (ht : Stands P (held s i) s.world t) : Good P (s.set i t) := by
  classical
  simpa using hg.advance i [] (by simp) t (by simpa using ht)

/-- one statement: its rows replace the versions it saw, and their locks are taken -/
theorem Stands.stmt {h : Set κ} {w : World σ ε α ι} {c : ι} {l : σ → List κ} {wr : σ → List ρ}
    {k : σ → Tx σ κ ρ ε χ β α} {ws : List ρ} (ht : Stands P h w ⟨c, .stmt l wr k, ws⟩) (hi : P.Inv w) :
    Stands P (h ∪ {x | x ∈ needed l wr (putAll ws w.db)}) w
      ⟨c, k (putAll ws w.db), ws ++ wr (putAll ws w.db)⟩ := by
  have hw := ht.writes (putAll ws w.db)
  refine ⟨ht.safe w (.refl h w) hi, hw.2, follow_append.mpr ⟨ht.follow, hw.1⟩, fun r hr => ?_⟩
  rcases List.mem_append.mp hr with hr | hr
  · exact .inl (ht.locked r hr)
  · exact .inr (List.mem_append_right _ (List.mem_map_of_mem hr))

/-- the end of a transaction -/
theorem Stands.finish {h : Set κ} {w : World σ ε α ι} {c : ι} {x : Tx σ κ ρ ε χ β α} {ws : List ρ}
    (ht : Stands P h w ⟨c, x, ws⟩) (hi : P.Inv w) {out : Except ε α} (he : Ends P c out h ws w) :
    P.Inv (w.finish c out ws) ∧ ∀ h', Disjoint h h' → P.Rely h' w (w.finish c out ws) := by
  have hend := he w (.refl h w) ⟨hi, ht.follow, ht.locked⟩
  exact ⟨hend.1, fun h' hd => ⟨hend.2 h' hd, ht.frozen hd⟩⟩

variable [DecidableEq κ] {code : ι → Tx σ κ ρ ε χ β α} {tick : η → σ → σ}

theorem step_good (hP : Implements P code tick) (s : Sys σ κ ρ ε χ β α ι) (a : Act β ι η) (hg : Good P s) :
    Good P (step code tick s a) ∧ P.rely ∅ s.world (step code tick s a).world := by
  cases a with
  | begin i c =>
    simp only [step]
    cases hi : s.txns i with
    | some t => exact ⟨hg, P.refl _ _⟩
    | none =>
      have hnone : held s i = ∅ := by
        ext k
        simp only [held, Set.mem_ofPred_eq, Set.mem_empty_iff_false, iff_false]
        intro hk
        simpa [hi] using hg.owned k i hk
      exact ⟨hg.set i _ (hnone ▸ ⟨hP.safe c s.world hg.inv, hP.writes c, trivial, by simp⟩), P.refl _ _⟩
  | exec i =>
    simp only [step]
    split
    · rename_i c l w k ws ht
      split_ifs with hfree
      · refine ⟨hg.advance i _ (fun k hk => ?_) _ ((hg.stands i _ ht).stmt hg.inv), P.refl _ _⟩
        simpa using List.all_eq_true.mp hfree k hk
      · exact ⟨hg, P.refl _ _⟩
    · exact ⟨hg, P.refl _ _⟩
  | answer i b =>
    simp only [step]
    split
    · rename_i c x k ws ht
      have hs := hg.stands i _ ht
      refine ⟨hg.set i _ ⟨?_, hs.writes b, hs.follow, hs.locked⟩, P.refl _ _⟩
      exact (hs.safe s.world (.refl _ _) hg.inv).2 b
    · exact ⟨hg, P.refl _ _⟩
  | finish i =>
    simp only [step]
    split
    · rename_i c a ws ht
      have hs := (hg.stands i _ ht).finish hg.inv (hg.stands i _ ht).safe
      exact ⟨hg.close i _ hs.1 fun j hj => hs.2 _ (held_disjoint s hj.symm), (hs.2 ∅ (by simp)).rely⟩
    · rename_i c e ws ht
      -- a failed transaction stores nothing, so it stands as if it had written nothing
      have hs0 : Stands P (held s i) s.world ⟨c, (.fail e : Tx σ κ ρ ε χ β α), []⟩ :=
        ⟨(hg.stands i _ ht).safe, trivial, trivial, by simp⟩
      have hs := hs0.finish hg.inv (hg.stands i _ ht).safe
      exact ⟨hg.close i _ hs.1 fun j hj => hs.2 _ (held_disjoint s hj.symm), (hs.2 ∅ (by simp)).rely⟩
    · exact ⟨hg, P.refl _ _⟩
  | rollback i => exact ⟨hg.close i s.world hg.inv fun j _ => .refl _ _, P.refl _ _⟩
  | env e =>
    refine ⟨⟨hP.tick_inv e _ hg.inv, hg.owned, fun i t ht => (hg.stands i t ht).rely ?_⟩, hP.tick_rely e _ _ hg.inv⟩
    exact ⟨hP.tick_rely e _ _ hg.inv, fun k _ => hP.tick_look e _ k⟩

theorem run_good (hP : Implements P code tick) (acts : List (Act β ι η)) (s : Sys σ κ ρ ε χ β α ι) (hg : Good P s) :
    Good P (run code tick s acts) ∧ P.rely ∅ s.world (run code tick s acts).world := by
  induction acts generalizing s with
  | nil => exact ⟨hg, P.refl _ _⟩
  | cons a acts ih =>
    have hstep := step_good hP s a hg
    have hrun := ih _ hstep.1
    exact ⟨hrun.1, P.trans hstep.2 hrun.2⟩

/-- **Soundness.** The protocol's invariant holds of the committed world in every run. -/
theorem run_inv (hP : Implements P code tick) (acts : List (Act β ι η)) (d : σ) (h : P.Inv ⟨d, []⟩) :
    P.Inv (run code tick (start d) acts).world :=
  (run_good hP acts _ (good_start P h)).1.inv

/-- **Any two points of a run** are related by what everyone relies on. -/
theorem run_rely (hP : Implements P code tick) (acts more : List (Act β ι η)) (d : σ) (h : P.Inv ⟨d, []⟩) :
    P.rely ∅ (run code tick (start d) acts).world (run code tick (start d) (acts ++ more)).world := by
  have hg := (run_good hP acts _ (good_start P h)).1
  simpa [run, List.foldl_append] using (run_good hP more _ hg).2

/-- **Outside calls.** What the protocol claims at outside calls holds whenever a transaction stands at one. -/
theorem run_call (hP : Implements P code tick) (acts : List (Act β ι η)) (d : σ) (h : P.Inv ⟨d, []⟩) (i : ℕ) (c : ι)
    (x : χ) (k : β → Tx σ κ ρ ε χ β α) (ws : List ρ)
    (ht : (run code tick (start d) acts).txns i = some ⟨c, .call x k, ws⟩) :
    P.atCall c x ws (run code tick (start d) acts).world := by
  have hg := (run_good hP acts _ (good_start P h)).1
  exact ((hg.stands i _ ht).safe _ (.refl _ _) hg.inv).1

end Soundness

end Crane.Interleave
