/-
Sequential programs that run in the middle of other activity.

A program asks requests one after the other and goes on with each answer; between two requests anything may happen.
`Rules` says what that can be from the party's point of view: how what it sees may change while it does not act
(`rely`), and how each of its requests may be answered (`answer`). `Safe` is the weakest condition under which every
request the program will ever make meets its `guard`; it is stable under interference by construction (`Safe.rely`).
-/
import Mathlib.Data.Nat.Notation

namespace Crane

variable {Q : Type} {R : Q → Type} {σ α β : Type}

inductive Prog (Q : Type) (R : Q → Type) (α : Type) where
  | ret (a : α)
  | stop
  | ask (q : Q) (next : R q → Prog Q R α)

namespace Prog

def bind : Prog Q R α → (α → Prog Q R β) → Prog Q R β
  | ret a, f => f a
  | stop, _ => stop
  | ask q k, f => ask q fun r => (k r).bind f

instance : Monad (Prog Q R) where
  pure := ret
  bind := bind

@[simp] theorem pure_eq (a : α) : (pure a : Prog Q R α) = ret a := rfl

@[simp] theorem bind_eq (p : Prog Q R α) (f : α → Prog Q R β) : p >>= f = p.bind f := rfl

@[simp] theorem ret_bind (a : α) (f : α → Prog Q R β) : (ret a : Prog Q R α).bind f = f a := rfl

@[simp] theorem stop_bind (f : α → Prog Q R β) : (stop : Prog Q R α).bind f = stop := rfl

@[simp] theorem ask_bind (q : Q) (k : R q → Prog Q R α) (f : α → Prog Q R β) :
    (ask q k).bind f = ask q fun r => (k r).bind f := rfl

/-- every request the program may ever make is in `G` -/
def Asks (G : Q → Prop) : Prog Q R α → Prop
  | ret _ => True
  | stop => True
  | ask q k => G q ∧ ∀ r, (k r).Asks G

theorem asks_bind {G : Q → Prop} {p : Prog Q R α} {f : α → Prog Q R β} (hp : p.Asks G) (hf : ∀ a, (f a).Asks G) :
    (p.bind f).Asks G := by
  induction p with
  | ret a => exact hf a
  | stop => trivial
  | ask q k ih => exact ⟨hp.1, fun r => ih r (hp.2 r)⟩

theorem Asks.mono {G G' : Q → Prop} (h : ∀ q, G q → G' q) {p : Prog Q R α} (hp : p.Asks G) : p.Asks G' := by
  induction p with
  | ret a => trivial
  | stop => trivial
  | ask q k ih => exact ⟨h q hp.1, fun r => ih r (hp.2 r)⟩

/-- every request is in `G`, and the program does not stop -/
def Goes (G : Q → Prop) : Prog Q R α → Prop
  | ret _ => True
  | stop => False
  | ask q k => G q ∧ ∀ r, (k r).Goes G

theorem goes_bind {G : Q → Prop} {p : Prog Q R α} {f : α → Prog Q R β} (hp : p.Goes G) (hf : ∀ a, (f a).Goes G) :
    (p.bind f).Goes G := by
  induction p with
  | ret a => exact hf a
  | stop => exact hp
  | ask q k ih => exact ⟨hp.1, fun r => ih r (hp.2 r)⟩

theorem Goes.mono {G G' : Q → Prop} (h : ∀ q, G q → G' q) {p : Prog Q R α} (hp : p.Goes G) : p.Goes G' := by
  induction p with
  | ret a => trivial
  | stop => exact hp
  | ask q k ih => exact ⟨h q hp.1, fun r => ih r (hp.2 r)⟩

theorem Goes.asks {G : Q → Prop} {p : Prog Q R α} (hp : p.Goes G) : p.Asks G := by
  induction p with
  | ret a => trivial
  | stop => trivial
  | ask q k ih => exact ⟨hp.1, fun r => ih r (hp.2 r)⟩

/-- what the program returns if each request is always answered in one way -/
def under (ans : (q : Q) → R q) : Prog Q R α → Option α
  | ret a => some a
  | stop => none
  | ask q k => (k (ans q)).under ans

theorem under_bind (ans : (q : Q) → R q) (p : Prog Q R α) (f : α → Prog Q R β) :
    (p.bind f).under ans = (p.under ans).bind fun a => (f a).under ans := by
  induction p with
  | ret a => rfl
  | stop => rfl
  | ask q k ih => exact ih (ans q)

/-- a monitor `γ` runs along: every request meets its guard, valid answers move the monitor, and the result meets `post` -/
def Along {γ : Type} (guard : Q → γ → Prop) (valid : (q : Q) → R q → Prop) (next : (q : Q) → R q → γ → γ)
    (post : α → γ → Prop) : Prog Q R α → γ → Prop
  | ret a, g => post a g
  | stop, _ => True
  | ask q k, g => guard q g ∧ ∀ r, valid q r → (k r).Along guard valid next post (next q r g)

section Along
variable {γ : Type} {guard : Q → γ → Prop} {valid : (q : Q) → R q → Prop} {next : (q : Q) → R q → γ → γ}

theorem along_bind {post : β → γ → Prop} {p : Prog Q R α} {f : α → Prog Q R β} {g : γ}
    (h : p.Along guard valid next (fun a g => (f a).Along guard valid next post g) g) :
    (p.bind f).Along guard valid next post g := by
  induction p generalizing g with
  | ret a => exact h
  | stop => trivial
  | ask q k ih => exact ⟨h.1, fun r hr => ih r (h.2 r hr)⟩

theorem along_mono {post post' : α → γ → Prop} (hpost : ∀ a g, post a g → post' a g) {p : Prog Q R α} {g : γ}
    (h : p.Along guard valid next post g) : p.Along guard valid next post' g := by
  induction p generalizing g with
  | ret a => exact hpost a g h
  | stop => trivial
  | ask q k ih => exact ⟨h.1, fun r hr => ih r (h.2 r hr)⟩

/-- requests that meet their guard whatever the monitor says -/
theorem along_of_asks {post : α → γ → Prop} (hpost : ∀ a g, post a g) {p : Prog Q R α}
    (hp : p.Asks fun q => ∀ g, guard q g) (g : γ) : p.Along guard valid next post g := by
  induction p generalizing g with
  | ret a => exact hpost a g
  | stop => trivial
  | ask q k ih => exact ⟨hp.1 g, fun r _ => ih r (hp.2 r) _⟩

end Along

/-- an execution whose answers are all in `ok`; `perform` is what a request and its answer do -/
inductive Path (ok : (q : Q) → R q → Prop) (perform : (q : Q) → R q → σ → σ) : Prog Q R α → σ → α → σ → Prop
  | ret (a : α) (s : σ) : Path ok perform (.ret a) s a s
  | ask {q : Q} {k : R q → Prog Q R α} {s s' : σ} {a : α} (r : R q) (hr : ok q r)
      (h : Path ok perform (k r) (perform q r s) a s') : Path ok perform (.ask q k) s a s'

/-- the program, if its requests are only answered in `ok` -/
def restrict (ok : (q : Q) → R q → Prop) : Prog Q R α → Prog Q (fun q => { r : R q // ok q r }) α
  | ret a => ret a
  | stop => stop
  | ask q k => ask q fun r => (k r.1).restrict ok

theorem restrict_bind (ok : (q : Q) → R q → Prop) (p : Prog Q R α) (f : α → Prog Q R β) :
    (p.bind f).restrict ok = (p.restrict ok).bind fun a => (f a).restrict ok := by
  induction p with
  | ret a => rfl
  | stop => rfl
  | ask q k ih => simp only [ask_bind, restrict, ih]

theorem Goes.restrict {G : Q → Prop} {ok : (q : Q) → R q → Prop} {p : Prog Q R α} (hp : p.Goes G) :
    (p.restrict ok).Goes G := by
  induction p with
  | ret a => trivial
  | stop => exact hp
  | ask q k ih => exact ⟨hp.1, fun r => ih r.1 (hp.2 r.1)⟩

/-- the value that a program passes on -/
theorem path_bind {ok : (q : Q) → R q → Prop} {perform : (q : Q) → R q → σ → σ} {p : Prog Q R α} {f : α → Prog Q R β}
    {s s' : σ} {b : β} (h : (p.bind f).Path ok perform s b s') :
    ∃ a t, p.Path ok perform s a t ∧ (f a).Path ok perform t b s' := by
  induction p generalizing s with
  | ret a => exact ⟨a, s, .ret a s, h⟩
  | stop => cases h
  | ask q k ih =>
    cases h with
    | ask r hr h =>
      obtain ⟨a, t, hp, hf⟩ := ih r h
      exact ⟨a, t, .ask r hr hp, hf⟩

end Prog

/-- what a party of a concurrent system may count on -/
structure Rules (Q : Type) (R : Q → Type) (σ : Type) where
  rely : σ → σ → Prop
  refl : ∀ s, rely s s
  trans : ∀ {s t u}, rely s t → rely t u → rely s u
  guard : Q → σ → Prop
  answer : (q : Q) → σ → R q → σ → Prop

variable (P : Rules Q R σ)

/-- every request, now and later, meets its guard -/
def Safe : Prog Q R α → σ → Prop
  | .ret _, _ => True
  | .stop, _ => True
  | .ask q k, s => ∀ t, P.rely s t → P.guard q t ∧ ∀ r u, P.answer q t r u → Safe (k r) u

variable {P}

/-- interference keeps a program safe -/
theorem Safe.rely {p : Prog Q R α} {s t : σ} (h : Safe P p s) (hr : P.rely s t) : Safe P p t := by
  cases p with
  | ret a => trivial
  | stop => trivial
  | ask q k => exact fun u hu => h u (P.trans hr hu)

/-- requests that meet their guard in every state -/
theorem safe_of_asks {G : Q → Prop} {p : Prog Q R α} (hG : ∀ q s, G q → P.guard q s) (hp : p.Asks G) (s : σ) :
    Safe P p s := by
  induction p generalizing s with
  | ret a => trivial
  | stop => trivial
  | ask q k ih => exact fun t _ => ⟨hG q t hp.1, fun r u _ => ih r (hp.2 r) u⟩

/-- every request meets its guard, and the result meets `post`; a rule for `bind` -/
def SafeTo (P : Rules Q R σ) (post : α → σ → Prop) : Prog Q R α → σ → Prop
  | .ret a, s => post a s
  | .stop, _ => True
  | .ask q k, s => ∀ t, P.rely s t → P.guard q t ∧ ∀ r u, P.answer q t r u → SafeTo P post (k r) u

theorem safeTo_bind {post : β → σ → Prop} {p : Prog Q R α} {f : α → Prog Q R β} {s : σ}
    (h : SafeTo P (fun a s => SafeTo P post (f a) s) p s) : SafeTo P post (p.bind f) s := by
  induction p generalizing s with
  | ret a => exact h
  | stop => trivial
  | ask q k ih => exact fun t ht => ⟨(h t ht).1, fun r u hu => ih r ((h t ht).2 r u hu)⟩

theorem SafeTo.mono {post post' : α → σ → Prop} (hpost : ∀ a s, post a s → post' a s) {p : Prog Q R α} {s : σ}
    (h : SafeTo P post p s) : SafeTo P post' p s := by
  induction p generalizing s with
  | ret a => exact hpost a s h
  | stop => trivial
  | ask q k ih => exact fun t ht => ⟨(h t ht).1, fun r u hu => ih r ((h t ht).2 r u hu)⟩

theorem safe_of_safeTo (post : α → σ → Prop) {p : Prog Q R α} {s : σ} (h : SafeTo P post p s) : Safe P p s := by
  induction p generalizing s with
  | ret a => trivial
  | stop => trivial
  | ask q k ih => exact fun t ht => ⟨(h t ht).1, fun r u hu => ih r ((h t ht).2 r u hu)⟩

/-- runs the program alone; `reply n` answers its n-th request and changes the state, or the program ends there -/
def Prog.exec (reply : ℕ → (q : Q) → σ → Option (R q × σ)) : ℕ → Prog Q R α → σ → σ × Option α
  | _, .ret a, s => (s, some a)
  | _, .stop, s => (s, none)
  | n, .ask q k, s => match reply n q s with
    | none => (s, none)
    | some (r, s') => (k r).exec reply (n + 1) s'

/-- what every guarded request keeps holds in the end, with the postcondition of a program that has returned -/
theorem SafeTo.exec {post : α → σ → Prop} {reply : ℕ → (q : Q) → σ → Option (R q × σ)} {I : σ → Prop}
    (hreply : ∀ n q s r s', reply n q s = some (r, s') → P.answer q s r s')
    (hI : ∀ q s r s', I s → P.guard q s → P.answer q s r s' → I s') {p : Prog Q R α} {s : σ} (h : SafeTo P post p s)
    (hs : I s) (n : ℕ) : I (p.exec reply n s).1 ∧ ∀ a, (p.exec reply n s).2 = some a → post a (p.exec reply n s).1 := by
  induction p generalizing s n with
  | ret a =>
    refine ⟨hs, ?_⟩
    rintro _ ⟨⟩
    exact h
  | stop => exact ⟨hs, nofun⟩
  | ask q k ih =>
    obtain ⟨hguard, hnext⟩ := h s (P.refl s)
    unfold Prog.exec
    cases hr : reply n q s with
    | none => exact ⟨hs, nofun⟩
    | some a =>
      have ha := hreply n q s a.1 a.2 hr
      exact ih a.1 (hnext a.1 a.2 ha) (hI q s a.1 a.2 hs hguard ha) (n + 1)

/-- a request that is about to be made -/
theorem Safe.ask {q : Q} {k : R q → Prog Q R α} {s : σ} (h : Safe P (.ask q k) s) :
    P.guard q s ∧ ∀ r u, P.answer q s r u → Safe P (k r) u := h s (P.refl s)

end Crane
