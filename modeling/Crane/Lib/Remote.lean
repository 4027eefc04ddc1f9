/-
Programs against a remote service.

Others use the service between two requests of the program. A request is carried out and answered, or an error comes back
and the program cannot know whether it was carried out, or the program crashes.
-/
import Crane.Lib.Session

namespace Crane

variable {Q : Type} {V : Q → Type} {E O L σ α : Type}

structure Remote (Q : Type) (V : Q → Type) (E O L σ : Type) where
  serve : (q : Q) → σ → Except E (V q) × σ
  others : O → σ → σ
  /-- what the program sees when the connection fails -/
  error : L → E

namespace Remote

/-- what others do first, and what becomes of the request -/
inductive Fate (O L : Type) where
  | served (o : O)
  | lost (o : O) (e : L)
  | refused (o : O) (e : L)

def answer (S : Remote Q V E O L σ) (q : Q) (s : σ) : Fate O L → Except E (V q) × σ
  | .served o => S.serve q (S.others o s)
  | .lost o e => (.error (S.error e), (S.serve q (S.others o s)).2)
  | .refused o e => (.error (S.error e), S.others o s)

/-- the program runs until it returns, or crashes at a request without a fate -/
def run (S : Remote Q V E O L σ) (fates : ℕ → Option (Fate O L)) (p : Prog Q (fun q => Except E (V q)) α) (s : σ) :
    σ × Option α := p.exec (fun n q s => (fates n).map (S.answer q s)) 0 s

def rules (S : Remote Q V E O L σ) (guard : Q → σ → Prop) : Rules Q (fun q => Except E (V q)) σ where
  rely := Eq
  refl _ := rfl
  trans := Eq.trans
  guard := guard
  answer q s r s' := ∃ f, S.answer q s f = (r, s')

variable {S : Remote Q V E O L σ} {guard : Q → σ → Prop} {post : α → σ → Prop} {s : σ}

/-- a request: it is served, or the program goes on with an error -/
theorem safeTo_ask {q : Q} {k : Except E (V q) → Prog Q (fun q => Except E (V q)) α} (hq : guard q s)
    (hserve : ∀ o, SafeTo (S.rules guard) post (k (S.serve q (S.others o s)).1) (S.serve q (S.others o s)).2)
    (hfail : ∀ e s, SafeTo (S.rules guard) post (k (.error (S.error e))) s) : SafeTo (S.rules guard) post (.ask q k) s := by
  rintro _ rfl
  refine ⟨hq, ?_⟩
  rintro r u ⟨o | _ | _, hr⟩
  · rw [answer] at hr
    simpa only [hr] using hserve o
  · exact (Prod.mk.inj hr).1 ▸ hfail _ u
  · exact (Prod.mk.inj hr).1 ▸ hfail _ u

/-- what others and guarded requests keep holds in the end, with the postcondition of a program that has returned -/
theorem run_safe {I : σ → Prop} {p : Prog Q (fun q => Except E (V q)) α} (hothers : ∀ o s, I s → I (S.others o s))
    (hguard : ∀ o q s, guard q s → guard q (S.others o s)) (hserve : ∀ q s, guard q s → I s → I (S.serve q s).2)
    (h : SafeTo (S.rules guard) post p s) (hs : I s) (fates : ℕ → Option (Fate O L)) :
    I (S.run fates p s).1 ∧ ∀ a, (S.run fates p s).2 = some a → post a (S.run fates p s).1 := by
  refine SafeTo.exec (fun n q s r s' hr => ?_) ?_ h hs 0
  · obtain ⟨f, -, hf⟩ := Option.map_eq_some_iff.mp hr
    exact ⟨f, hf⟩
  · rintro q s r s' hs hq ⟨f, hf⟩
    obtain rfl : (S.answer q s f).2 = s' := congrArg Prod.snd hf
    cases f with
    | refused o e => exact hothers o s hs
    | _ => exact hserve q _ (hguard _ q s hq) (hothers _ s hs)

end Remote

end Crane
