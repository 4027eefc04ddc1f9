/-
Rewriting texts that differ in one place only. A text is `A ++ (U ++ (v ++ R))`: a secret `v` stands between the texts `U`
and `R`, which do not change, and `A` is what may be before them.

A rule treats all secrets alike if, at every place before the secret, it finds no match for any secret, or the same match
in front of `U` for all of them, or the same match that covers the secret for all of them (`Scan`). Its output is then the
same text for all secrets, or again texts that differ in the secret only (`rewrite_secret`).
-/
import Crane.Lib.Regex

namespace Crane.Regexp

open Regex

variable {α : Type} {secret : Text → Prop} {U R A : Text}

/-- what a scan finds, whatever the secret is -/
inductive Scan (secret : Text → Prop) (U R A : Text) (f : Text → Option (α × Text)) : Prop
  | fails (h : ∀ v, secret v → f v = none)
  | stops (a : α) (A' : Text) (hA : A' <:+ A) (h : ∀ v, secret v → f v = some (a, A' ++ (U ++ (v ++ R))))
  | covers (a : α) (t : Text) (h : ∀ v, secret v → f v = some (a, t))

/-- the output is the same for all secrets -/
def Constant (secret : Text → Prop) (f : Text → Text) : Prop := ∃ s, ∀ v, secret v → f v = s

namespace Scan

variable {f g : Text → Option (α × Text)}

theorem congr (h : Scan secret U R A f) (hfg : ∀ v, secret v → g v = f v) : Scan secret U R A g := by
  cases h with
  | fails h => exact .fails fun v hv => (hfg v hv).trans (h v hv)
  | stops a A' hA h => exact .stops a A' hA fun v hv => (hfg v hv).trans (h v hv)
  | covers a t h => exact .covers a t fun v hv => (hfg v hv).trans (h v hv)

theorem or (hf : Scan secret U R A f) (hg : Scan secret U R A g) : Scan secret U R A fun v => (f v).or (g v) := by
  cases hf with
  | fails h => exact hg.congr fun v hv => by rw [h v hv, Option.none_or]
  | stops a A' hA h => exact .stops a A' hA fun v hv => by rw [h v hv, Option.some_or]
  | covers a t h => exact .covers a t fun v hv => by rw [h v hv, Option.some_or]

/-- the first of several scans that finds something -/
theorem findSome {ι : Type} {F : ι → Text → Option (α × Text)} (l : List ι) (h : ∀ i ∈ l, Scan secret U R A (F i)) :
    Scan secret U R A fun v => l.findSome? fun i => F i v := by
  induction l with
  | nil => exact .fails fun v _ => rfl
  | cons i l ih =>
    have hrest := ih fun j hj => h j (List.mem_cons_of_mem i hj)
    refine ((h i List.mem_cons_self).or hrest).congr fun v _ => ?_
    rw [List.findSome?_cons]
    cases F i v with
    | none => rfl
    | some x => rfl

end Scan

/-! ## Rules -/

/-- at no place does the rule look at the secret, and no match starts in it -/
structure Rule.Blind (rule : Rule) (secret : Text → Prop) (U R : Text) : Prop where
  scan : ∀ (b : Bool) (A Y : Text), Y <:+ A ++ U → Y ≠ [] →
    Scan secret U R A fun v => rule.attempt b (Y ++ (v ++ R))
  within : ∀ (b : Bool) (v w : Text), secret v → w <:+ v → w ≠ [] → rule.attempt b (w ++ R) = none

variable {rule : Rule} {b : Bool}

theorem Constant.of_eq {f g : Text → Text} (h : Constant secret f) (F : Text → Text)
    (hg : ∀ v, secret v → g v = F (f v)) : Constant secret g := by
  obtain ⟨s, h⟩ := h
  exact ⟨F s, fun v hv => (hg v hv).trans (congrArg F (h v hv))⟩

/-- goes through the text before `U` -/
theorem rewrite_before (h : rule.Blind secret U R) (b : Bool) (A : Text) :
    Constant secret (fun v => rule.rewrite b (A ++ (U ++ (v ++ R)))) ∨
      ∃ (A' : Text) (b' : Bool), ∀ v, secret v →
        rule.rewrite b (A ++ (U ++ (v ++ R))) = A' ++ rule.rewrite b' (U ++ (v ++ R)) := by
  induction hn : A.length using Nat.strong_induction_on generalizing b A with
  | _ n ih =>
    subst hn
    cases A with
    | nil => exact .inr ⟨[], b, fun v _ => rfl⟩
    | cons c A =>
      have hscan := h.scan b (c :: A) (c :: A ++ U) List.suffix_rfl (by simp)
      simp only [List.append_assoc] at hscan
      -- what has been written so far, and what is still to be read
      have hgo : ∀ (out A₁ : Text), A₁.length < (c :: A).length →
          (∀ v, secret v → rule.rewrite b (c :: A ++ (U ++ (v ++ R))) =
            out ++ rule.rewrite false (A₁ ++ (U ++ (v ++ R)))) →
          Constant secret (fun v => rule.rewrite b (c :: A ++ (U ++ (v ++ R)))) ∨
            ∃ (A' : Text) (b' : Bool), ∀ v, secret v →
              rule.rewrite b (c :: A ++ (U ++ (v ++ R))) = A' ++ rule.rewrite b' (U ++ (v ++ R)) := by
        intro out A₁ hlt hout
        rcases ih A₁.length hlt false A₁ rfl with hs | ⟨A', b', hA⟩
        · exact .inl (hs.of_eq (out ++ ·) hout)
        · exact .inr ⟨out ++ A', b', fun v hv => by rw [hout v hv, hA v hv, List.append_assoc]⟩
      cases hscan with
      | fails hf => exact hgo [c] A (by simp) fun v hv => Rule.rewrite_none (hf v hv)
      | stops a A' hA hf =>
        by_cases hsome : ∃ v, secret v
        · obtain ⟨v, hv⟩ := hsome
          have hlt := Rule.attempt_lt (hf v hv)
          simp only [List.length_append] at hlt
          exact hgo a A' (by simp only [List.length_cons] at hlt ⊢; omega) fun v hv => Rule.rewrite_some (hf v hv)
        · exact .inl ⟨[], fun v hv => absurd ⟨v, hv⟩ hsome⟩
      | covers a t hf => exact .inl ⟨a ++ rule.rewrite false t, fun v hv => Rule.rewrite_some (hf v hv)⟩

theorem rewrite_within {w : Text} (h : ∀ b w', w' <:+ w → w' ≠ [] → rule.attempt b (w' ++ R) = none) (hw : w ≠ []) :
    rule.rewrite b (w ++ R) = w ++ rule.rewrite false R := by
  induction w generalizing b with
  | nil => exact absurd rfl hw
  | cons c w ih =>
    refine (Rule.rewrite_none (h b (c :: w) List.suffix_rfl hw)).trans (congrArg (c :: ·) ?_)
    cases w with
    | nil => rfl
    | cons d w => exact ih (fun b w' hs hne => h b w' (hs.trans (List.suffix_cons c _)) hne) (by simp)

/-- goes through `U` -/
theorem rewrite_inside (h : rule.Blind secret U R) (hv : ∀ v, secret v → v ≠ []) {Y : Text} (hY : Y <:+ U) (b : Bool) :
    Constant secret (fun v => rule.rewrite b (Y ++ (v ++ R))) ∨
      ∀ v, secret v → rule.rewrite b (Y ++ (v ++ R)) = Y ++ (v ++ rule.rewrite false R) := by
  induction Y generalizing b with
  | nil => exact .inr fun v hs => rewrite_within (fun b w hw hne => h.within b v w hs hw hne) (hv v hs)
  | cons c Y ih =>
    cases h.scan b [] (c :: Y) hY (by simp) with
    | fails hf =>
      rcases ih ((List.suffix_cons c Y).trans hY) false with hc | hsame
      · exact .inl (hc.of_eq (c :: ·) fun v hv => Rule.rewrite_none (hf v hv))
      · exact .inr fun v hv => (Rule.rewrite_none (hf v hv)).trans (congrArg (c :: ·) (hsame v hv))
    | stops a A' hA hf =>
      -- a match does not end before it starts
      refine .inr fun v hv => ?_
      have hlt := Rule.attempt_lt (hf v hv)
      have hle := hY.length_le
      simp only [List.length_append] at hlt
      omega
    | covers a t hf => exact .inl ⟨a ++ rule.rewrite false t, fun v hv => Rule.rewrite_some (hf v hv)⟩

/-- what is written no longer depends on the secret, or the texts differ in the secret only -/
theorem rewrite_secret (h : rule.Blind secret U R) (hv : ∀ v, secret v → v ≠ []) (b : Bool) (A : Text) :
    Constant secret (fun v => rule.rewrite b (A ++ (U ++ (v ++ R)))) ∨
      ∃ A' : Text, ∀ v, secret v →
        rule.rewrite b (A ++ (U ++ (v ++ R))) = A' ++ (U ++ (v ++ rule.rewrite false R)) := by
  rcases rewrite_before h b A with hc | ⟨A', b', hA⟩
  · exact .inl hc
  · rcases rewrite_inside h hv List.suffix_rfl b' with hc | hsame
    · exact .inl (hc.of_eq (A' ++ ·) hA)
    · exact .inr ⟨A', fun v hv => by rw [hA v hv, hsame v hv]⟩

end Crane.Regexp
