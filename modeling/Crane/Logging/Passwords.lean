/-
Passwords in URLs. A URL with a user and a password stands somewhere in a text, and `redactString` goes over the text four
times.

The first three rules may rewrite anything around the URL, and may take the URL for a part of a value: `token=` or
`authorization: bearer ` may stand right before it, or its user may be called `secret`. None of them looks at the password:
what they match ends before the URL or covers the password (`Blind`). So after each rule the text is the same for all
passwords, or only the password differs, and then the last rule replaces it.

This needs a user name, as the last rule has no match without one; and a user name without `,`, `;` and `'`, at which a
token or a quoted value would end, so that the last rule no longer sees the whole URL.
-/
import Crane.Lib.Secret
import Crane.Logging.Rules

namespace Crane.Logging.Rules

open Regexp Regex

/-! ## URLs -/

/-- RFC 3986: unreserved characters, and the characters of percent-encodings -/
def secretChar (c : Char) : Bool := c.isAlphanum || c == '-' || c == '.' || c == '_' || c == '~' || c == '%'

def Password (v : Text) : Prop := v ≠ [] ∧ ∀ c ∈ v, secretChar c = true

/-- characters at which a value may end -/
def stoppers : List Char := ['\t', '\n', '\x0c', '\r', ' ', ',', ';', '"', '\'', '\\', '@']

def urlChar (c : Char) : Bool := !stoppers.contains c

def schemeNameChar (c : Char) : Bool := c.isAlphanum || c == '+' || c == '-' || c == '.'

def validScheme : Text → Bool
  | [] => false
  | c :: s => c.isAlpha && s.all schemeNameChar

def validUser (user : Text) : Bool := user ≠ [] && user.all fun c => urlChar c && userChar c

/-- up to the password -/
def credentials (scheme user : Text) : Text := scheme ++ (':' :: '/' :: '/' :: (user ++ [':']))

/-! ## Characters -/

theorem urlChar_of {p : Char → Bool} (hp : stoppers.all (fun d => !p d) = true) {c : Char} (h : p c = true) :
    urlChar c = true := by
  rw [urlChar, Bool.not_eq_true', List.contains_eq_mem, decide_eq_false_iff_not]
  intro hc
  have hd := List.all_eq_true.mp hp c hc
  rw [h] at hd
  cases hd

theorem urlChar_of_secretChar {c : Char} (h : secretChar c = true) : urlChar c = true := urlChar_of rfl h

theorem urlChar_ne {c d : Char} (h : urlChar c = true) (hd : urlChar d = false) : c ≠ d := by
  rintro rfl
  rw [h] at hd
  cases hd

theorem wordChar_of_urlChar {c : Char} (h : urlChar c = true) : wordChar c = true := by
  have h₁ : c ≠ '\t' := urlChar_ne h rfl
  have h₂ : c ≠ '\n' := urlChar_ne h rfl
  have h₃ : c ≠ '\x0c' := urlChar_ne h rfl
  have h₄ : c ≠ '\r' := urlChar_ne h rfl
  have h₅ : c ≠ ' ' := urlChar_ne h rfl
  simp [wordChar, space, h₁, h₂, h₃, h₄, h₅]

theorem urlChar_not_space {c : Char} (h : urlChar c = true) : space c = false := by
  simpa [wordChar] using wordChar_of_urlChar h

theorem secretChar_ne {c d : Char} (h : secretChar c = true) (hd : secretChar d = false) : c ≠ d := by
  rintro rfl
  rw [h] at hd
  cases hd

theorem secretChar_not_separator {c : Char} (h : secretChar c = true) : equalsOrColon c = false := by
  have h₁ : c ≠ '=' := secretChar_ne h rfl
  have h₂ : c ≠ ':' := secretChar_ne h rfl
  simp [equalsOrColon, h₁, h₂]

theorem tokenChar_of_urlChar {c : Char} (h : urlChar c = true) : tokenChar c = true := by
  have h₁ : c ≠ ',' := urlChar_ne h rfl
  have h₂ : c ≠ ';' := urlChar_ne h rfl
  simp [tokenChar, urlChar_not_space h, h₁, h₂]

theorem passwordChar_of_urlChar {c : Char} (h : urlChar c = true) : passwordChar c = true := by
  have h₁ : c ≠ '@' := urlChar_ne h rfl
  simp [passwordChar, urlChar_not_space h, h₁]

theorem letter_of_isAlpha {c : Char} (h : c.isAlpha = true) : letter c = true := by
  have hascii : ∀ n < 123, (Char.ofNat n).isAlpha = true → letter (Char.ofNat n) = true := by decide +kernel
  have hcase : (c.val ≥ 65 ∧ c.val ≤ 90) ∨ (c.val ≥ 97 ∧ c.val ≤ 122) := by
    rcases Bool.or_eq_true_iff.mp h with hcase | hcase
    · exact .inl (of_decide_eq_true hcase)
    · have hlower : (decide (c.val ≥ 97) && decide (c.val ≤ 122)) = true := hcase
      exact .inr (by simpa using hlower)
  have hlt : c.toNat < 123 := by
    simp only [ge_iff_le, UInt32.le_iff_toNat_le] at hcase
    have hval : c.toNat = c.val.toNat := rfl
    have h90 : (90 : UInt32).toNat = 90 := rfl
    have h122 : (122 : UInt32).toNat = 122 := rfl
    omega
  have hletter := hascii c.toNat hlt
  rw [Char.ofNat_toNat] at hletter
  exact hletter h

theorem schemeChar_of_schemeNameChar {c : Char} (h : schemeNameChar c = true) : schemeChar c = true := by
  simp only [schemeNameChar, Bool.or_eq_true] at h
  rcases h with ((h | h) | h) | h
  · rcases Bool.or_eq_true_iff.mp h with h | h
    · simp [schemeChar, letter_of_isAlpha h]
    · simp [schemeChar, h]
  · simp [schemeChar, h]
  · simp [schemeChar, h]
  · simp [schemeChar, h]

/-! ## Texts before the password -/

/-- the text right before a password -/
structure Opens (U : Text) : Prop where
  chars : ∀ c ∈ U, urlChar c = true
  slash : ∃ U₁ U₂, U = U₁ ++ '/' :: U₂
  colon : ∃ V, U = V ++ [':']

section Suffixes
variable {A U Y : Text}

theorem Opens.suffix_colon (hU : Opens U) (h : Y <:+ A ++ U) (hne : Y ≠ []) : ∃ Y', Y = Y' ++ [':'] := by
  obtain ⟨V, rfl⟩ := hU.colon
  obtain ⟨B, hB⟩ := h
  obtain ⟨Y', x, rfl⟩ := (List.eq_nil_or_concat' Y).resolve_left hne
  rw [← List.append_assoc, ← List.append_assoc] at hB
  obtain rfl : x = ':' := List.singleton_inj.mp (List.append_inj_right' hB rfl)
  exact ⟨Y', rfl⟩

theorem suffix_cases (h : Y <:+ A ++ U) : Y <:+ U ∨ ∃ A', A' <:+ A ∧ Y = A' ++ U := by
  rcases List.suffix_or_suffix_of_suffix h (List.suffix_append A U) with hs | ⟨A', rfl⟩
  · exact .inl hs
  · obtain ⟨B, hB⟩ := h
    rw [← List.append_assoc] at hB
    exact .inr ⟨A', ⟨B, List.append_cancel_right hB⟩, rfl⟩

/-- what starts with a character that is not in `U` has the whole of `U` -/
theorem suffix_cons {c : Char} {C : Text} (hc : c ∉ U) (h : c :: C <:+ A ++ U) : ∃ A', c :: A' <:+ A ∧ C = A' ++ U := by
  rcases suffix_cases h with hs | ⟨A', hA, hY⟩
  · exact absurd (hs.subset List.mem_cons_self) hc
  · cases A' with
    | nil =>
      refine absurd ?_ hc
      rw [List.nil_append] at hY
      rw [← hY]
      exact List.mem_cons_self
    | cons d A' =>
      obtain ⟨rfl, rfl⟩ := List.cons.inj hY
      exact ⟨A', hA, rfl⟩

theorem suffix_extend {X : Text} (h : Y <:+ X) (z : Text) : Y ++ z <:+ X ++ z := by
  obtain ⟨B, rfl⟩ := h
  exact ⟨B, by rw [List.append_assoc]⟩

/-- the first character that is not in a class -/
theorem split_or_all (p : Char → Bool) (Y : Text) :
    (∀ c ∈ Y, p c = true) ∨ ∃ B c C, Y = B ++ c :: C ∧ (∀ x ∈ B, p x = true) ∧ p c = false := by
  induction Y with
  | nil => exact .inl fun c hc => absurd hc List.not_mem_nil
  | cons d Y ih =>
    by_cases hd : p d = true
    · rcases ih with hall | ⟨B, c, C, rfl, hB, hc⟩
      · exact .inl fun c hc => (List.mem_cons.mp hc).elim (fun h => h ▸ hd) (hall c)
      · exact .inr ⟨d :: B, c, C, rfl, fun x hx => (List.mem_cons.mp hx).elim (fun h => h ▸ hd) (hB x), hc⟩
    · exact .inr ⟨[], d, Y, rfl, fun x hx => absurd hx List.not_mem_nil, by simpa using hd⟩

end Suffixes

theorem dropWhile_split {p : Char → Bool} {B : Text} {c : Char} (hB : ∀ x ∈ B, p x = true) (hc : p c = false) (C : Text) :
    (B ++ c :: C).dropWhile p = c :: C := by
  rw [List.dropWhile_append_of_pos hB, List.dropWhile_cons_of_neg (by simp [hc])]

theorem runEnd_split {p : Char → Bool} {B : Text} {c : Char} (hB : ∀ x ∈ B, p x = true) (hc : p c = false) (C : Text) :
    runEnd p (B ++ c :: C) = if B = [] then none else some (c :: C) := by
  rw [runEnd, dropWhile_split hB hc, List.takeWhile_append_of_pos hB, List.takeWhile_cons_of_neg (by simp [hc]),
    List.append_nil]

theorem runEnd_all {p : Char → Bool} {B : Text} (hB : ∀ x ∈ B, p x = true) {c : Char} (hc : p c = true) (C : Text) :
    runEnd p (B ++ c :: C) = some (C.dropWhile p) := by
  rw [runEnd, List.dropWhile_append_of_pos hB, List.takeWhile_append_of_pos hB, List.takeWhile_cons_of_pos hc,
    List.dropWhile_cons_of_pos hc, if_neg (by simp)]

/-! ## Values before the password -/

section Values
variable {α : Type} {A U Y t : Text}

theorem run_scan {p : Char → Bool} (hp : ∀ c, urlChar c = true → p c = true) (hat : p '@' = true) (hU : Opens U) (a : α)
    (hY : Y <:+ A ++ U) :
    Scan Password U ('@' :: t) A fun v => (runEnd p (Y ++ (v ++ '@' :: t))).map (Prod.mk a) := by
  rcases split_or_all p Y with hall | ⟨B, c, C, rfl, hB, hc⟩
  · -- the run goes on over the password
    refine .covers a (t.dropWhile p) fun v hv => ?_
    have hrun : ∀ x ∈ Y ++ v, p x = true := by
      intro x hx
      rcases List.mem_append.mp hx with hx | hx
      · exact hall x hx
      · exact hp x (urlChar_of_secretChar (hv.2 x hx))
    rw [← List.append_assoc, runEnd_all hrun hat]
    rfl
  · -- it ends before the URL
    have hmem : c ∉ U := fun hmem => by
      rw [hp c (hU.chars c hmem)] at hc
      cases hc
    obtain ⟨A', hA, rfl⟩ := suffix_cons hmem ((List.suffix_append B (c :: C)).trans hY)
    have hrun : ∀ v : Text, runEnd p (B ++ c :: (A' ++ U) ++ (v ++ '@' :: t)) =
        if B = [] then none else some (c :: A' ++ (U ++ (v ++ '@' :: t))) := by
      intro v
      rw [List.append_assoc, List.cons_append, runEnd_split hB hc, List.append_assoc, List.cons_append]
    by_cases hnil : B = []
    · refine .fails fun v _ => ?_
      rw [hrun, if_pos hnil]
      rfl
    · refine .stops a (c :: A') hA fun v _ => ?_
      rw [hrun, if_neg hnil]
      rfl

theorem closing_plain {w : Text} (h : ∀ c ∈ w, urlChar c = true) (z : Text) : closing (w ++ z) = closing z := by
  induction w with
  | nil => rfl
  | cons c w ih =>
    have hc := h c List.mem_cons_self
    rw [List.cons_append, closing_char (urlChar_ne hc rfl) (urlChar_ne hc rfl)]
    exact ih fun c' hc' => h c' (List.mem_cons_of_mem c hc')

/-- how far a JSON string goes in a text, whatever follows -/
inductive Stretch (s : Text) : Prop
  | ends (s' : Text) (hs : s' <:+ s) (h : ∀ z, closing (s ++ z) = some (s' ++ z))
  | breaks (h : ∀ z, closing (s ++ z) = none)
  | goesOn (h : ∀ z, closing (s ++ z) = closing z)
  | escapes (h : ∀ c z, c ≠ '\n' → closing (s ++ c :: z) = closing z)

theorem Stretch.append {u s : Text} (hu : ∀ z, closing (u ++ (s ++ z)) = closing (s ++ z)) (h : Stretch s) :
    Stretch (u ++ s) := by
  cases h with
  | ends s' hs h =>
    refine .ends s' (hs.trans (List.suffix_append u s)) fun z => ?_
    rw [List.append_assoc, hu, h]
  | breaks h => exact .breaks fun z => by rw [List.append_assoc, hu, h]
  | goesOn h => exact .goesOn fun z => by rw [List.append_assoc, hu, h]
  | escapes h => exact .escapes fun c z hc => by rw [List.append_assoc, hu, h c z hc]

theorem stretch (s : Text) : Stretch s := by
  fun_induction closing s with
  | case1 => exact .goesOn fun z => rfl
  | case2 s => exact .ends s (List.suffix_cons _ s) fun z => closing_quote (s ++ z)
  | case3 => exact .escapes fun c z hc => closing_escape hc z
  | case4 t => exact .breaks fun z => rfl
  | case5 d t hd _ ih => exact ih.append (u := ['\\', d]) fun z => closing_escape hd (t ++ z)
  | case6 c s hq hb ih => exact ih.append (u := [c]) fun z => closing_char hq hb (s ++ z)

theorem string_scan (hU : Opens U) (a : α) (hY : Y <:+ A ++ U) :
    Scan Password U ('@' :: t) A fun v => (stringEnd (Y ++ (v ++ '@' :: t))).map (Prod.mk a) := by
  -- in the URL and the password no string ends
  have hover : ∀ Y' v, Y' <:+ U → Password v → closing (Y' ++ (v ++ '@' :: t)) = closing t := by
    intro Y' v hY' hv
    rw [closing_plain fun c hc => hU.chars c (hY'.subset hc),
      closing_plain fun c hc => urlChar_of_secretChar (hv.2 c hc)]
    exact closing_char (by decide) (by decide) t
  have hrest : ∀ f : Text → Option Text, (∀ v, Password v → f v = closing t) →
      Scan Password U ('@' :: t) A fun v => (f v).map (Prod.mk a) := by
    intro f hf
    cases hc : closing t with
    | none => exact .fails fun v hv => by rw [hf v hv, hc]; rfl
    | some t' => exact .covers a t' fun v hv => by rw [hf v hv, hc]; rfl
  -- the string starts at a quote, which is before the URL
  cases Y with
  | nil =>
    refine .fails fun v hv => ?_
    obtain ⟨d, w, rfl⟩ := List.exists_cons_of_ne_nil hv.1
    have hd : d ≠ '"' := secretChar_ne (hv.2 d List.mem_cons_self) rfl
    simp [stringEnd, hd]
  | cons c Y =>
    by_cases hc : c = '"'
    · subst hc
      have hmem : '"' ∉ U := fun hmem => by cases hU.chars _ hmem
      obtain ⟨A', hA, rfl⟩ := suffix_cons hmem hY
      have hA' := (List.suffix_cons '"' A').trans hA
      have hend : ∀ v : Text, stringEnd ('"' :: (A' ++ U) ++ (v ++ '@' :: t)) = closing (A' ++ (U ++ (v ++ '@' :: t))) := by
        intro v
        simp [stringEnd]
      cases stretch A' with
      | ends s' hs h => exact .stops a s' (hs.trans hA') fun v _ => by rw [hend, h]; rfl
      | breaks h => exact .fails fun v _ => by rw [hend, h]; rfl
      | goesOn h => exact hrest _ fun v hv => by rw [hend, h, hover U v List.suffix_rfl hv]
      | escapes h =>
        refine hrest _ fun v hv => ?_
        obtain ⟨V, hV⟩ := hU.colon
        obtain ⟨d, U', rfl⟩ := List.exists_cons_of_ne_nil (show U ≠ [] by simp [hV])
        have hd : d ≠ '\n' := urlChar_ne (hU.chars d List.mem_cons_self) rfl
        rw [hend, List.cons_append, h d _ hd, hover U' v (List.suffix_cons d U') hv]
    · refine .fails fun v _ => ?_
      simp [stringEnd, hc]

theorem quote_scan {q : Char} (hq : urlChar q = false) (hat : q ≠ '@') (hU : Opens U) (a : α) (hY : Y <:+ A ++ U) :
    Scan Password U ('@' :: t) A fun v => (quoteEnd q (Y ++ (v ++ '@' :: t))).map (Prod.mk a) := by
  have hne : ∀ c, urlChar c = true → (c != q) = true := fun c hc => bne_iff_ne.mpr (urlChar_ne hc hq)
  cases Y with
  | nil =>
    refine .fails fun v hv => ?_
    obtain ⟨d, w, rfl⟩ := List.exists_cons_of_ne_nil hv.1
    have hd : d ≠ q := urlChar_ne (urlChar_of_secretChar (hv.2 d List.mem_cons_self)) hq
    simp [quoteEnd, hd]
  | cons c Y =>
    by_cases hc : c = q
    · have hend : ∀ v : Text, quoteEnd q (c :: Y ++ (v ++ '@' :: t)) =
          ((Y ++ (v ++ '@' :: t)).dropWhile (· != q)).tail? := by
        intro v
        simp [quoteEnd, hc]
      rcases split_or_all (· != q) Y with hall | ⟨B, d, C, rfl, hB, hd⟩
      · -- the closing quote is behind the password, if there is one
        have hover : ∀ v, Password v → (Y ++ (v ++ '@' :: t)).dropWhile (· != q) = t.dropWhile (· != q) := by
          intro v hv
          rw [List.dropWhile_append_of_pos hall,
            List.dropWhile_append_of_pos fun x hx => hne x (urlChar_of_secretChar (hv.2 x hx)),
            List.dropWhile_cons_of_pos (p := (· != q)) (bne_iff_ne.mpr hat.symm)]
        cases htail : (t.dropWhile (· != q)).tail? with
        | none => exact .fails fun v hv => by rw [hend, hover v hv, htail]; rfl
        | some t' => exact .covers a t' fun v hv => by rw [hend, hover v hv, htail]; rfl
      · have hmem : d ∉ U := fun hmem => by
          rw [hne d (hU.chars d hmem)] at hd
          cases hd
        have hsuffix := (List.suffix_append B (d :: C)).trans ((List.suffix_cons c _).trans hY)
        obtain ⟨A', hA, rfl⟩ := suffix_cons hmem hsuffix
        refine .stops a A' ((List.suffix_cons d A').trans hA) fun v _ => ?_
        rw [hend, List.append_assoc, List.cons_append, dropWhile_split hB hd, List.append_assoc]
        rfl
    · refine .fails fun v _ => ?_
      simp [quoteEnd, hc]

theorem value_scan (hU : Opens U) (a : α) (hY : Y <:+ A ++ U) :
    Scan Password U ('@' :: t) A fun v => (valueEnd (Y ++ (v ++ '@' :: t))).map (Prod.mk a) := by
  have hdouble := quote_scan (t := t) (q := '"') rfl (by decide) hU a hY
  have hsingle := quote_scan (t := t) (q := '\'') rfl (by decide) hU a hY
  have hword := run_scan (t := t) (fun c => wordChar_of_urlChar) rfl hU a hY
  refine ((hdouble.or hsingle).or hword).congr fun v _ => ?_
  rw [valueEnd, Option.map_or, Option.map_or]

theorem pair_scan (hU : Opens U) (a : α) (hY : Y <:+ A ++ U) :
    Scan Password U ('@' :: t) A fun v => (pairEnd (Y ++ (v ++ '@' :: t))).map (Prod.mk a) := by
  -- spaces end before the password
  have hspaces : ∀ (v s : Text), Password v →
      (s ++ (v ++ '@' :: t)).dropWhile space = s.dropWhile space ++ (v ++ '@' :: t) := by
    intro v s hv
    obtain ⟨d, w, rfl⟩ := List.exists_cons_of_ne_nil hv.1
    have hd := urlChar_not_space (urlChar_of_secretChar (hv.2 d List.mem_cons_self))
    rw [List.dropWhile_append]
    split_ifs with hnil
    · rw [List.isEmpty_iff.mp hnil, List.cons_append, List.dropWhile_cons_of_neg (by simp [hd])]
      rfl
    · rfl
  have hsuffix := (List.dropWhile_suffix space (l := Y)).trans hY
  cases hdrop : Y.dropWhile space with
  | nil =>
    refine .fails fun v hv => ?_
    have hv' := hspaces v Y hv
    obtain ⟨d, w, rfl⟩ := List.exists_cons_of_ne_nil hv.1
    have hd := secretChar_not_separator (hv.2 d List.mem_cons_self)
    rw [hdrop] at hv'
    rw [pairEnd, separatorEnd, hv']
    simp [hd]
  | cons c C =>
    rw [hdrop] at hsuffix
    have hC := (List.dropWhile_suffix space (l := C)).trans ((List.suffix_cons c C).trans hsuffix)
    by_cases hc : equalsOrColon c = true
    · refine (value_scan hU a hC).congr fun v hv => ?_
      rw [pairEnd, separatorEnd, hspaces v Y hv, hdrop, ← hspaces v C hv]
      simp [hc]
    · refine .fails fun v hv => ?_
      rw [pairEnd, separatorEnd, hspaces v Y hv, hdrop]
      simp [hc]

end Values

/-! ## The rules before the password -/

section Blind
variable {A U Y t : Text}

/-- a match that needs a character which neither a URL nor a password has does not start in them -/
theorem key_within {r : Regex} {q : Char → Bool} (hat : r.avoids '@' = true) (hneeds : r.Needs q) (b : Bool) {w : Text}
    (hw : ∀ c ∈ w, q c = false) : r.parses b (w ++ '@' :: t) = [] := by
  have hany : w.any q = false := by
    rw [List.any_eq_false]
    intro c hc
    simp [hw c hc]
  rw [parses_barrier hat, parses_of_needs hneeds hany]
  rfl

/-- a rule whose match is a key and something behind it -/
theorem blind_of_key {rule : Rule} {r : Regex} {q : Char → Bool} {e : Text → Option Text} {o : Text → Text}
    (hrule : ∀ b s, rule.attempt b s = (r.parses b s).findSome? fun x => (e x.2).map fun t => (o x.1, t))
    (hslash : r.avoids '/' = true) (hat : r.avoids '@' = true) (hneeds : r.Needs q)
    (hq : ∀ c, urlChar c = true → q c = false)
    (he : ∀ (a A Y : Text), Y <:+ A ++ U →
      Scan Password U ('@' :: t) A fun v => (e (Y ++ (v ++ '@' :: t))).map (Prod.mk a))
    (hU : Opens U) : rule.Blind Password U ('@' :: t) := by
  have hsecret : ∀ v, Password v → ∀ c ∈ v, q c = false := fun v hv c hc => hq c (urlChar_of_secretChar (hv.2 c hc))
  refine ⟨fun b A Y hY hne => ?_, fun b v w hv hw _ => ?_⟩
  · rcases suffix_cases hY with hs | ⟨A', hA, rfl⟩
    · refine .fails fun v hv => ?_
      have hplain : ∀ c ∈ Y ++ v, q c = false := by
        intro c hc
        rcases List.mem_append.mp hc with hc | hc
        · exact hq c (hU.chars c (hs.subset hc))
        · exact hsecret v hv c hc
      rw [hrule, ← List.append_assoc, key_within hat hneeds b hplain]
      rfl
    · -- the key ends before the slashes of the URL
      obtain ⟨U₁, U₂, rfl⟩ := hU.slash
      have hways : ∀ v : Text, rule.attempt b (A' ++ (U₁ ++ '/' :: U₂) ++ (v ++ '@' :: t)) =
          (r.parses b (A' ++ U₁)).findSome? fun x =>
            (e (x.2 ++ '/' :: U₂ ++ (v ++ '@' :: t))).map fun t => (o x.1, t) := by
        intro v
        have hassoc : A' ++ (U₁ ++ '/' :: U₂) ++ (v ++ '@' :: t) = A' ++ U₁ ++ '/' :: (U₂ ++ (v ++ '@' :: t)) := by simp
        rw [hrule, hassoc, parses_barrier hslash, findSome_extend]
        simp
      refine (Scan.findSome _ fun x hx => ?_).congr fun v _ => hways v
      have hsuffix : x.2 ++ '/' :: U₂ <:+ A' ++ U₁ ++ '/' :: U₂ :=
        suffix_extend (parses_suffix hx) _
      rw [List.append_assoc] at hsuffix
      exact he (o x.1) A _ (hsuffix.trans hY)
  · rw [hrule, key_within hat hneeds b fun c hc => hsecret v hv c (hw.subset hc)]
    rfl

theorem authorizationRe_blind (hU : Opens U) : authorizationRe.Blind Password U ('@' :: t) := by
  refine blind_of_key (o := (· ++ redacted)) authorizationRe_attempt rfl rfl tokenKey_needs
    ?_ ?_ hU
  · intro c hc
    exact urlChar_not_space hc
  · intro a A Y hY
    exact run_scan (fun c => tokenChar_of_urlChar) rfl hU a hY

theorem jsonSecretRe_blind (hU : Opens U) : jsonSecretRe.Blind Password U ('@' :: t) := by
  refine blind_of_key (o := (· ++ '"' :: (redacted ++ ['"']))) jsonSecretRe_attempt rfl rfl
    stringKey_needs ?_ ?_ hU
  · intro c hc
    simpa using urlChar_ne hc rfl
  · intro a A Y hY
    exact string_scan hU a hY

/-- a name in the password has no separator behind it -/
theorem named_within (u : Text) (b : Bool) {w : Text} (hw : ∀ c ∈ w, secretChar c = true) :
    namedAttempt u b (w ++ '@' :: t) = none := by
  have hat : names.avoids '@' = true := rfl
  rw [namedAttempt, parses_barrier hat, findSome_extend, List.findSome?_eq_none_iff]
  intro x hx
  have hend : pairEnd (x.2 ++ '@' :: t) = none := by
    cases hrest : x.2 with
    | nil => rfl
    | cons d s =>
      have hd := hw d ((parses_suffix hx).subset (by rw [hrest]; exact List.mem_cons_self))
      rw [pairEnd, separatorEnd, List.cons_append, List.dropWhile_cons_of_neg (by simp [urlChar_not_space (urlChar_of_secretChar hd)])]
      simp [secretChar_not_separator hd]
  rw [hend]
  rfl

theorem named_scan (hU : Opens U) (u : Text) (b : Bool) (hY : Y <:+ A ++ U) :
    Scan Password U ('@' :: t) A fun v => namedAttempt u b (Y ++ (v ++ '@' :: t)) := by
  rcases eq_or_ne Y [] with rfl | hne
  · exact .fails fun v hv => named_within u b hv.2
  · -- names end before the colon in front of the password
    obtain ⟨Y, rfl⟩ := hU.suffix_colon hY hne
    have hcolon : names.avoids ':' = true := rfl
    have hways : ∀ v : Text, namedAttempt u b (Y ++ [':'] ++ (v ++ '@' :: t)) = (names.parses b Y).findSome? fun y =>
        (pairEnd (y.2 ++ [':'] ++ (v ++ '@' :: t))).map fun t => (u ++ y.1 ++ '=' :: redacted, t) := by
      intro v
      rw [List.append_assoc, namedAttempt, List.singleton_append, parses_barrier hcolon, findSome_extend]
      simp
    refine (Scan.findSome _ fun y hy => ?_).congr fun v _ => hways v
    exact pair_scan hU _ ((suffix_extend (parses_suffix hy) [':']).trans hY)

theorem secretKeyValueRe_blind (hU : Opens U) : secretKeyValueRe.Blind Password U ('@' :: t) := by
  refine ⟨fun b A Y hY hne => ?_, fun b v w hv hw hne => ?_⟩
  · obtain ⟨c, Y, rfl⟩ := List.exists_cons_of_ne_nil hne
    have hstart := named_scan (t := t) hU [] true hY
    have hnext := named_scan (t := t) hU [c] false ((List.suffix_cons c Y).trans hY)
    have hnever : Scan Password U ('@' :: t) A fun _ => (none : Option (Text × Text)) := .fails fun v _ => rfl
    have hfirst : Scan Password U ('@' :: t) A fun v =>
        if b then namedAttempt [] true (c :: Y ++ (v ++ '@' :: t)) else none := by
      cases b with
      | false => exact hnever
      | true => exact hstart
    have hsecond : Scan Password U ('@' :: t) A fun v =>
        if alphanumeric c then none else namedAttempt [c] false (Y ++ (v ++ '@' :: t)) := by
      cases alphanumeric c with
      | false => exact hnext
      | true => exact hnever
    exact (hfirst.or hsecond).congr fun v _ => secretKeyValueRe_cons b c _
  · obtain ⟨c, w, rfl⟩ := List.exists_cons_of_ne_nil hne
    have hplain : ∀ d ∈ c :: w, secretChar d = true := fun d hd => hv.2 d (hw.subset hd)
    have hstart := named_within (t := t) [] true hplain
    have hnext := named_within (t := t) [c] false fun d hd => hplain d (List.mem_cons_of_mem c hd)
    rw [List.cons_append] at hstart ⊢
    rw [secretKeyValueRe_cons, hstart, hnext, ite_self, ite_self]
    rfl

theorem secret_scan (hU : Opens U) (a : Text) (hY : Y <:+ A ++ U) :
    Scan Password U ('@' :: t) A fun v => (secretEnd (Y ++ (v ++ '@' :: t))).map (Prod.mk a) := by
  rcases split_or_all passwordChar Y with hall | ⟨B, c, C, rfl, hB, hc⟩
  · refine .covers a t fun v hv => ?_
    have hrun : ∀ x ∈ Y ++ v, passwordChar x = true := by
      intro x hx
      rcases List.mem_append.mp hx with hx | hx
      · exact hall x hx
      · exact passwordChar_of_urlChar (urlChar_of_secretChar (hv.2 x hx))
    have hne : Y ++ v ≠ [] := fun h => hv.1 (List.append_eq_nil_iff.mp h).2
    rw [secretEnd, ← List.append_assoc, runEnd_split hrun rfl, if_neg hne]
    rfl
  · have hmem : c ∉ U := fun hmem => by
      rw [passwordChar_of_urlChar (hU.chars c hmem)] at hc
      cases hc
    obtain ⟨A', hA, rfl⟩ := suffix_cons hmem ((List.suffix_append B (c :: C)).trans hY)
    have hend : ∀ v : Text, secretEnd (B ++ c :: (A' ++ U) ++ (v ++ '@' :: t)) =
        if B = [] ∨ c ≠ '@' then none else some (A' ++ (U ++ (v ++ '@' :: t))) := by
      intro v
      rw [secretEnd, List.append_assoc, List.cons_append, runEnd_split hB hc]
      by_cases hnil : B = []
      · simp [hnil]
      · by_cases hat : c = '@'
        · simp [hnil, hat, behind]
        · simp [hnil, hat, behind]
    by_cases hno : B = [] ∨ c ≠ '@'
    · exact .fails fun v _ => by rw [hend, if_pos hno]; rfl
    · exact .stops a A' ((List.suffix_cons c A').trans hA) fun v _ => by rw [hend, if_neg hno]; rfl

/-- a colon right before something else than a slash ends a user name or nothing -/
theorem urlKey_firm {d : Char} (hd : d ≠ '/') (z : Text) : Firm ':' (d :: z) urlKey := by
  have hslash : ∀ (r : Regex) b, (seq (char (· == '/')) r).parses b (d :: z) = [] := by
    intro r b
    simp [parses, hd]
  refine firm_seq rfl (firm_seq rfl (firm_char_seq _ ?_ (hslash _) fun b => rfl))
  exact firm_seq rfl (firm_seq rfl (firm_seq rfl (firm_char _)))

theorem urlCredentialRe_blind (hU : Opens U) : urlCredentialRe.Blind Password U ('@' :: t) := by
  refine ⟨fun b A Y hY hne => ?_, fun b v w hv hw _ => ?_⟩
  · obtain ⟨Y, rfl⟩ := hU.suffix_colon hY hne
    have hways : ∀ v, Password v → urlCredentialRe.attempt b (Y ++ [':'] ++ (v ++ '@' :: t)) =
        (urlKey.parses b (Y ++ [':'])).findSome? fun x =>
          (secretEnd (x.2 ++ (v ++ '@' :: t))).map fun t => (x.1 ++ (redacted ++ ['@']), t) := by
      intro v hv
      obtain ⟨d, w, rfl⟩ := List.exists_cons_of_ne_nil hv.1
      have hd : d ≠ '/' := secretChar_ne (hv.2 d List.mem_cons_self) rfl
      rw [urlCredentialRe_attempt, List.append_assoc, List.singleton_append, List.cons_append, urlKey_firm hd,
        findSome_extend]
    refine (Scan.findSome _ fun x hx => ?_).congr hways
    exact secret_scan hU _ ((parses_suffix hx).trans hY)
  · have hplain : ∀ c ∈ w, (c == ':') = false := fun c hc => by simpa using secretChar_ne (hv.2 c (hw.subset hc)) rfl
    rw [urlCredentialRe_attempt, key_within rfl urlKey_needs b hplain]
    rfl

end Blind

/-! ## Passwords -/

section Url
variable {scheme user : Text}

theorem opens_credentials (hs : validScheme scheme = true) (hu : validUser user = true) : Opens (credentials scheme user) := by
  refine ⟨fun c hc => ?_, ⟨scheme ++ [':'], '/' :: (user ++ [':']), by simp [credentials]⟩,
    ⟨scheme ++ (':' :: '/' :: '/' :: user), by simp [credentials]⟩⟩
  simp only [credentials, List.mem_append, List.mem_cons, List.not_mem_nil, or_false] at hc
  rcases hc with hc | rfl | rfl | rfl | hc | rfl
  · refine urlChar_of (p := schemeNameChar) rfl ?_
    cases scheme with
    | nil => cases hs
    | cons d s =>
      simp only [validScheme, Bool.and_eq_true, List.all_eq_true] at hs
      rcases List.mem_cons.mp hc with rfl | hc
      · have halpha : c.isAlphanum = true := Bool.or_eq_true_iff.mpr (.inl hs.1)
        simp [schemeNameChar, halpha]
      · exact hs.2 c hc
  · rfl
  · rfl
  · rfl
  · simp only [validUser, Bool.and_eq_true, List.all_eq_true] at hu
    exact (hu.2 c hc).1
  · rfl

theorem mem_urlKey (hs : validScheme scheme = true) (hu : validUser user = true) (b : Bool) (z : Text) :
    (credentials scheme user, z) ∈ urlKey.parses b (credentials scheme user ++ z) := by
  simp only [validUser, Bool.and_eq_true, List.all_eq_true, decide_eq_true_eq] at hu
  cases scheme with
  | nil => cases hs
  | cons c s =>
    simp only [validScheme, Bool.and_eq_true, List.all_eq_true] at hs
    have hway := mem_seq (mem_char (letter_of_isAlpha hs.1) b _)
      (mem_seq (mem_star_char (fun d hd => schemeChar_of_schemeNameChar (hs.2 d hd)) _ _)
        (mem_seq (mem_char (p := (· == ':')) (c := ':') rfl _ _)
          (mem_seq (mem_char (p := (· == '/')) (c := '/') rfl _ _)
            (mem_seq (mem_char (p := (· == '/')) (c := '/') rfl _ _)
              (mem_seq (mem_plus_char (fun d hd => (hu.2 d hd).2) hu.1 _ _)
                (mem_char (p := (· == ':')) (c := ':') rfl _ z))))))
    simpa [credentials, urlKey, seqs] using hway

/-- the last rule replaces a password that is still there -/
theorem urlCredentialRe_constant (hs : validScheme scheme = true) (hu : validUser user = true) (A t : Text) :
    Constant Password fun v => urlCredentialRe.rewrite true (A ++ (credentials scheme user ++ (v ++ '@' :: t))) := by
  have hU := opens_credentials hs hu
  have hblind : urlCredentialRe.Blind Password (credentials scheme user) ('@' :: t) := urlCredentialRe_blind hU
  have hsome : ∀ b v, Password v → urlCredentialRe.attempt b (credentials scheme user ++ (v ++ '@' :: t)) ≠ none := by
    intro b v hv hnone
    rw [urlCredentialRe_attempt, List.findSome?_eq_none_iff] at hnone
    have hend : secretEnd (v ++ '@' :: t) = some t := by
      rw [secretEnd, runEnd_split (fun x hx => passwordChar_of_urlChar (urlChar_of_secretChar (hv.2 x hx))) rfl,
        if_neg hv.1]
      rfl
    have hway := hnone _ (mem_urlKey hs hu b (v ++ '@' :: t))
    rw [hend] at hway
    cases hway
  rcases rewrite_before hblind true A with hc | ⟨A', b', hA⟩
  · exact hc
  · have hne : credentials scheme user ≠ [] := by simp [credentials]
    cases hblind.scan b' [] (credentials scheme user) List.suffix_rfl hne with
    | fails h => exact ⟨[], fun v hv => absurd (h v hv) (hsome b' v hv)⟩
    | stops a A₁ hA₁ h =>
      refine ⟨[], fun v hv => ?_⟩
      have hlt := Rule.attempt_lt (h v hv)
      simp only [List.length_append] at hlt
      omega
    | covers a s h =>
      refine ⟨A' ++ (a ++ urlCredentialRe.rewrite false s), fun v hv => ?_⟩
      rw [← Rule.rewrite_some (h v hv)]
      exact hA v hv

end Url

/-- the `@` behind a password stays -/
theorem rewrite_at {rule : Rule} {t : Text} (h : rule.attempt false ('@' :: t) = none) :
    ∃ t', rule.rewrite false ('@' :: t) = '@' :: t' := ⟨_, Rule.rewrite_none h⟩

theorem secretKeyValueRe_at (t : Text) : ∃ t', secretKeyValueRe.rewrite false ('@' :: t) = '@' :: t' := by
  cases h : secretKeyValueRe.attempt false ('@' :: t) with
  | none => exact rewrite_at h
  | some x =>
    -- the boundary of a match is written back
    have hnamed : namedAttempt ['@'] false t = some x := by
      rw [secretKeyValueRe_cons] at h
      exact h
    obtain ⟨y, -, hy⟩ := List.exists_of_findSome?_eq_some hnamed
    obtain ⟨t', -, rfl⟩ := Option.map_eq_some_iff.mp hy
    exact ⟨_, Rule.rewrite_some h⟩

/-- one of the first three rules -/
theorem rule_step {rule : Rule} {U A t : Text} (h : rule.Blind Password U ('@' :: t))
    (hat : ∃ t', rule.rewrite false ('@' :: t) = '@' :: t') :
    Constant Password (fun v => rule.rewrite true (A ++ (U ++ (v ++ '@' :: t)))) ∨
      ∃ A' t', ∀ v, Password v →
        rule.rewrite true (A ++ (U ++ (v ++ '@' :: t))) = A' ++ (U ++ (v ++ '@' :: t')) := by
  obtain ⟨t', ht⟩ := hat
  rcases rewrite_secret h (fun v hv => hv.1) true A with hc | ⟨A', hA⟩
  · exact .inl hc
  · exact .inr ⟨A', t', fun v hv => by rw [hA v hv, ht]⟩

namespace Sample

theorem password_of {v : Text} (h : (v != [] && v.all secretChar) = true) : Password v := by
  simpa [Password] using h

end Sample

end Crane.Logging.Rules
