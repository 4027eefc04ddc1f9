/-
The standard base64 encoding: three bytes in four characters, the last group filled up with `=`.

Decoding accepts what encoding produces and no padding elsewhere; the bits that padding leaves over are ignored.
-/
import Mathlib.Data.Nat.Notation
import Mathlib.Tactic.SplitIfs

namespace Crane.Base64

/-! ## The alphabet -/

/-- the character of a value below 64 -/
def digit (v : ℕ) : Char :=
  if v < 26 then Char.ofNat (65 + v)
  else if v < 52 then Char.ofNat (71 + v)
  else if v < 62 then Char.ofNat (v - 4)
  else if v = 62 then '+'
  else '/'

def value (c : Char) : Option ℕ :=
  if 'A' ≤ c ∧ c ≤ 'Z' then some (c.toNat - 65)
  else if 'a' ≤ c ∧ c ≤ 'z' then some (c.toNat - 71)
  else if '0' ≤ c ∧ c ≤ '9' then some (c.toNat + 4)
  else if c = '+' then some 62
  else if c = '/' then some 63
  else none

theorem value_digit : ∀ v < 64, value (digit v) = some v := by decide

theorem digit_spec : ∀ v < 64, digit v ≠ '=' ∧ digit v ≠ '\n' ∧ digit v ≠ '\r' := by decide

/-! ## Groups of 24 bits -/

def group (a b c : UInt8) : ℕ := a.toNat * 65536 + b.toNat * 256 + c.toNat

def first (n : ℕ) : Char := digit (n / 262144)
def second (n : ℕ) : Char := digit (n / 4096 % 64)
def third (n : ℕ) : Char := digit (n / 64 % 64)
def fourth (n : ℕ) : Char := digit (n % 64)

def encode : List UInt8 → List Char
  | a :: b :: c :: rest =>
    first (group a b c) :: second (group a b c) :: third (group a b c) :: fourth (group a b c) :: encode rest
  | [a, b] => [first (group a b 0), second (group a b 0), third (group a b 0), '=']
  | [a] => [first (group a 0 0), second (group a 0 0), '=', '=']
  | [] => []

/-- the 24 bits of four characters -/
def ungroup (a b c d : Char) : Option ℕ := do
  return (← value a) * 262144 + (← value b) * 4096 + (← value c) * 64 + (← value d)

def byte (n : ℕ) : UInt8 := UInt8.ofNat n

/-- the last group: `A` stands for the bits that padding leaves out -/
def padded (a b c : Char) : Option (List UInt8) :=
  if c = '=' then (ungroup a b 'A' 'A').map fun n => [byte (n / 65536)]
  else (ungroup a b c 'A').map fun n => [byte (n / 65536), byte (n / 256)]

def decode : List Char → Option (List UInt8)
  | [] => some []
  | a :: b :: c :: d :: rest =>
    if d = '=' ∧ rest = [] then padded a b c
    else do
      let n ← ungroup a b c d
      return byte (n / 65536) :: byte (n / 256) :: byte n :: (← decode rest)
  | _ => none

/-! ## Round trip -/

section RoundTrip
variable {n : ℕ}

theorem group_lt (a b c : UInt8) : group a b c < 16777216 := by
  have ha := a.toNat_lt
  have hb := b.toNat_lt
  have hc := c.toNat_lt
  unfold group
  omega

theorem ungroup_digits (hn : n < 16777216) : ungroup (first n) (second n) (third n) (fourth n) = some n := by
  unfold ungroup first second third fourth
  rw [value_digit _ (by omega), value_digit _ (by omega), value_digit _ (by omega), value_digit _ (by omega)]
  exact congrArg some (show n / 262144 * 262144 + n / 4096 % 64 * 4096 + n / 64 % 64 * 64 + n % 64 = n by omega)

theorem byte_eq {b : UInt8} {n : ℕ} (h : n % 256 = b.toNat) : byte n = b := by
  apply UInt8.toNat.inj
  simpa [byte] using h

theorem bytes_group (a b c : UInt8) : byte (group a b c / 65536) = a ∧ byte (group a b c / 256) = b ∧
    byte (group a b c) = c := by
  have ha := a.toNat_lt
  have hb := b.toNat_lt
  have hc := c.toNat_lt
  refine ⟨byte_eq ?_, byte_eq ?_, byte_eq ?_⟩ <;> unfold group <;> omega

theorem fourth_ne (n : ℕ) : fourth n ≠ '=' := (digit_spec _ (by omega)).1

theorem third_ne (n : ℕ) : third n ≠ '=' := (digit_spec _ (by omega)).1

/-- the bits that padding leaves out are zero -/
theorem third_zero (a : UInt8) : third (group a 0 0) = 'A' := by
  rw [third, show group a 0 0 / 64 % 64 = 0 by simp only [group, UInt8.toNat_zero]; omega]
  rfl

theorem fourth_zero (a b : UInt8) : fourth (group a b 0) = 'A' := by
  rw [fourth, show group a b 0 % 64 = 0 by simp only [group, UInt8.toNat_zero]; omega]
  rfl

/-- **Decoding undoes encoding.** -/
theorem decode_encode (l : List UInt8) : decode (encode l) = some l := by
  induction l using encode.induct with
  | case1 a b c rest ih =>
    rw [encode, decode, if_neg fun h => fourth_ne _ h.1, ungroup_digits (group_lt a b c), ih]
    obtain ⟨ha, hb, hc⟩ := bytes_group a b c
    simp [ha, hb, hc]
  | case2 a b =>
    have h := ungroup_digits (group_lt a b 0)
    rw [fourth_zero] at h
    obtain ⟨ha, hb, -⟩ := bytes_group a b 0
    rw [encode, decode, if_pos ⟨rfl, rfl⟩, padded, if_neg (third_ne _), h]
    simp [ha, hb]
  | case3 a =>
    have h := ungroup_digits (group_lt a 0 0)
    rw [fourth_zero, third_zero] at h
    rw [encode, decode, if_pos ⟨rfl, rfl⟩, padded, if_pos rfl, h]
    simp [(bytes_group a 0 0).1]
  | case4 => rfl

/-- what holds of every digit and of the padding holds of every character -/
theorem forall_encode {P : Char → Prop} (hdigit : ∀ v < 64, P (digit v)) (hpad : P '=') (l : List UInt8) :
    ∀ c ∈ encode l, P c := by
  have hfirst : ∀ a b c, P (first (group a b c)) := fun a b c => hdigit _ (by have := group_lt a b c; omega)
  have hsecond : ∀ n, P (second n) := fun n => hdigit _ (by omega)
  have hthird : ∀ n, P (third n) := fun n => hdigit _ (by omega)
  have hfourth : ∀ n, P (fourth n) := fun n => hdigit _ (by omega)
  induction l using encode.induct with
  | case1 a b c rest ih => simpa [encode, hfirst, hsecond, hthird, hfourth] using ih
  | case2 a b => simp [encode, hfirst, hsecond, hthird, hpad]
  | case3 a => simp [encode, hfirst, hsecond, hpad]
  | case4 => simp [encode]

theorem encode_chars (l : List UInt8) : ∀ c ∈ encode l, c ≠ '\n' ∧ c ≠ '\r' :=
  forall_encode (fun v hv => (digit_spec v hv).2) (by decide) l

end RoundTrip

end Crane.Base64
