/-
IPv4 prefixes, as Go's net/netip has them.

A prefix is an address and a number of leading bits; it stands for the set of addresses that agree with it in those bits
(`Prefix.addresses`). Two tests on single addresses decide how such sets lie: a longer prefix lies inside a shorter one
iff its own address does, and two prefixes share an address iff they agree in the bits both have.
-/
import Mathlib.Data.Nat.Notation
import Mathlib.Data.Set.Lattice
import Mathlib.Order.CompletePartialOrder

namespace Crane.Ipv4

abbrev Addr := BitVec 32

/-- a prefix; `bits` leading bits of `addr` count -/
structure Prefix where
  addr : Addr
  bits : ℕ
  bits_le : bits ≤ 32
deriving DecidableEq, Repr

/-! ## Texts -/

/-- a decimal number without leading zeros -/
def decimal (cs : List Char) : Option ℕ :=
  if cs ≠ [] ∧ cs.all Char.isDigit ∧ (cs.length = 1 ∨ cs.head? ≠ some '0') then
    some (cs.foldl (fun n c => 10 * n + (c.toNat - '0'.toNat)) 0)
  else none

def parseOctet (cs : List Char) : Option ℕ := (decimal cs).filter (· ≤ 255)

def parseAddr (cs : List Char) : Option Addr := do
  match cs.splitOn '.' with
  | [a, b, c, d] =>
    let octets ← [a, b, c, d].mapM parseOctet
    return BitVec.ofNat 32 (octets.foldl (fun n o => 256 * n + o) 0)
  | _ => none

/-- `a.b.c.d/n`, cut at its last slash -/
def parsePrefix (s : String) : Option Prefix := do
  match s.toList.splitOn '/' with
  | [addr, bits] =>
    let addr ← parseAddr addr
    let bits ← decimal bits
    if h : bits ≤ 32 then return ⟨addr, bits, h⟩ else none
  -- a text with another slash has no address before the last one
  | _ => none

namespace Prefix

/-! ## Tests -/

/-- the leading `n` bits of an address -/
def leading (n : ℕ) (a : Addr) : Addr := a >>> (32 - n)

def contains (p : Prefix) (a : Addr) : Bool := leading p.bits a = leading p.bits p.addr

/-- all bits after the leading ones are 0 -/
def masked (p : Prefix) : Prefix := { p with addr := leading p.bits p.addr <<< (32 - p.bits) }

def overlaps (p q : Prefix) : Bool := leading (min p.bits q.bits) p.addr = leading (min p.bits q.bits) q.addr

/-! ## Sets of addresses -/

def addresses (p : Prefix) : Set Addr := {a | p.contains a = true}

theorem mem_addresses {p : Prefix} {a : Addr} : a ∈ p.addresses ↔ leading p.bits a = leading p.bits p.addr := by
  simp [addresses, contains]

/-- fewer leading bits are leading bits of more -/
theorem leading_leading {m n : ℕ} (h : m ≤ n) (hn : n ≤ 32) (a : Addr) : leading m a = leading n a >>> (n - m) := by
  unfold leading
  rw [← BitVec.shiftRight_add]
  congr 1
  omega

theorem leading_of_le {m n : ℕ} (h : m ≤ n) (hn : n ≤ 32) {a b : Addr} (hab : leading n a = leading n b) :
    leading m a = leading m b := by
  rw [leading_leading h hn a, leading_leading h hn b, hab]

/-- a longer prefix lies in a shorter one that contains its address -/
theorem addresses_subset {p q : Prefix} (hbits : p.bits ≤ q.bits) (h : p.contains q.addr = true) :
    q.addresses ⊆ p.addresses := by
  intro a ha
  rw [mem_addresses] at ha ⊢
  have hq : leading p.bits q.addr = leading p.bits p.addr := by simpa [contains] using h
  calc leading p.bits a = leading p.bits q.addr := leading_of_le hbits q.bits_le ha
    _ = leading p.bits p.addr := hq

/-- an address that differs from `p`'s in its last leading bit, and in no other -/
def sibling (p : Prefix) : Addr := p.addr ^^^ (1#32 <<< (32 - p.bits))

theorem leading_sibling {p : Prefix} {n : ℕ} (h : n < p.bits) : leading n p.sibling = leading n p.addr := by
  have hle := p.bits_le
  unfold leading sibling
  rw [BitVec.ushiftRight_xor_distrib]
  have hzero : (1#32 <<< (32 - p.bits)) >>> (32 - n) = 0#32 := by
    apply BitVec.eq_of_getLsbD_eq
    intro i hi
    rw [BitVec.getLsbD_ushiftRight, BitVec.getLsbD_shiftLeft]
    have hne : 32 - n + i - (32 - p.bits) ≠ 0 := by omega
    simp [BitVec.getLsbD_one, hne]
  rw [hzero, BitVec.xor_zero]

theorem sibling_notMem {p : Prefix} (h : 0 < p.bits) : p.sibling ∉ p.addresses := by
  have hle := p.bits_le
  intro hmem
  rw [mem_addresses] at hmem
  have hbit := congrArg (fun a : Addr => a.getLsbD 0) hmem
  have hlt : 32 - p.bits < 32 := by omega
  simp [leading, sibling, hlt] at hbit

/-- a strictly longer prefix inside another one misses an address of it -/
theorem addresses_ssubset {p q : Prefix} (hbits : p.bits < q.bits) (h : p.contains q.addr = true) :
    q.addresses ⊂ p.addresses := by
  refine ⟨addresses_subset hbits.le h, fun hback => ?_⟩
  have hsib : q.sibling ∈ p.addresses := by
    rw [mem_addresses, leading_sibling hbits]
    simpa [contains] using h
  exact sibling_notMem (by omega) (hback hsib)

/-- prefixes that do not overlap have no address in common -/
theorem disjoint_of_not_overlaps {p q : Prefix} (h : p.overlaps q = false) : Disjoint p.addresses q.addresses := by
  rw [Set.disjoint_left]
  intro a hp hq
  rw [mem_addresses] at hp hq
  have hshared : leading (min p.bits q.bits) p.addr = leading (min p.bits q.bits) q.addr :=
    calc leading (min p.bits q.bits) p.addr = leading (min p.bits q.bits) a :=
          (leading_of_le (min_le_left _ _) p.bits_le hp).symm
      _ = leading (min p.bits q.bits) q.addr := leading_of_le (min_le_right _ _) q.bits_le hq
  simp [overlaps, hshared] at h

end Prefix

example : parsePrefix "10.80.016.0/24" = none ∧ parsePrefix "10.80.16.0/33" = none := by decide +kernel

end Crane.Ipv4
