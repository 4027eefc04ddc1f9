/-
State changes of a host by concurrent `TransitionState` calls (`internal/hostcatalog/service/service.go`).

A call reads the host, checks the transition against what it read, and writes with an unconditional UPDATE. `checked` is
what a call guarantees alone: it only writes a next state of the state it read last. Whether that is a next state of what
is stored depends on nobody else having written in between (`current`); without that, a host that is TERMINATED may come
back.
-/
import Crane.Capacity.System
import Crane.HostCatalog.Service

namespace Crane.HostCatalog

open Capacity (Host)

/-! ## One call -/

/-- the writes of a call: only a next state of the state that it read last -/
def StateWrite (q : Query) (seen : Option HostState) : Prop :=
  match q with
  | .updateState _ new => ∃ old, seen = some old ∧ new ∈ getValidNextStates old
  | .updateProviderID _ _ | .delete _ | .create _ => False
  | _ => True

/-- every request of the rest of a call is such a write or none -/
abbrev Checked {α : Type} (p : Legacy α) (seen : Option HostState) : Prop :=
  p.Along StateWrite (fun _ _ => True) (fun q r seen => readAfter seen q r) (fun _ _ => True) seen

theorem checked_ensureLegacyLifecycle {α : Type} {f : Unit → Legacy (Except Err α)} (id : String)
    {seen : Option HostState} (hf : Checked (f ()) seen) : Checked (andThen (ensureLegacyLifecycle id) f) seen := by
  refine ⟨trivial, fun r _ => ?_⟩
  match r with
  | none => trivial
  | some none => trivial
  | some (some (_, true)) => trivial
  | some (some (true, false)) => trivial
  | some (some (false, false)) => exact hf

theorem checked_transitionState (id : String) (new : HostState) (seen : Option HostState) :
    Checked (transitionState id new) seen := by
  refine checked_ensureLegacyLifecycle id ⟨trivial, fun r _ => ?_⟩
  match r with
  | none => trivial
  | some h =>
    show Checked (if new ∈ getValidNextStates h.state then _ else _) (some h.state)
    split_ifs with hnext
    · exact ⟨⟨h.state, rfl, hnext⟩, fun _ _ => trivial⟩
    · trivial

/-! ## Many calls -/

/-- the steps of concurrent TransitionState calls -/
def Act.transitions : Act → Bool
  | .call _ (.transitionState _ _) | .ask _ _ | .crash _ => true
  | _ => false

/-- a call that is about to write has read what is stored -/
def current (s : State) : Act → Bool
  | .ask n _ => match s.calls n with
    | some ⟨_, seen, .ask (.updateState id _) _⟩ => (s.hosts.find id).all fun h => seen = some h.state
    | _ => true
  | _ => true

/-- and so it is at every step of a run -/
def allCurrent (w : Capacity.World) : State → List Act → Bool
  | _, [] => true
  | s, act :: acts => current s act && allCurrent w (s.step w act) acts

/-- every host stays, in its state or in one of its next states -/
def Follows (s t : State) : Prop :=
  ∀ id h, s.hosts.find id = some h → ∃ h', t.hosts.find id = some h' ∧
    (h'.state = h.state ∨ h'.state ∈ getValidNextStates h.state)

def AllChecked (s : State) : Prop := ∀ n c, s.calls n = some c → Checked c.prog c.read

section Step
variable {w : Capacity.World} {s : State}

theorem Follows.refl (s : State) : Follows s s := fun _ h hh => ⟨h, hh, .inl rfl⟩

theorem AllChecked.continue {n : ℕ} {c : Call} (h : AllChecked s) (hc : Checked c.prog c.read) :
    AllChecked (s.continue n c) := by
  intro m d hd
  simp only [State.continue] at hd
  by_cases hm : m = n
  · subst hm
    obtain rfl := Option.some.inj ((Function.update_self m (some c) s.calls).symm.trans hd)
    exact hc
  · exact h m d (by rwa [Function.update_of_ne hm] at hd)

theorem AllChecked.exec (h : AllChecked s) (a : Answers) (q : Query) : AllChecked (s.exec a q).1 := by
  have hcalls : (s.exec a q).1.calls = s.calls := by
    cases q <;> simp only [State.exec, State.write] <;> split_ifs <;> rfl
  intro n c hc
  exact h n c (hcalls ▸ hc)

/-- what a request does to the hosts -/
theorem exec_follows {a : Answers} {q : Query} {seen : Option HostState} (hw : StateWrite q seen)
    (hcur : ∀ id new h, q = .updateState id new → s.hosts.find id = some h → seen = some h.state) :
    Follows s (s.exec a q).1 := by
  cases q with
  | updateState id new =>
    obtain ⟨old, rfl, hnext⟩ := hw
    simp only [State.exec, State.write]
    split_ifs
    · exact .refl s
    · intro i h hh
      rw [State.withHosts_hosts, State.find_update s id (setState new) fun _ => rfl]
      by_cases hi : id = i
      · subst hi
        obtain rfl := Option.some.inj (hcur id new h rfl hh)
        exact ⟨setState new h, by simp [hh], .inr hnext⟩
      · exact ⟨h, by rwa [if_neg hi], .inl rfl⟩
  | updateProviderID id p => exact hw.elim
  | delete id => exact hw.elim
  | create h => exact hw.elim
  | terminateHost p =>
    simp only [State.exec, State.write]
    split_ifs <;> exact .refl s
  | _ => exact .refl s

theorem step_follows {act : Act} (h : AllChecked s) (hact : act.transitions = true) (hcur : current s act = true) :
    AllChecked (s.step w act) ∧ Follows s (s.step w act) := by
  cases act with
  | fleet a => cases hact
  | call n op =>
    cases op with
    | transitionState id new =>
      simp only [State.step]
      split
      · exact ⟨h, .refl s⟩
      · exact ⟨h.continue (checked_transitionState id new none), .refl s⟩
    | _ => cases hact
  | ask n a =>
    simp only [State.step]
    split
    · rename_i op seen q k hc
      obtain ⟨hw, hk⟩ := h n _ hc
      refine ⟨(h.exec a q).continue (hk _ trivial), exec_follows hw fun id new g hq hg => ?_⟩
      subst hq
      simp only [current, hc, hg, Option.all_some, decide_eq_true_eq] at hcur
      exact hcur
    · exact ⟨h, .refl s⟩
  | crash n =>
    simp only [State.step]
    split
    · exact ⟨h.continue trivial, .refl s⟩
    · exact ⟨h, .refl s⟩

theorem run_follows {acts : List Act} (h : AllChecked s) (hacts : acts.all Act.transitions = true)
    (hcur : allCurrent w s acts = true) (pre : List Act) (act : Act) (post : List Act)
    (hsplit : acts = pre ++ act :: post) : Follows (s.run w pre) ((s.run w pre).step w act) := by
  induction pre generalizing s acts with
  | nil =>
    subst hsplit
    simp only [List.nil_append, List.all_cons, allCurrent, Bool.and_eq_true] at hacts hcur
    exact (step_follows h hacts.1 hcur.1).2
  | cons a pre ih =>
    subst hsplit
    simp only [List.cons_append, List.all_cons, allCurrent, Bool.and_eq_true] at hacts hcur
    exact ih (step_follows h hacts.1 hcur.1).1 hacts.2 hcur.2 rfl

end Step

/-- **Catalog state history follows the declared lifecycle, if no write is stale.** From any catalog, in every
interleaving of TransitionState calls in which a call only writes while the host still has the state it read, each step
leaves every host in its state or takes it to one of the next states. -/
theorem lifecycle_followed (w : Capacity.World) (s : State) (hidle : ∀ n, s.calls n = none) (acts : List Act)
    (hacts : acts.all Act.transitions = true) (hcur : allCurrent w s acts = true) (pre : List Act) (act : Act)
    (post : List Act) (hsplit : acts = pre ++ act :: post) : Follows (s.run w pre) ((s.run w pre).step w act) :=
  run_follows (fun n c hc => by simp [hidle n] at hc) hacts hcur pre act post hsplit

namespace Sample

/-- an unhealthy host that capacity does not manage -/
def host : Host := { id := "h", state := .unhealthy, provider := "aws", providerId := some "i-1" }

def catalog : Capacity.Catalog :=
  { Capacity.Fleet.catalog with hosts := Table.empty.put host, unmanaged := by decide }

def start : State := ⟨.init catalog, fun _ => none, []⟩

/-- the host is repaired while it is given up: both calls read UNHEALTHY before the first of them writes -/
def race : List Act :=
  [.call 0 (.transitionState "h" .terminated), .call 1 (.transitionState "h" .ready), .ask 0 {}, .ask 0 {}, .ask 1 {},
    .ask 1 {}, .ask 0 {}]

/-- one call after the other -/
def turns : List Act :=
  [.call 0 (.transitionState "h" .terminated), .ask 0 {}, .ask 0 {}, .ask 0 {}]

theorem terminated_revived :
    ((start.run Capacity.Fleet.world race).hosts.find "h").map Host.state = some .terminated ∧
      (((start.run Capacity.Fleet.world race).step Capacity.Fleet.world (.ask 1 {})).hosts.find "h").map Host.state = some .ready ∧
      HostState.ready ∉ getValidNextStates .terminated := by
  decide +kernel

theorem lifecycle_followed_turns :
    Follows (start.run Capacity.Fleet.world (turns.take 3))
      ((start.run Capacity.Fleet.world (turns.take 3)).step Capacity.Fleet.world (.ask 0 {})) :=
  lifecycle_followed Capacity.Fleet.world start (fun _ => rfl) turns (by decide) (by decide +kernel) (turns.take 3)
    (.ask 0 {}) [] rfl

end Sample

end Crane.HostCatalog
