/-
Replace and drain actions on one legacy host, one after the other (`internal/execute/executor.go`, `Execute`).

No call fails here: every statement and every provider call is answered. `State.perform` runs a call to its end in one go;
`run_alone` says that this is what the machine does with a call while nothing else happens.

Replacing a host requests the termination of its instance first and asks the transition table afterwards, and the table
has UNHEALTHY after READY and DRAINING only. From every other state the instance is gone and the action fails with the
catalog as it was; where a host is replaced in one of these two states, the catalog follows the provider, and there is no
second termination.
-/
import Crane.HostCatalog.Service

namespace Crane.HostCatalog

open Capacity (Host)

/-! ## A call that runs alone -/

/-- the rest of a call up to its end, with every request answered -/
def State.perform {α : Type} (s : State) : Legacy α → State × Option α
  | .ret a => (s, some a)
  | .stop => (s, none)
  | .ask q k => (s.exec {} q).1.perform (k (s.exec {} q).2)

theorem State.continue_continue (s : State) (n : ℕ) (c d : Call) : (s.continue n c).continue n d = s.continue n d := by
  simp [State.continue]

theorem write_continue (s s' : State) (n : ℕ) (c : Call) (a : Answers) :
    (s.continue n c).write a (s'.continue n c) = ((s.write a s').1.continue n c, (s.write a s').2) := by
  simp only [State.write]
  split_ifs <;> rfl

/-- what a request does and answers has nothing to do with the running calls -/
theorem exec_continue (s : State) (n : ℕ) (c : Call) (a : Answers) (q : Query) :
    (s.continue n c).exec a q = ((s.exec a q).1.continue n c, (s.exec a q).2) := by
  cases q with
  | updateState id new => exact write_continue s (s.withHosts (s.update id (setState new))) n c a
  | updateProviderID id p => exact write_continue s (s.withHosts (s.update id (setProviderID p))) n c a
  | delete id => exact write_continue s (s.withHosts (s.hosts.remove id)) n c a
  | terminateHost p => exact write_continue s { s with terminated := p :: s.terminated } n c a
  | create h =>
    by_cases hh : (s.hosts.find h.id).isSome = true
    · have hh' : ((s.continue n c).hosts.find h.id).isSome = true := hh
      simp only [State.exec, if_pos hh, if_pos hh']
    · have hh' : ¬((s.continue n c).hosts.find h.id).isSome = true := hh
      simp only [State.exec, if_neg hh, if_neg hh']
      exact write_continue s (s.withHosts (s.hosts.put h)) n c a
  | _ => rfl

/-- **A call that runs alone.** Asked as often as it needs, the machine does what `perform` does. -/
theorem run_alone (w : Capacity.World) (s : State) (n : ℕ) (op : Op) (seen : Option HostState)
    (p : Legacy (Except Err Unit)) : ∃ asks seen', (s.continue n ⟨op, seen, p⟩).run w (List.replicate asks (.ask n {})) =
      (s.perform p).1.continue n ⟨op, seen', (s.perform p).2.elim .stop .ret⟩ := by
  induction p generalizing s seen with
  | ret a => exact ⟨0, seen, rfl⟩
  | stop => exact ⟨0, seen, rfl⟩
  | ask q k ih =>
    obtain ⟨asks, seen', h⟩ := ih (s.exec {} q).2 (s.exec {} q).1 (readAfter seen q (s.exec {} q).2)
    refine ⟨asks + 1, seen', ?_⟩
    have hstep : (s.continue n ⟨op, seen, .ask q k⟩).step w (.ask n {}) =
        (s.exec {} q).1.continue n ⟨op, readAfter seen q (s.exec {} q).2, k (s.exec {} q).2⟩ := by
      have hcall : (s.continue n ⟨op, seen, .ask q k⟩).calls n = some ⟨op, seen, .ask q k⟩ := by simp [State.continue]
      simp only [State.step, hcall, exec_continue, State.continue_continue]
    rw [List.replicate_succ, State.run, List.foldl_cons, hstep]
    exact h

/-! ## Actions on one host -/

/-- a host of the legacy lifecycle -/
def IsLegacy (s : State) (id : String) (h : Host) : Prop :=
  s.hosts.find id = some h ∧ h.nodeGroupId = none ∧ h.isProtected = false

/-- one action on the host -/
def State.does (s : State) (id : String) (t : ActionType) : State × Option (Except Err Unit) := s.perform (execute ⟨id, t⟩)

/-- the state after a sequence of actions on the host -/
def State.doesAll (s : State) (id : String) (ts : List ActionType) : State := ts.foldl (fun s t => (s.does id t).1) s

/-- replace and drain -/
def ActionType.repairs : ActionType → Bool
  | .drainHost | .replaceHost => true
  | _ => false

/-- the host with another state -/
def State.moved (s : State) (id : String) (new : HostState) : State := s.withHosts (s.update id (setState new))

section Does
variable {s : State} {id : String} {h : Host}

theorem perform_ensureLegacyLifecycle {β : Type} (hl : IsLegacy s id h) (f : Unit → Legacy (Except Err β)) :
    s.perform (andThen (ensureLegacyLifecycle id) f) = s.perform (f ()) := by
  obtain ⟨hf, hg, hp⟩ := hl
  simp [andThen, ensureLegacyLifecycle, ask, State.perform, State.exec, read, hf, hg, hp]

theorem perform_transitionState (hl : IsLegacy s id h) (new : HostState) : s.perform (transitionState id new) =
    if new ∈ getValidNextStates h.state then (s.moved id new, some (.ok ()))
    else (s, some (.error .invalidNextState)) := by
  rw [transitionState, perform_ensureLegacyLifecycle hl]
  by_cases hn : new ∈ getValidNextStates h.state
  · simp [ask, State.perform, State.exec, State.write, read, hl.1, hn, must, State.moved]
  · simp [ask, State.perform, State.exec, read, hl.1, hn]

theorem does_drain (hl : IsLegacy s id h) : s.does id .drainHost =
    if HostState.draining ∈ getValidNextStates h.state then (s.moved id .draining, some (.ok ()))
    else (s, some (.error .invalidNextState)) := by
  simp only [State.does, execute]
  rw [perform_ensureLegacyLifecycle hl, perform_transitionState hl]

/-- the termination is requested before the table is asked -/
theorem does_replace (hl : IsLegacy s id h) : s.does id .replaceHost =
    if HostState.unhealthy ∈ getValidNextStates h.state then
      (({ s with terminated := h.providerId.getD "" :: s.terminated } : State).moved id .unhealthy, some (.ok ()))
    else ({ s with terminated := h.providerId.getD "" :: s.terminated }, some (.error .invalidNextState)) := by
  simp only [State.does, execute]
  rw [perform_ensureLegacyLifecycle hl]
  have hl' : IsLegacy { s with terminated := h.providerId.getD "" :: s.terminated } id h := hl
  rw [← perform_transitionState hl']
  simp [ask, State.perform, State.exec, State.write, read, hl.1]

theorem unhealthy_next {state : HostState} : HostState.unhealthy ∈ getValidNextStates state ↔
    state = .ready ∨ state = .draining := by
  cases state <;> decide

theorem draining_next {state : HostState} : HostState.draining ∈ getValidNextStates state ↔ state = .ready := by
  cases state <;> decide

theorem moved_find (hl : IsLegacy s id h) (new : HostState) : IsLegacy (s.moved id new) id (setState new h) := by
  refine ⟨?_, hl.2.1, hl.2.2⟩
  rw [State.moved, State.withHosts_hosts, State.find_update s id (setState new) fun _ => rfl, if_pos rfl, hl.1]
  rfl

end Does

/-! ## Sequences of actions -/

/-- what one action does to the instance and to the catalog -/
structure Consistent (s : State) (id : String) (t : ActionType) : Prop where
  /-- the action comes to an end -/
  returns : (s.does id t).2 ≠ none
  /-- a termination is followed by the catalog, and reported as success -/
  followed : (s.does id t).1.terminated ≠ s.terminated →
    ((s.does id t).1.hosts.find id).map Host.state = some .unhealthy ∧ (s.does id t).2 = some (.ok ())
  /-- a failed action has requested and changed nothing -/
  failed : ∀ e, (s.does id t).2 = some (.error e) → (s.does id t).1 = s

/-- a host is replaced in a state that has UNHEALTHY after it -/
def replaceable (s : State) (id : String) (t : ActionType) : Bool :=
  t ≠ .replaceHost || (s.hosts.find id).all fun h => h.state = .ready || h.state = .draining

/-- and so at every action of a sequence -/
def allReplaceable : State → String → List ActionType → Bool
  | _, _, [] => true
  | s, id, t :: ts => replaceable s id t && allReplaceable (s.does id t).1 id ts

/-- nothing was terminated and the host is there, or one instance was and the host is UNHEALTHY -/
def Settled (before : List String) (id : String) (s : State) : Prop :=
  ∃ h, IsLegacy s id h ∧ (s.terminated = before ∨
    (s.terminated.length = before.length + 1 ∧ h.state = .unhealthy))

section Run
variable {s : State} {id : String} {t : ActionType} {before : List String}

theorem does_consistent {h : Host} (hl : IsLegacy s id h) (ht : t.repairs = true) (hr : replaceable s id t = true) :
    Consistent s id t := by
  cases t with
  | drainHost =>
    have hd := does_drain hl
    split_ifs at hd with hn
    · exact ⟨by simp [hd], by simp [hd, State.moved, State.withHosts], by simp [hd]⟩
    · exact ⟨by simp [hd], by simp [hd], by simp [hd]⟩
  | replaceHost =>
    have hready : h.state = .ready ∨ h.state = .draining := by simpa [replaceable, hl.1] using hr
    have hd := does_replace hl
    rw [if_pos (unhealthy_next.mpr hready)] at hd
    refine ⟨by simp [hd], fun _ => ⟨?_, by rw [hd]⟩, by simp [hd]⟩
    have hl' : IsLegacy { s with terminated := h.providerId.getD "" :: s.terminated } id h := hl
    rw [hd, (moved_find hl' .unhealthy).1]
    rfl
  | _ => cases ht

theorem does_settled (hs : Settled before id s) (ht : t.repairs = true) (hr : replaceable s id t = true) :
    Settled before id (s.does id t).1 := by
  obtain ⟨h, hl, hcase⟩ := hs
  cases t with
  | drainHost =>
    rw [does_drain hl]
    split_ifs with hn
    · refine ⟨_, moved_find hl .draining, ?_⟩
      rcases hcase with hsame | ⟨-, hun⟩
      · exact .inl hsame
      · -- an UNHEALTHY host is not drained
        rw [draining_next, hun] at hn
        cases hn
    · exact ⟨h, hl, hcase⟩
  | replaceHost =>
    have hready : h.state = .ready ∨ h.state = .draining := by simpa [replaceable, hl.1] using hr
    have hl' : IsLegacy { s with terminated := h.providerId.getD "" :: s.terminated } id h := hl
    rw [does_replace hl, if_pos (unhealthy_next.mpr hready)]
    refine ⟨_, moved_find hl' .unhealthy, .inr ⟨?_, rfl⟩⟩
    rcases hcase with hsame | ⟨-, hun⟩
    · simp [State.moved, State.withHosts, hsame]
    · rw [hun] at hready
      rcases hready with he | he <;> cases he
  | _ => cases ht

theorem doesAll_settled {ts : List ActionType} (hs : Settled before id s) (hts : ts.all ActionType.repairs = true)
    (hr : allReplaceable s id ts = true) : Settled before id (s.doesAll id ts) ∧
      ∀ pre t post, ts = pre ++ t :: post → Consistent (s.doesAll id pre) id t := by
  induction ts generalizing s with
  | nil => exact ⟨hs, fun pre t post h => by simp at h⟩
  | cons a ts ih =>
    simp only [List.all_cons, allReplaceable, Bool.and_eq_true] at hts hr
    obtain ⟨hend, hall⟩ := ih (does_settled hs hts.1 hr.1) hts.2 hr.2
    refine ⟨hend, fun pre t post h => ?_⟩
    obtain ⟨h₀, hl, -⟩ := hs
    cases pre with
    | nil =>
      obtain ⟨rfl, -⟩ := List.cons.inj h
      exact does_consistent hl hts.1 hr.1
    | cons b pre =>
      obtain ⟨rfl, hrest⟩ := List.cons.inj h
      exact hall pre t post hrest

end Run

/-- **Replacing a host destroys no machine the catalog considers usable, if it is READY or DRAINING.** For every legacy
host and every sequence of replace and drain actions in which the host is only replaced in one of these two states: the
catalog follows every termination, a failed action has done nothing, and one instance is terminated at most. -/
theorem replaced_once (s : State) (id : String) (h : Host) (hl : IsLegacy s id h) (ts : List ActionType)
    (hts : ts.all ActionType.repairs = true) (hr : allReplaceable s id ts = true) :
    (∀ pre t post, ts = pre ++ t :: post → Consistent (s.doesAll id pre) id t) ∧
      (s.doesAll id ts).terminated.length ≤ s.terminated.length + 1 := by
  have hs : Settled s.terminated id s := ⟨h, hl, .inl rfl⟩
  obtain ⟨⟨h', -, hend⟩, hall⟩ := doesAll_settled hs hts hr
  refine ⟨hall, ?_⟩
  rcases hend with hsame | ⟨hone, -⟩
  · rw [hsame]
    omega
  · omega

namespace Sample

/-- a host with an instance, in the given state -/
def instanceIn (state : HostState) : Host := { id := "h", state := state, provider := "aws", providerId := some "i-1" }

def withInstance (state : HostState) : State :=
  ⟨⟨{ Capacity.Fleet.catalog.db with hosts := Table.empty.put (instanceIn state) }, [], fun _ => none, [], fun _ => []⟩,
    fun _ => none, []⟩

theorem replaced_once_drained :
    (∀ pre t post, [ActionType.drainHost, .replaceHost] = pre ++ t :: post →
      Consistent ((withInstance .ready).doesAll "h" pre) "h" t) ∧
    ((withInstance .ready).doesAll "h" [.drainHost, .replaceHost]).terminated.length ≤ 1 :=
  replaced_once (withInstance .ready) "h" (instanceIn .ready) ⟨by decide, rfl, rfl⟩ [.drainHost, .replaceHost] rfl
    (by decide +kernel)

/-- a host that is still starting is destroyed, reported as a failure and kept as BOOTING; and a second replacement
terminates once more -/
theorem booting_host_destroyed :
    (((withInstance .booting).does "h" .replaceHost).1.terminated = ["i-1"] ∧
      ((withInstance .booting).does "h" .replaceHost).2 = some (.error .invalidNextState) ∧
      (((withInstance .booting).does "h" .replaceHost).1.hosts.find "h").map Host.state = some .booting) ∧
    ((withInstance .ready).doesAll "h" [.replaceHost, .replaceHost]).terminated = ["i-1", "i-1"] := by
  decide +kernel

end Sample

end Crane.HostCatalog
