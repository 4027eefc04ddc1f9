/-
A process that serves one request at a time, keeps files and may crash at any point.

A handler is a program over single effects; the world answers an effect with `perform`. A crash ends the process between
two effects or in the middle of one, and what it leaves of that effect is a choice of the environment (`crash`). A
restarted process knows only what the world still holds (`boot`).

`Keeps` is the proof rule: an invariant `I` of the world that holds always, one (`D`) that holds when the process is down,
so that every crash has to establish it, and one (`J`) that also speaks about the memory of a process that waits for a
request. It suffices to look at one handler at a time.

A file is replaced as a whole by writing a temporary file, renaming it and syncing the directory. A replacement that
reports an error may nevertheless have taken place, and until a directory sync succeeds a crash may bring back any of the
versions that were replaced.
-/
import Crane.Lib.Session

namespace Crane

/-! ## Files -/

/-- how the replacement of a file ends -/
inductive Write where
  | failed -- before the rename
  | renamed -- after the rename, with an error
  | synced
deriving DecidableEq, Repr

def Write.ok : Write → Bool
  | .synced => true
  | .failed | .renamed => false

/-- the version in place, and the ones replaced since the last directory sync -/
structure File (α : Type) where
  current : Option α := none
  replaced : List (Option α) := []
deriving DecidableEq, Repr

namespace File

variable {α : Type}

/-- the versions a crash may leave -/
def versions (f : File α) : List (Option α) := f.current :: f.replaced

def write (f : File α) (a : α) : Write → File α
  | .failed => f
  | .renamed => ⟨some a, f.versions⟩
  | .synced => ⟨some a, []⟩

/-- the file after a crash that leaves the `k`-th version -/
def recover (f : File α) (k : ℕ) : File α := ⟨(f.versions[k]?).getD f.current, []⟩

@[simp] theorem versions_synced (f : File α) (a : α) : (f.write a .synced).versions = [some a] := rfl

@[simp] theorem versions_renamed (f : File α) (a : α) : (f.write a .renamed).versions = some a :: f.versions := rfl

@[simp] theorem write_failed (f : File α) (a : α) : f.write a .failed = f := rfl

theorem mem_versions_recover {f : File α} {k : ℕ} {v : Option α} (h : v ∈ (f.recover k).versions) : v ∈ f.versions := by
  obtain rfl : v = (f.versions[k]?).getD f.current := by simpa [recover, versions] using h
  cases hk : f.versions[k]? with
  | none => exact List.mem_cons_self
  | some u => exact List.mem_of_getElem? hk

/-- what holds of the versions and of the new one holds after the write, however it ends -/
theorem forall_write {P : Option α → Prop} {f : File α} {a : α} (ha : P (some a)) (hf : ∀ v ∈ f.versions, P v)
    (r : Write) : ∀ v ∈ (f.write a r).versions, P v := by
  cases r with
  | failed => exact hf
  | renamed => exact List.forall_mem_cons.mpr ⟨ha, hf⟩
  | synced => simpa using ha

end File

/-! ## Services -/

variable {Q : Type} {R : Q → Type} {W M C K : Type}

structure Service (Q : Type) (R : Q → Type) (W M C K : Type) where
  boot : W → Prog Q R M
  handle : M → C → Prog Q R M
  perform : (q : Q) → R q → W → W
  crash : K → Option Q → W → W

inductive Process (Q : Type) (R : Q → Type) (M : Type) where
  | down
  | ready (m : M)
  | busy (q : Q) (next : R q → Prog Q R M)

/-- a program up to its next effect; one that stops ends the process -/
def Prog.process : Prog Q R M → Process Q R M
  | .ret m => .ready m
  | .stop => .down
  | .ask q k => .busy q k

/-- the effect a process waits for -/
def Process.pending : Process Q R M → Option Q
  | .busy q _ => some q
  | .down | .ready _ => none

/-- the memory of a process that waits for a request -/
def Process.memory : Process Q R M → Option M
  | .ready m => some m
  | .down | .busy _ _ => none

theorem Process.ready_of_memory {p : Process Q R M} {m : M} (h : p.memory = some m) : p = .ready m := by
  cases p with
  | ready m' => exact congrArg _ (Option.some.inj h)
  | down => cases h
  | busy q k => cases h

namespace Service

structure State (Q : Type) (R : Q → Type) (W M : Type) where
  world : W
  process : Process Q R M

/-- a process that is ready is known by its memory -/
theorem State.eq_ready {Q : Type} {R : Q → Type} {W M : Type} {s : State Q R W M} {w : W} {m : M}
    (h : s.world = w ∧ s.process.memory = some m) : s = ⟨w, .ready m⟩ := by
  obtain ⟨w', p⟩ := s
  obtain ⟨rfl, hm⟩ := h
  exact congrArg _ (Process.ready_of_memory hm)

inductive Act (Q : Type) (R : Q → Type) (C K : Type) where
  | start
  | call (c : C)
  | answer (q : Q) (r : R q)
  | crash (k : K)

variable (S : Service Q R W M C K)

section Rule
variable {α β : Type} {I D : W → Prop}

/-- a crash in the middle of the effect leaves `D` -/
def Guard (I D : W → Prop) (q : Q) (w : W) : Prop := I w ∧ ∀ k, D (S.crash k (some q) w)

/-- a program that keeps `I`, may crash at every point and ends in `post` -/
def Maintains (I D : W → Prop) (post : α → W → Prop) : Prog Q R α → W → Prop
  | .ret a, w => post a w
  | .stop, w => D w
  | .ask q k, w => S.Guard I D q w ∧ ∀ r, Maintains I D post (k r) (S.perform q r w)

variable {S}

theorem Maintains.bind {post : β → W → Prop} {p : Prog Q R α} {f : α → Prog Q R β} {w : W}
    (h : S.Maintains I D (fun a w => S.Maintains I D post (f a) w) p w) : S.Maintains I D post (p.bind f) w := by
  induction p generalizing w with
  | ret a => exact h
  | stop => exact h
  | ask q k ih => exact ⟨h.1, fun r => ih r (h.2 r)⟩

theorem Maintains.mono {post post' : α → W → Prop} (hpost : ∀ a w, post a w → post' a w) {p : Prog Q R α} {w : W}
    (h : S.Maintains I D post p w) : S.Maintains I D post' p w := by
  induction p generalizing w with
  | ret a => exact hpost a w h
  | stop => exact h
  | ask q k ih => exact ⟨h.1, fun r => ih r (h.2 r)⟩

/-- a program that does not end the process and whose effects all keep `P` -/
theorem maintains_of_asks {G : Q → Prop} {P : W → Prop} {post : α → W → Prop} {p : Prog Q R α} (hp : p.Goes G)
    (hG : ∀ q w, G q → P w → S.Guard I D q w ∧ ∀ r, P (S.perform q r w)) (hpost : ∀ a w, P w → post a w) {w : W}
    (hw : P w) : S.Maintains I D post p w := by
  induction p generalizing w with
  | ret a => exact hpost a w hw
  | stop => exact hp.elim
  | ask q k ih =>
    obtain ⟨hg, hnext⟩ := hG q w hp.1 hw
    exact ⟨hg, fun r => ih r (hp.2 r) (hnext r)⟩

end Rule

section Run
variable [DecidableEq Q]

def step (s : State Q R W M) : Act Q R C K → State Q R W M
  | .start => match s.process with
    | .down => ⟨s.world, (S.boot s.world).process⟩
    | .ready _ | .busy _ _ => s
  | .call c => match s.process with
    | .ready m => ⟨s.world, (S.handle m c).process⟩
    | .down | .busy _ _ => s
  | .answer q r => match s.process with
    | .busy q' k => if h : q = q' then ⟨S.perform q r s.world, (k (h ▸ r)).process⟩ else s
    | .down | .ready _ => s
  | .crash k => ⟨S.crash k s.process.pending s.world, .down⟩

def run (w : W) (acts : List (Act Q R C K)) : State Q R W M := acts.foldl S.step ⟨w, .down⟩

end Run

/-- `I` holds always, `D` while the process is down, `J` of the memory between two requests -/
structure Keeps (I D : W → Prop) (J : M → W → Prop) : Prop where
  down : ∀ {w}, D w → I w ∧ ∀ k, D (S.crash k none w)
  ready : ∀ {m w}, J m w → I w ∧ ∀ k, D (S.crash k none w)
  boot : ∀ {w}, D w → S.Maintains I D J (S.boot w) w
  handle : ∀ {m w} c, J m w → S.Maintains I D J (S.handle m c) w

/-- what that says of a state -/
def Holds (I D : W → Prop) (J : M → W → Prop) (s : State Q R W M) : Prop :=
  match s.process with
  | .down => D s.world
  | .ready m => J m s.world
  | .busy q k => S.Maintains I D J (.ask q k) s.world

variable {S} {I D : W → Prop} {J : M → W → Prop}

theorem Keeps.world (hk : S.Keeps I D J) {s : State Q R W M} (h : S.Holds I D J s) : I s.world := by
  obtain ⟨w, p⟩ := s
  cases p with
  | down => exact (hk.down h).1
  | ready m => exact (hk.ready h).1
  | busy q k => exact h.1.1

theorem Maintains.holds {p : Prog Q R M} {w : W} (h : S.Maintains I D J p w) : S.Holds I D J ⟨w, p.process⟩ := by
  cases p with
  | ret m => exact h
  | stop => exact h
  | ask q k => exact h

variable [DecidableEq Q]

theorem Keeps.step (hk : S.Keeps I D J) {s : State Q R W M} (h : S.Holds I D J s) (a : Act Q R C K) :
    S.Holds I D J (S.step s a) := by
  obtain ⟨w, p⟩ := s
  cases a with
  | start =>
    cases p with
    | down => exact (hk.boot h).holds
    | ready m => exact h
    | busy q k => exact h
  | call c =>
    cases p with
    | ready m => exact (hk.handle c h).holds
    | down => exact h
    | busy q k => exact h
  | answer q r =>
    cases p with
    | down => exact h
    | ready m => exact h
    | busy q' k =>
      by_cases hq : q = q'
      · subst hq
        simp only [Service.step, dif_pos]
        exact (h.2 r).holds
      · simpa only [Service.step, dif_neg hq] using h
  | crash k =>
    cases p with
    | down => exact (hk.down h).2 k
    | ready m => exact (hk.ready h).2 k
    | busy q n => exact h.1.2 k

/-- the invariants hold in every state of every run -/
theorem Keeps.run (hk : S.Keeps I D J) {w : W} (hw : D w) (acts : List (Act Q R C K)) : S.Holds I D J (S.run w acts) := by
  suffices h : ∀ s, S.Holds I D J s → S.Holds I D J (acts.foldl S.step s) from h ⟨w, .down⟩ hw
  induction acts with
  | nil => exact fun _ h => h
  | cons a acts ih => exact fun s h => ih _ (hk.step h a)

/-! ## Restricted answers -/

section Restrict
variable (S) (ok : (q : Q) → R q → Prop)

/-- the service, if its effects are only answered in `ok` -/
def restrict : Service Q (fun q => { r : R q // ok q r }) W M C K where
  boot w := (S.boot w).restrict ok
  handle m c := (S.handle m c).restrict ok
  perform q r := S.perform q r.1
  crash := S.crash

/-- an answer that is given is in `ok` -/
def Act.Allowed : Act Q R C K → Prop
  | .answer q r => ok q r
  | .start | .call _ | .crash _ => True

end Restrict

end Service

def Process.restrict (ok : (q : Q) → R q → Prop) : Process Q R M → Process Q (fun q => { r : R q // ok q r }) M
  | .down => .down
  | .ready m => .ready m
  | .busy q k => .busy q fun r => (k r.1).restrict ok

theorem Prog.process_restrict (ok : (q : Q) → R q → Prop) (p : Prog Q R M) :
    (p.restrict ok).process = p.process.restrict ok := by
  cases p <;> rfl

namespace Service

def State.restrict (ok : (q : Q) → R q → Prop) (s : State Q R W M) : State Q (fun q => { r : R q // ok q r }) W M :=
  ⟨s.world, s.process.restrict ok⟩

section Restrict
variable {S : Service Q R W M C K} {ok : (q : Q) → R q → Prop} {I D : W → Prop} {J : M → W → Prop} [DecidableEq Q]

theorem step_restrict (s : State Q R W M) {a : Act Q R C K} (ha : a.Allowed ok) :
    ∃ a', (S.restrict ok).step (s.restrict ok) a' = (S.step s a).restrict ok := by
  obtain ⟨w, p⟩ := s
  cases a with
  | start =>
    refine ⟨.start, ?_⟩
    cases p with
    | down => exact congrArg (State.mk w) (Prog.process_restrict ok (S.boot w))
    | ready m => rfl
    | busy q k => rfl
  | call c =>
    refine ⟨.call c, ?_⟩
    cases p with
    | down => rfl
    | ready m => exact congrArg (State.mk w) (Prog.process_restrict ok (S.handle m c))
    | busy q k => rfl
  | answer q r =>
    refine ⟨.answer q ⟨r, ha⟩, ?_⟩
    cases p with
    | down => rfl
    | ready m => rfl
    | busy q' k =>
      by_cases hq : q = q'
      · subst hq
        simp only [Service.step, State.restrict, Process.restrict, dif_pos]
        exact congrArg (State.mk _) (Prog.process_restrict ok (k r))
      · simp only [Service.step, State.restrict, Process.restrict, dif_neg hq]
  | crash k =>
    refine ⟨.crash k, ?_⟩
    cases p <;> rfl

theorem run_restrict (w : W) {acts : List (Act Q R C K)} (hacts : ∀ a ∈ acts, a.Allowed ok) :
    ∃ acts', (S.restrict ok).run w acts' = (S.run w acts).restrict ok := by
  suffices h : ∀ s : State Q R W M, ∃ acts', List.foldl (S.restrict ok).step (s.restrict ok) acts' =
      (acts.foldl S.step s).restrict ok from h ⟨w, .down⟩
  induction acts with
  | nil => exact fun s => ⟨[], rfl⟩
  | cons a acts ih =>
    intro s
    obtain ⟨a', ha'⟩ := step_restrict (S := S) s (hacts a List.mem_cons_self)
    obtain ⟨acts', hacts'⟩ := ih (fun b hb => hacts b (List.mem_cons_of_mem a hb)) (S.step s a)
    refine ⟨a' :: acts', ?_⟩
    rw [List.foldl_cons, ha', hacts', List.foldl_cons]

/-- what is kept under the allowed answers holds of a process that waits for a request -/
theorem Keeps.run_ready (hk : (S.restrict ok).Keeps I D J) {w : W} (hw : D w) {acts : List (Act Q R C K)}
    (hacts : ∀ a ∈ acts, a.Allowed ok) {w' : W} {m : M} (h : S.run w acts = ⟨w', .ready m⟩) : J m w' := by
  obtain ⟨acts', hrun⟩ := run_restrict (S := S) w hacts
  have hholds := hk.run hw acts'
  rw [hrun, h] at hholds
  exact hholds

end Restrict

end Service

end Crane
