/-
The action queue (`internal/execute/postgres_action_store.go`) over the actions table (`internal/capacity/schema.sql`).

`Next` is one UPDATE whose subquery locks the oldest pending row that no other call has locked (FOR UPDATE SKIP LOCKED);
between `take` and `finish` other calls run. Its columns are decoded after the statement has committed, and `provider` is
decoded into a string: a NULL there is an error although the action is no longer pending. `Enqueue` does not write the
column, so it is whatever the table's default makes it; the schema has none. Workers mark only actions that they were given.
-/
import Crane.Lib.Table

namespace Crane.Execute

/-! ## The table -/

inductive ActionStatus where
  | pending | running | done | failed
deriving DecidableEq, Repr

structure ActionRow where
  id : ℕ
  hostId : String
  status : ActionStatus
  attempts : ℕ
  createdAt : ℕ
  type : String
  updatedAt : Option ℕ
  provider : Option String
deriving DecidableEq, Repr

/-- the fields of an ActionRecord that Next sets -/
structure ActionRecord where
  id : ℕ
  hostId : String
  attempts : ℕ
  type : String
  provider : String
  status : ActionStatus
deriving DecidableEq, Repr

/-- Scan of the returned columns: NULL cannot be converted to a string -/
def ActionRow.scan (r : ActionRow) : Option ActionRecord :=
  r.provider.map fun p => ⟨r.id, r.hostId, r.attempts, r.type, p, .running⟩

inductive Event where
  | enqueued (id : ℕ) (hostId type : String) -- Enqueue returned success
  | returned (worker : ℕ) (r : ActionRecord) -- Next returned an action
  | refused (worker : ℕ) -- Next returned an error
deriving DecidableEq, Repr

/-- `provider` is the default of that column, `taking` the rows that calls of Next have locked -/
structure State where
  clock : ℕ := 0
  serial : ℕ := 0
  provider : Option String := none
  rows : Table ActionRow.id := .empty
  taking : List (ℕ × ℕ) := []
  log : List Event := []

/-! ## The calls -/

inductive Act where
  | tick
  | enqueue (hostId type : String)
  | take (worker : ℕ) (preferred : ℕ) -- Next up to its lock; of rows of one age the preferred one
  | finish (worker : ℕ) -- the rest of Next
  | mark (worker id : ℕ) (status : ActionStatus) -- MarkDone or MarkFailed
deriving DecidableEq, Repr

/-- pending, and not being taken -/
def State.available (s : State) : List ActionRow :=
  s.rows.rows.filter fun r => r.status = .pending && s.taking.all fun t => t.2 ≠ r.id

/-- ORDER BY createdat -/
def State.oldest (s : State) : List ActionRow :=
  s.available.filter fun r => s.available.all fun r' => r.createdAt ≤ r'.createdAt

def State.next (s : State) (preferred : ℕ) : Option ActionRow :=
  (s.oldest.find? fun r => r.id = preferred).or s.oldest.head?

/-- the last value of a serial column -/
def maxSerial : ℕ := 2147483647

def State.enqueue (s : State) (hostId type : String) : State :=
  if maxSerial ≤ s.serial then s
  else { s with
    serial := s.serial + 1
    rows := s.rows.put ⟨s.serial + 1, hostId, .pending, 0, s.clock, type, none, s.provider⟩
    log := .enqueued (s.serial + 1) hostId type :: s.log }

def State.take (s : State) (worker preferred : ℕ) : State :=
  if (s.taking.lookup worker).isSome then s
  else match s.next preferred with
    | none => { s with log := .refused worker :: s.log }
    | some r => { s with taking := (worker, r.id) :: s.taking }

/-- SET status = 'running', updatedat = NOW(), attempts = attempts + 1 -/
def ActionRow.run (r : ActionRow) (now : ℕ) : ActionRow :=
  { r with status := .running, updatedAt := some now, attempts := r.attempts + 1 }

def State.finish (s : State) (worker : ℕ) : State :=
  match (s.taking.lookup worker).bind s.rows.find with
  | none => s
  | some r => { s with
      rows := s.rows.put (r.run s.clock)
      taking := s.taking.filter fun t => t.1 ≠ worker
      log := (match (r.run s.clock).scan with
        | some record => .returned worker record
        | none => .refused worker) :: s.log }

/-- the worker was given this action -/
def State.has (s : State) (worker id : ℕ) : Bool :=
  s.log.any fun e => match e with
    | .returned w r => w = worker && r.id = id
    | _ => false

def State.mark (s : State) (worker id : ℕ) (status : ActionStatus) : State :=
  if s.has worker id ∧ (status = .done ∨ status = .failed) then
    match s.rows.find id with
    | none => s
    | some r => { s with rows := s.rows.put { r with status := status, updatedAt := some s.clock } }
  else s

def State.step (s : State) : Act → State
  | .tick => { s with clock := s.clock + 1 }
  | .enqueue hostId type => s.enqueue hostId type
  | .take worker preferred => s.take worker preferred
  | .finish worker => s.finish worker
  | .mark worker id status => s.mark worker id status

def State.run (s : State) (acts : List Act) : State := acts.foldl State.step s

/-! ## The invariant -/

/-- some worker was given this action -/
def State.given (s : State) (id : ℕ) : Prop := ∃ worker r, .returned worker r ∈ s.log ∧ r.id = id

/-- with a default for the provider column -/
structure QueueInv (s : State) : Prop where
  default : s.provider.isSome = true
  rows : ∀ id r, s.rows.find id = some r → r.provider.isSome = true ∧ id ≤ s.serial ∧
    .enqueued id r.hostId r.type ∈ s.log ∧ (r.status ≠ .pending → s.given id)
  enqueued : ∀ id hostId type, .enqueued id hostId type ∈ s.log →
    ∃ r, s.rows.find id = some r ∧ r.hostId = hostId ∧ r.type = type
  returned : ∀ worker rec, .returned worker rec ∈ s.log →
    ∃ r, s.rows.find rec.id = some r ∧ r.hostId = rec.hostId ∧ r.type = rec.type ∧ r.status ≠ .pending
  once : s.log.Pairwise fun later earlier => ∀ worker rec worker' rec', later = .returned worker rec →
    earlier = .returned worker' rec' → rec.id ≠ rec'.id
  taking : ∀ t ∈ s.taking, ∃ r, s.rows.find t.2 = some r ∧ r.status = .pending
  locks : (s.taking.map Prod.snd).Nodup

section Invariant
variable {s : State}

theorem mem_available {r : ActionRow} : r ∈ s.available ↔
    s.rows.find r.id = some r ∧ r.status = .pending ∧ ∀ t ∈ s.taking, t.2 ≠ r.id := by
  simp only [State.available, List.mem_filter, Bool.and_eq_true, decide_eq_true_eq, List.all_eq_true]
  exact and_congr_left' ⟨Table.find_mem, Table.mem_of_find⟩

theorem next_mem {preferred : ℕ} {r : ActionRow} (h : s.next preferred = some r) : r ∈ s.oldest := by
  unfold State.next at h
  cases hf : s.oldest.find? fun r => r.id = preferred with
  | some r' =>
    rw [hf, Option.some_or, Option.some.injEq] at h
    exact h ▸ List.mem_of_find?_eq_some hf
  | none => exact List.mem_of_head? (by simpa [hf] using h)

theorem oldest_subset {r : ActionRow} (h : r ∈ s.oldest) : r ∈ s.available := (List.mem_filter.mp h).1

theorem given_cons {e : Event} {id : ℕ} {t : State} (ht : t.log = e :: s.log) (h : s.given id) : t.given id := by
  obtain ⟨worker, r, hr, hid⟩ := h
  exact ⟨worker, r, ht ▸ List.mem_cons_of_mem _ hr, hid⟩

end Invariant

section Steps
variable {s : State}

theorem QueueInv.fresh (h : QueueInv s) : s.rows.find (s.serial + 1) = none := by
  cases hf : s.rows.find (s.serial + 1) with
  | none => rfl
  | some r => exact absurd (h.rows _ r hf).2.1 (by omega)

/-- nobody is given an action by other events -/
theorem once_cons {log : List Event} {e : Event} (he : ∀ worker r, e ≠ .returned worker r)
    (h : log.Pairwise fun later earlier => ∀ worker rec worker' rec', later = .returned worker rec →
      earlier = .returned worker' rec' → rec.id ≠ rec'.id) :
    (e :: log).Pairwise fun later earlier => ∀ worker rec worker' rec', later = .returned worker rec →
      earlier = .returned worker' rec' → rec.id ≠ rec'.id :=
  .cons (fun _ _ worker rec _ _ hl => absurd hl (he worker rec)) h

theorem QueueInv.enqueue (h : QueueInv s) (hostId type : String) : QueueInv (s.enqueue hostId type) := by
  unfold State.enqueue
  split_ifs with hmax
  · exact h
  have hne : ∀ {id r}, s.rows.find id = some r → s.serial + 1 ≠ id := fun hf he => by
    rw [← he, h.fresh] at hf
    cases hf
  have hfind : ∀ {id r}, s.rows.find id = some r → (s.rows.put
      ⟨s.serial + 1, hostId, .pending, 0, s.clock, type, none, s.provider⟩).find id = some r := fun hf => by
    rw [Table.find_put, if_neg (hne hf), hf]
  refine ⟨h.default, fun id r hr => ?_, fun id a b he => ?_, fun worker rec hrec => ?_, once_cons nofun h.once,
    fun t ht => ?_, h.locks⟩
  · rw [Table.find_put] at hr
    split_ifs at hr with hid
    · obtain rfl := Option.some.inj hr
      subst hid
      exact ⟨h.default, le_rfl, List.mem_cons_self, fun hp => absurd rfl hp⟩
    · obtain ⟨hp, hle, henq, hgiven⟩ := h.rows id r hr
      exact ⟨hp, Nat.le_succ_of_le hle, List.mem_cons_of_mem _ henq, fun hs => given_cons rfl (hgiven hs)⟩
  · rcases List.mem_cons.mp he with he | he
    · obtain ⟨rfl, rfl, rfl⟩ := Event.enqueued.inj he
      exact ⟨_, Table.find_put_self _ _, rfl, rfl⟩
    · obtain ⟨r, hr, hrest⟩ := h.enqueued id a b he
      exact ⟨r, hfind hr, hrest⟩
  · rcases List.mem_cons.mp hrec with he | hrec
    · cases he
    · obtain ⟨r, hr, hrest⟩ := h.returned worker rec hrec
      exact ⟨r, hfind hr, hrest⟩
  · obtain ⟨r, hr, hrest⟩ := h.taking t ht
    exact ⟨r, hfind hr, hrest⟩

theorem QueueInv.take (h : QueueInv s) (worker preferred : ℕ) : QueueInv (s.take worker preferred) := by
  unfold State.take
  split_ifs
  · exact h
  split
  · refine ⟨h.default, fun id r hr => ?_, fun id a b he => ?_, fun w rec hrec => ?_, once_cons nofun h.once, h.taking,
      h.locks⟩
    · obtain ⟨hp, hle, henq, hgiven⟩ := h.rows id r hr
      exact ⟨hp, hle, List.mem_cons_of_mem _ henq, fun hs => given_cons rfl (hgiven hs)⟩
    · exact h.enqueued id a b ((List.mem_cons.mp he).resolve_left nofun)
    · exact h.returned w rec ((List.mem_cons.mp hrec).resolve_left nofun)
  · rename_i r hr
    obtain ⟨hfind, hpending, hfree⟩ := mem_available.mp (oldest_subset (next_mem hr))
    refine ⟨h.default, h.rows, h.enqueued, h.returned, h.once, fun t ht => ?_, ?_⟩
    · rcases List.mem_cons.mp ht with rfl | ht
      · exact ⟨r, hfind, hpending⟩
      · exact h.taking t ht
    · rw [List.map_cons, List.nodup_cons]
      refine ⟨fun hmem => ?_, h.locks⟩
      obtain ⟨t, ht, he⟩ := List.mem_map.mp hmem
      exact hfree t ht he

/-- the rest of Next, on the row that the call has locked -/
theorem finish_eq (h : QueueInv s) {worker id : ℕ} (hw : s.taking.lookup worker = some id) :
    ∃ r rec, s.rows.find id = some r ∧ r.status = .pending ∧ (r.run s.clock).scan = some rec ∧ rec.id = id ∧
      rec.hostId = r.hostId ∧ rec.type = r.type ∧
      s.finish worker = { s with
        rows := s.rows.put (r.run s.clock)
        taking := s.taking.filter fun t => t.1 ≠ worker
        log := .returned worker rec :: s.log } := by
  obtain ⟨l₁, l₂, hl, -⟩ := List.lookup_eq_some_iff.mp hw
  obtain ⟨r, hr, hpending⟩ := h.taking (worker, id) (by simp [hl])
  obtain ⟨p, hp⟩ := Option.isSome_iff_exists.mp (h.rows id r hr).1
  have hscan : (r.run s.clock).scan = some ⟨r.id, r.hostId, r.attempts + 1, r.type, p, .running⟩ := by
    simp [ActionRow.scan, ActionRow.run, hp]
  have hkey : r.id = id := Table.key_of_find hr
  refine ⟨r, _, hr, hpending, hscan, hkey, rfl, rfl, ?_⟩
  simp [State.finish, hw, hr, hscan]

theorem QueueInv.finish (h : QueueInv s) (worker : ℕ) : QueueInv (s.finish worker) := by
  cases hw : s.taking.lookup worker with
  | none => simpa [State.finish, hw] using h
  | some id =>
    obtain ⟨r, rec, hr, hpending, -, hid, hhost, htype, heq⟩ := finish_eq h hw
    have hkey : (r.run s.clock).id = id := (Table.key_of_find hr : r.id = id)
    -- nobody was given the action before: its row was pending
    have hnew : ∀ w rec', .returned w rec' ∈ s.log → rec'.id ≠ id := by
      rintro w rec' hrec rfl
      obtain ⟨r', hr', -, -, hstatus⟩ := h.returned w rec' hrec
      exact hstatus (Option.some.inj (hr.symm.trans hr') ▸ hpending)
    have hfind : ∀ {i r'}, s.rows.find i = some r' → i ≠ id → (s.rows.put (r.run s.clock)).find i = some r' :=
      fun hf hne => by rw [Table.find_put_ne _ (by rw [hkey]; exact hne.symm), hf]
    have hself : (s.rows.put (r.run s.clock)).find id = some (r.run s.clock) := by
      rw [Table.find_put, if_pos hkey]
    rw [heq]
    refine ⟨h.default, fun i r' hr' => ?_, fun i a b he => ?_, fun w rec' hrec => ?_, ?_, fun t ht => ?_, ?_⟩
    · rw [Table.find_put, hkey] at hr'
      split_ifs at hr' with hi
      · obtain rfl := Option.some.inj hr'
        subst hi
        obtain ⟨hp, hle, henq, -⟩ := h.rows id r hr
        exact ⟨hp, hle, List.mem_cons_of_mem _ henq, fun _ => ⟨worker, rec, List.mem_cons_self, hid⟩⟩
      · obtain ⟨hp, hle, henq, hgiven⟩ := h.rows i r' hr'
        exact ⟨hp, hle, List.mem_cons_of_mem _ henq, fun hs => given_cons rfl (hgiven hs)⟩
    · obtain ⟨r', hr', hh, ht⟩ := h.enqueued i a b ((List.mem_cons.mp he).resolve_left (by simp))
      by_cases hi : i = id
      · subst hi
        obtain rfl := Option.some.inj (hr.symm.trans hr')
        exact ⟨_, hself, hh, ht⟩
      · exact ⟨r', hfind hr' hi, hh, ht⟩
    · rcases List.mem_cons.mp hrec with he | hrec
      · obtain ⟨rfl, rfl⟩ := Event.returned.inj he
        exact ⟨r.run s.clock, by rw [hid]; exact hself, hhost.symm, htype.symm, by simp [ActionRow.run]⟩
      · obtain ⟨r', hr', hrest⟩ := h.returned w rec' hrec
        exact ⟨r', hfind hr' (hnew w rec' hrec), hrest⟩
    · refine .cons (fun e he w rec₁ w' rec₂ h₁ h₂ => ?_) h.once
      obtain ⟨rfl, rfl⟩ := Event.returned.inj h₁
      subst h₂
      rw [hid]
      exact (hnew w' rec₂ he).symm
    · -- the other locks are on other rows
      obtain ⟨ht, hne⟩ := List.mem_filter.mp ht
      obtain ⟨r', hr', hp⟩ := h.taking t ht
      have hrow : t.2 ≠ id := by
        intro he
        obtain ⟨l₁, l₂, hl, hl₁⟩ := List.lookup_eq_some_iff.mp hw
        have hlocks := h.locks
        rw [hl, List.map_append, List.map_cons, List.nodup_append, List.nodup_cons] at hlocks
        rw [hl, List.mem_append, List.mem_cons] at ht
        rcases ht with ht | rfl | ht
        · exact hlocks.2.2 _ (List.mem_map_of_mem ht) _ List.mem_cons_self he
        · simp at hne
        · exact hlocks.2.1.1 (List.mem_map.mpr ⟨t, ht, he⟩)
      exact ⟨r', hfind hr' hrow, hp⟩
    · exact h.locks.sublist (List.filter_sublist.map _)

theorem QueueInv.mark (h : QueueInv s) (worker id : ℕ) (status : ActionStatus) : QueueInv (s.mark worker id status) := by
  unfold State.mark
  split_ifs with hhas
  swap
  · exact h
  split
  · exact h
  rename_i r hr
  obtain ⟨hhas, hstatus⟩ := hhas
  -- the action was given away, so its row was not pending and stays so
  have hgiven : s.given id := by
    simp only [State.has, List.any_eq_true] at hhas
    obtain ⟨e, he, hmatch⟩ := hhas
    cases e with
    | returned w rec => exact ⟨w, rec, he, by simp at hmatch; exact hmatch.2⟩
    | _ => cases hmatch
  have hne : status ≠ .pending := by rcases hstatus with rfl | rfl <;> decide
  have hkey : r.id = id := Table.key_of_find hr
  have hfind : ∀ i r', s.rows.find i = some r' →
      ∃ r'', (s.rows.put { r with status := status, updatedAt := some s.clock }).find i = some r'' ∧
        r''.hostId = r'.hostId ∧ r''.type = r'.type ∧ r''.provider = r'.provider ∧
        (r''.status = r'.status ∨ (i = id ∧ r''.status = status)) := by
    intro i r' hr'
    rw [Table.find_put]
    by_cases hi : r.id = i
    · rw [if_pos hi]
      rw [← hi, hkey] at hr'
      obtain rfl := Option.some.inj (hr.symm.trans hr')
      exact ⟨_, rfl, rfl, rfl, rfl, .inr ⟨hi.symm.trans hkey, rfl⟩⟩
    · rw [if_neg hi]
      exact ⟨r', hr', rfl, rfl, rfl, .inl rfl⟩
  refine ⟨h.default, fun i r' hr' => ?_, fun i a b he => ?_, fun w rec hrec => ?_, h.once, fun t ht => ?_, h.locks⟩
  · rw [Table.find_put] at hr'
    split_ifs at hr' with hi
    · obtain rfl := Option.some.inj hr'
      obtain rfl : id = i := hkey.symm.trans hi
      obtain ⟨hp, hle, henq, -⟩ := h.rows id r hr
      exact ⟨hp, hle, henq, fun _ => hgiven⟩
    · exact h.rows i r' hr'
  · obtain ⟨r', hr', rfl, rfl⟩ := h.enqueued i a b he
    obtain ⟨r'', hr'', hh, ht, -⟩ := hfind i r' hr'
    exact ⟨r'', hr'', hh, ht⟩
  · obtain ⟨r', hr', hh, ht, hs⟩ := h.returned w rec hrec
    obtain ⟨r'', hr'', hh', ht', -, hs'⟩ := hfind _ r' hr'
    refine ⟨r'', hr'', hh'.trans hh, ht'.trans ht, ?_⟩
    rcases hs' with hs' | ⟨-, hs'⟩
    · rwa [hs']
    · rwa [hs']
  · obtain ⟨r', hr', hp⟩ := h.taking t ht
    obtain ⟨r'', hr'', -, -, -, hs'⟩ := hfind _ r' hr'
    refine ⟨r'', hr'', ?_⟩
    rcases hs' with hs' | ⟨hid, -⟩
    · rw [hs', hp]
    · rw [hid] at hr'
      obtain ⟨w, rec, hrec, hrid⟩ := hgiven
      obtain ⟨r₀, hr₀, -, -, hs₀⟩ := h.returned w rec hrec
      rw [hrid] at hr₀
      exact absurd (Option.some.inj (hr'.symm.trans hr₀) ▸ hp) hs₀

theorem QueueInv.step (h : QueueInv s) (act : Act) : QueueInv (s.step act) := by
  cases act with
  | tick => exact ⟨h.default, h.rows, h.enqueued, h.returned, h.once, h.taking, h.locks⟩
  | enqueue hostId type => exact h.enqueue hostId type
  | take worker preferred => exact h.take worker preferred
  | finish worker => exact h.finish worker
  | mark worker id status => exact h.mark worker id status

theorem QueueInv.run (h : QueueInv s) (acts : List Act) : QueueInv (s.run acts) := by
  induction acts generalizing s with
  | nil => exact h
  | cons a acts ih => exact ih (h.step a)

end Steps

/-! ## Nothing is lost or duplicated -/

/-- the actions that nobody has begun to take or was given -/
def State.waiting (s : State) : ℕ := s.available.length

/-- `n` calls of Next by one worker, one after the other -/
def nexts (worker : ℕ) : ℕ → List Act
  | 0 => []
  | n + 1 => .take worker 0 :: .finish worker :: nexts worker n

structure Delivered (s : State) : Prop where
  /-- no action is given to two workers, or twice to one -/
  once : s.log.Pairwise fun later earlier => ∀ worker rec worker' rec', later = .returned worker rec →
    earlier = .returned worker' rec' → rec.id ≠ rec'.id
  /-- what is given is what was enqueued -/
  exact : ∀ worker rec, .returned worker rec ∈ s.log → .enqueued rec.id rec.hostId rec.type ∈ s.log
  /-- what was enqueued is pending or was given -/
  kept : ∀ id hostId type, .enqueued id hostId type ∈ s.log →
    (∃ r, s.rows.find id = some r ∧ r.status = .pending) ∨ s.given id
  /-- what is not pending was given -/
  left : ∀ id r, s.rows.find id = some r → r.status ≠ .pending → s.given id
  /-- Next finds an action if there is one that nobody takes; -/
  found : ∀ worker preferred, s.taking.lookup worker = none → s.available ≠ [] →
    ∃ r ∈ s.available, (s.take worker preferred).taking.lookup worker = some r.id
  /-- no other call takes it away, -/
  held : ∀ worker id act, s.taking.lookup worker = some id → act ≠ .finish worker →
    (s.step act).taking.lookup worker = some id
  /-- and Next returns it -/
  returned : ∀ worker id, s.taking.lookup worker = some id →
    ∃ rec, rec.id = id ∧ (s.finish worker).log = .returned worker rec :: s.log
  /-- as many calls as actions are waiting give all of them away -/
  drained : ∀ worker, s.taking.lookup worker = none → (s.run (nexts worker s.waiting)).available = []

section Delivered
variable {s : State}

theorem exists_oldest {l : List ActionRow} (h : l ≠ []) : ∃ r ∈ l, ∀ r' ∈ l, r.createdAt ≤ r'.createdAt := by
  induction l with
  | nil => exact absurd rfl h
  | cons a l ih =>
    by_cases hl : l = []
    · exact ⟨a, List.mem_cons_self, by simp [hl]⟩
    · obtain ⟨r, hr, hmin⟩ := ih hl
      rcases le_total a.createdAt r.createdAt with hle | hle
      · exact ⟨a, List.mem_cons_self, fun r' hr' => (List.mem_cons.mp hr').elim (fun he => he ▸ le_rfl)
          fun hr' => hle.trans (hmin r' hr')⟩
      · exact ⟨r, List.mem_cons_of_mem _ hr, fun r' hr' => (List.mem_cons.mp hr').elim (fun he => he ▸ hle)
          (hmin r')⟩

theorem next_isSome (h : s.available ≠ []) (preferred : ℕ) : ∃ r, s.next preferred = some r := by
  obtain ⟨r, hr, hmin⟩ := exists_oldest h
  have hold : r ∈ s.oldest := List.mem_filter.mpr ⟨hr, by simpa using hmin⟩
  unfold State.next
  cases hf : s.oldest.find? fun r => r.id = preferred with
  | some r' => exact ⟨r', rfl⟩
  | none =>
    obtain ⟨r', l, he⟩ := List.exists_cons_of_ne_nil (List.ne_nil_of_mem hold)
    exact ⟨r', by simp [he]⟩

theorem take_lookup {worker : ℕ} (preferred : ℕ) (hw : s.taking.lookup worker = none) (h : s.available ≠ []) :
    ∃ r ∈ s.available, s.take worker preferred = { s with taking := (worker, r.id) :: s.taking } := by
  obtain ⟨r, hr⟩ := next_isSome h preferred
  exact ⟨r, oldest_subset (next_mem hr), by simp [State.take, hw, hr]⟩

theorem lookup_filter_ne {worker w : ℕ} (h : worker ≠ w) (l : List (ℕ × ℕ)) :
    (l.filter fun t => decide (t.1 ≠ w)).lookup worker = l.lookup worker := by
  induction l with
  | nil => rfl
  | cons t l ih =>
    by_cases ht : t.1 = w
    · have hne : (worker == t.1) = false := beq_false_of_ne (ht ▸ h)
      rw [List.filter_cons_of_neg (by simpa using ht), List.lookup_cons, hne, ih]
    · rw [List.filter_cons_of_pos (by simpa using ht), List.lookup_cons, List.lookup_cons, ih]

theorem filter_free {worker : ℕ} {l : List (ℕ × ℕ)} (h : l.lookup worker = none) :
    (l.filter fun t => decide (t.1 ≠ worker)) = l := by
  rw [List.filter_eq_self]
  intro t ht
  have hne := List.lookup_eq_none_iff.mp h t ht
  exact decide_eq_true fun he => by simp [he] at hne

theorem step_held {worker id : ℕ} {act : Act} (hw : s.taking.lookup worker = some id) (ha : act ≠ .finish worker) :
    (s.step act).taking.lookup worker = some id := by
  cases act with
  | tick => exact hw
  | enqueue hostId type =>
    simp only [State.step, State.enqueue]
    split_ifs <;> exact hw
  | take w preferred =>
    simp only [State.step, State.take]
    split_ifs with hsome
    · exact hw
    · split
      · exact hw
      · have hne : worker ≠ w := by
          rintro rfl
          simp [hw] at hsome
        simpa [List.lookup_cons, beq_false_of_ne hne] using hw
  | finish w =>
    have hne : worker ≠ w := fun he => ha (he ▸ rfl)
    simp only [State.step, State.finish]
    split
    · exact hw
    · exact (lookup_filter_ne hne _).trans hw
  | mark w i status =>
    simp only [State.step, State.mark]
    split_ifs
    · split <;> exact hw
    · exact hw

/-- one call of Next gives away one of the waiting actions -/
theorem next_waiting (h : QueueInv s) {worker : ℕ} (hw : s.taking.lookup worker = none) (ha : s.available ≠ []) :
    (s.run [.take worker 0, .finish worker]).taking.lookup worker = none ∧
      (s.run [.take worker 0, .finish worker]).available.length < s.available.length := by
  obtain ⟨r, hr, htake⟩ := take_lookup 0 hw ha
  have hinv := h.take worker 0
  have hlock : (s.take worker 0).taking.lookup worker = some r.id := by simp [htake]
  obtain ⟨r', rec, hr', -, -, -, -, -, hfinish⟩ := finish_eq hinv hlock
  have hrun : s.run [.take worker 0, .finish worker] = (s.take worker 0).finish worker := rfl
  obtain rfl : r' = r := by
    rw [htake] at hr'
    exact Option.some.inj (hr'.symm.trans (mem_available.mp hr).1)
  have htaking : (s.run [.take worker 0, .finish worker]).taking = s.taking := by
    rw [hrun, hfinish, htake]
    simpa using filter_free hw
  refine ⟨htaking ▸ hw, ?_⟩
  have hrows : (s.run [.take worker 0, .finish worker]).rows = s.rows.put (r'.run s.clock) := by
    rw [hrun, hfinish, htake]
  -- the row that is running is no longer waiting, the others are the same
  have havail : (s.run [.take worker 0, .finish worker]).available =
      s.available.filter fun a => decide (a.id ≠ r'.id) := by
    simp only [State.available, htaking, hrows, Table.put, List.filter_filter]
    rw [List.filter_cons_of_neg (by simp [ActionRow.run])]
    rw [List.filter_filter]
    congr 1
    funext a
    by_cases ha : a.id = r'.id <;> simp [ActionRow.run, ha]
  rw [havail, List.length_filter_lt_length_iff_exists]
  exact ⟨r', hr, by simp⟩

theorem nexts_drain (h : QueueInv s) {worker : ℕ} (hw : s.taking.lookup worker = none) {n : ℕ}
    (hn : s.available.length ≤ n) : (s.run (nexts worker n)).available = [] := by
  induction n generalizing s with
  | zero => exact List.eq_nil_of_length_eq_zero (Nat.le_zero.mp hn)
  | succ n ih =>
    have hsplit : s.run (nexts worker (n + 1)) = (s.run [.take worker 0, .finish worker]).run (nexts worker n) := rfl
    rw [hsplit]
    by_cases ha : s.available = []
    · -- nothing waits: Next has no row
      have hnext : s.next 0 = none := by simp [State.next, State.oldest, ha]
      have hrun : s.run [.take worker 0, .finish worker] = { s with log := .refused worker :: s.log } := by
        simp [State.run, State.step, State.take, State.finish, hw, hnext]
      refine ih (h.run _) (by rw [hrun]; exact hw) ?_
      rw [hrun]
      show s.available.length ≤ n
      simp [ha]
    · obtain ⟨hfree, hlt⟩ := next_waiting h hw ha
      exact ih (h.run _) hfree (by omega)

theorem QueueInv.delivered (h : QueueInv s) : Delivered s where
  once := h.once
  exact worker rec hrec := by
    obtain ⟨r, hr, hh, ht, -⟩ := h.returned worker rec hrec
    have := (h.rows _ r hr).2.2.1
    rwa [hh, ht] at this
  kept id hostId type he := by
    obtain ⟨r, hr, -, -⟩ := h.enqueued id hostId type he
    by_cases hp : r.status = .pending
    · exact .inl ⟨r, hr, hp⟩
    · exact .inr ((h.rows id r hr).2.2.2 hp)
  left id r hr := (h.rows id r hr).2.2.2
  found worker preferred hw ha := by
    obtain ⟨r, hr, htake⟩ := take_lookup preferred hw ha
    exact ⟨r, hr, by simp [htake]⟩
  held worker id act hw hact := step_held hw hact
  returned worker id hw := by
    obtain ⟨r, rec, -, -, -, hid, -, -, heq⟩ := finish_eq h hw
    exact ⟨rec, hid, by rw [heq]⟩
  drained worker hw := nexts_drain h hw le_rfl

end Delivered

theorem queueInv_init {provider : Option String} (h : provider.isSome = true) : QueueInv { provider := provider } where
  default := h
  rows _ _ hr := by simp at hr
  enqueued _ _ _ he := by simp at he
  returned _ _ hr := by simp at hr
  once := .nil
  taking _ ht := by simp at ht
  locks := .nil

namespace Sample

/-- an action is enqueued and taken -/
def handover : List Act := [.enqueue "h1" "drain_host", .take 0 0, .finish 0]

end Sample

end Crane.Execute
