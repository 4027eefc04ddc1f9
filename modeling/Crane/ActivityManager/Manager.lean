/-
One scan of the activity manager (`RunHelp`): problems grouped by host, the cache of seen problems, decisions, enqueues.

The scan records a problem as seen before it enqueues the action, and decides once for every unseen problem of a host. So
a failed enqueue is not retried while the problem is in the cache, and a host with two unseen problem types gets two
actions. Without failed enqueues, and if no host has two types to act on, every host with an unseen problem gets one
action and nothing else is recorded. The hosts come in any order, as the source ranges over a Go map.
-/
import Crane.ActivityManager.ProblemCache

namespace Crane.ActivityManager

/-! ## Model -/

inductive ProblemType where
  | sel | smart | firmware | cloudEvent | reachability | cycling | noHeartbeat | instanceNotFound
deriving DecidableEq, Repr

def ProblemType.text : ProblemType → String
  | sel => "sel_event"
  | smart => "smart_failure"
  | firmware => "outdated_firmware"
  | cloudEvent => "cloud_health_event"
  | reachability => "unreachable"
  | cycling => "cycling_host"
  | noHeartbeat => "no_heartbeat"
  | instanceNotFound => "instance_not_found"

structure Problem where
  hostId : String
  type : ProblemType
  detectedAt : ℤ
deriving DecidableEq, Repr

/-- `ProblemCacheKey.String` -/
def cacheKey (hostId : String) (type : ProblemType) : String := hostId ++ "|" ++ type.text

inductive EscalationLevel where
  | none | drain | replace
deriving DecidableEq, Repr

/-- the counts of the last 10 and 30 minutes are taken and not used -/
def evaluateEscalation (_ : List Problem) (_now : ℤ) : EscalationLevel := .replace

inductive ActionType where
  | replaceHost | drainHost
deriving DecidableEq, Repr

structure Action where
  hostId : String
  type : ActionType
  provider : String
deriving DecidableEq, Repr

/-- `Decide` -/
def decideAction (hostId : String) (problems : List Problem) (now : ℤ) : Option Action :=
  if problems.length = 0 then none
  else match evaluateEscalation problems now with
    | .replace => some ⟨hostId, .replaceHost, "aws"⟩
    | .drain => some ⟨hostId, .drainHost, "aws"⟩
    | .none => none

/-- the readings of the clock in one round of the inner loop, and whether its Enqueue succeeds -/
structure Round where
  seenAt : ℤ
  recordedAt₁ : ℤ
  recordedAt₂ : ℤ
  decidedAt : ℤ
  enqueues : Bool
deriving DecidableEq, Repr

/-- an Enqueue call and its outcome -/
structure Attempt where
  action : Action
  ok : Bool
deriving DecidableEq, Repr

structure Scan where
  cache : LRCache
  log : List Attempt
  /-- how many rounds there were -/
  rounds : ℕ

/-- one round: problem `p` of a host with the problems `list` -/
def Scan.round (rounds : ℕ → Round) (hostId : String) (list : List Problem) (s : Scan) (p : Problem) : Option Scan := do
  let r := rounds s.rounds
  let (cache, seen) ← s.cache.seenRecently (cacheKey hostId p.type) r.seenAt
  if seen then some { s with cache := cache, rounds := s.rounds + 1 }
  else
    let cache ← cache.record (cacheKey hostId p.type) r.recordedAt₁ r.recordedAt₂
    match decideAction hostId list r.decidedAt with
    | some action => some ⟨cache, s.log ++ [⟨action, r.enqueues⟩], s.rounds + 1⟩
    | none => some { s with cache := cache, rounds := s.rounds + 1 }

/-- the problems of one host, in the order of the list -/
def group (problems : List Problem) (hostId : String) : List Problem := problems.filter fun p => p.hostId = hostId

def Scan.host (rounds : ℕ → Round) (problems : List Problem) (s : Scan) (hostId : String) : Option Scan :=
  (group problems hostId).foldlM (Scan.round rounds hostId (group problems hostId)) s

/-- `RunHelp`; `hosts` is the order in which the map of hosts is ranged over, `none` a failed GetRecentProblems -/
def runHelp (rounds : ℕ → Round) (hosts : List String) (problems : Option (List Problem)) (cache : LRCache) :
    Option Scan :=
  match problems with
  | none => some ⟨cache, [], 0⟩
  | some problems => hosts.foldlM (Scan.host rounds problems) ⟨cache, [], 0⟩

/-! ## Keys -/

theorem text_no_bar (t : ProblemType) : ∀ c ∈ t.text.toList, c ≠ '|' := by
  cases t <;> simp [ProblemType.text]

/-- the part after the last bar is the type -/
theorem cacheKey_inj {h h' : String} {t t' : ProblemType} (e : cacheKey h t = cacheKey h' t') : h = h' ∧ t = t' := by
  have hrev := congrArg (fun s : String => s.toList.reverse) e
  simp only [cacheKey, String.toList_append, List.reverse_append, List.append_assoc] at hrev
  have hbar : "|".toList.reverse = ['|'] := by decide
  rw [hbar] at hrev
  have htake : ∀ (t : ProblemType) (l : List Char),
      (t.text.toList.reverse ++ (['|'] ++ l)).takeWhile (· ≠ '|') = t.text.toList.reverse := by
    intro t l
    rw [List.takeWhile_append_of_pos]
    · simp
    · intro c hc
      simpa using text_no_bar t c (List.mem_reverse.mp hc)
  have htext : t.text.toList = t'.text.toList := by
    have := congrArg (List.takeWhile (· ≠ '|')) hrev
    rw [htake, htake] at this
    exact List.reverse_injective this
  rw [htext, List.append_cancel_left_eq, List.append_cancel_left_eq] at hrev
  refine ⟨String.toList_injective (List.reverse_injective hrev), ?_⟩
  revert htext
  cases t <;> cases t' <;> decide

/-- `Problem` under its key -/
def Problem.key (p : Problem) : String := cacheKey p.hostId p.type

/-! ## The cache under one round -/

/-- a well-formed cache with room for a key -/
def Good (c : LRCache) : Prop := (∃ es, Rep c es) ∧ 1 ≤ c.capacity

/-- two states of the cache with the same keys -/
structure SameKeys (c c' : LRCache) : Prop where
  good : Good c'
  capacity : c'.capacity = c.capacity
  has : ∀ k, c'.has k = c.has k
  size : c'.cache.rows.length = c.cache.rows.length

theorem SameKeys.refl {c : LRCache} (h : Good c) : SameKeys c c := ⟨h, rfl, fun _ => rfl, rfl⟩

theorem SameKeys.trans {c c' c'' : LRCache} (h : SameKeys c c') (h' : SameKeys c' c'') : SameKeys c c'' :=
  ⟨h'.good, h'.capacity.trans h.capacity, fun k => (h'.has k).trans (h.has k), h'.size.trans h.size⟩

/-- asking for a key keeps the keys -/
theorem Good.seenRecently {c : LRCache} (h : Good c) (key : String) (now : ℤ) :
    ∃ c', c.seenRecently key now = some (c', c.has key) ∧ SameKeys c c' := by
  obtain ⟨⟨es, hrep⟩, hcap⟩ := h
  cases hk : c.has key with
  | true =>
    obtain ⟨xs, x, ys, rfl, rfl, hf⟩ := hrep.split hk
    obtain ⟨c', n, hrun, hrep', hsame⟩ := hrep.seenRecently_present hf now
    refine ⟨c', hrun, ⟨⟨_, hrep'⟩, by rw [hsame.capacity]; exact hcap⟩, hsame.capacity, fun k => ?_, ?_⟩
    · exact has_of_keys hrep hrep' (keys_refresh k)
    · rw [hrep.length, hrep'.length]
      simp only [List.length_append, List.length_cons, List.length_nil]
      omega
  | false =>
    have hnone : c.cache.find key = none := by simpa [LRCache.has] using hk
    exact ⟨c, by simp [LRCache.seenRecently, hnone], .refl ⟨⟨es, hrep⟩, hcap⟩⟩

/-- a new key enters the cache, which loses a key only if it is full -/
structure Enters (key : String) (c c' : LRCache) : Prop where
  good : Good c'
  capacity : c'.capacity = c.capacity
  self : c'.has key = true
  only : ∀ k, c'.has k = true → k = key ∨ c.has k = true
  kept : c.cache.rows.length < c.capacity → ∀ k, c.has k = true → c'.has k = true
  size : c'.cache.rows.length ≤ c.cache.rows.length + 1

theorem Good.record {c : LRCache} (h : Good c) {key : String} (hk : c.has key = false) (now₁ now₂ : ℤ) :
    ∃ c', c.record key now₁ now₂ = some c' ∧ Enters key c c' := by
  obtain ⟨⟨es, hrep⟩, hcap⟩ := h
  obtain ⟨c', n, hrun, hrep', hsame⟩ := hrep.record_absent hk hcap now₁ now₂
  have hsub : (if c.capacity = es.length then es.tail else es).Sublist es := by
    split_ifs
    · exact List.tail_sublist es
    · exact List.Sublist.refl es
  refine ⟨c', hrun, ⟨⟨_, hrep'⟩, by rw [hsame.capacity]; exact hcap⟩, hsame.capacity, ?_, ?_, ?_, ?_⟩
  · exact hrep'.has.mpr (by simp)
  · intro k hk'
    have hmem := hrep'.has.mp hk'
    rw [List.map_append, List.mem_append] at hmem
    rcases hmem with hmem | hmem
    · exact .inr (hrep.has.mpr ((hsub.map _).subset hmem))
    · exact .inl (List.mem_singleton.mp hmem)
  · intro hroom k hk'
    rw [hrep.length] at hroom
    rw [if_neg (by omega)] at hrep'
    refine hrep'.has.mpr ?_
    rw [List.map_append, List.mem_append]
    exact .inl (hrep.has.mp hk')
  · rw [hrep.length, hrep'.length, List.length_append, List.length_singleton]
    have := hsub.length_le
    omega

/-! ## The problems of one host -/

section Host
variable (rounds : ℕ → Round) {hostId : String} (list : List Problem)

/-- the decision for a host with problems -/
theorem decideAction_some (hostId : String) (hl : list ≠ []) (now : ℤ) :
    decideAction hostId list now = some ⟨hostId, .replaceHost, "aws"⟩ := by
  have hlen : ¬list.length = 0 := fun e => hl (List.length_eq_zero_iff.mp e)
  rw [decideAction, if_neg hlen]
  rfl

theorem round_seen {s : Scan} (hg : Good s.cache) {p : Problem} (hk : s.cache.has (cacheKey hostId p.type) = true) :
    ∃ c', s.round rounds hostId list p = some ⟨c', s.log, s.rounds + 1⟩ ∧ SameKeys s.cache c' := by
  obtain ⟨c', hrun, hsame⟩ := hg.seenRecently (cacheKey hostId p.type) (rounds s.rounds).seenAt
  exact ⟨c', by simp [Scan.round, hrun, hk], hsame⟩

theorem round_new {s : Scan} (hg : Good s.cache) (hl : list ≠ []) {p : Problem}
    (hk : s.cache.has (cacheKey hostId p.type) = false) :
    ∃ c', s.round rounds hostId list p =
        some ⟨c', s.log ++ [⟨⟨hostId, .replaceHost, "aws"⟩, (rounds s.rounds).enqueues⟩], s.rounds + 1⟩ ∧
      Enters (cacheKey hostId p.type) s.cache c' := by
  obtain ⟨c₁, hseen, hsame⟩ := hg.seenRecently (cacheKey hostId p.type) (rounds s.rounds).seenAt
  have hk₁ : c₁.has (cacheKey hostId p.type) = false := (hsame.has _).trans hk
  obtain ⟨c', hrun, hent⟩ := hsame.good.record hk₁ (rounds s.rounds).recordedAt₁ (rounds s.rounds).recordedAt₂
  refine ⟨c', ?_, hent.good, hent.capacity.trans hsame.capacity, hent.self, ?_, ?_, ?_⟩
  · simp [Scan.round, hseen, hk, hrun, decideAction_some list hostId hl]
  · intro k hk'
    rw [← hsame.has k]
    exact hent.only k hk'
  · intro hroom k hk'
    refine hent.kept ?_ k ((hsame.has k).trans hk')
    rw [hsame.size, hsame.capacity]
    exact hroom
  · rw [← hsame.size]
    exact hent.size

/-- a host whose problems have all been seen gets no action -/
theorem rounds_seen {s : Scan} (hg : Good s.cache) {l : List Problem}
    (hl : ∀ p ∈ l, s.cache.has (cacheKey hostId p.type) = true) :
    ∃ c', l.foldlM (Scan.round rounds hostId list) s = some ⟨c', s.log, s.rounds + l.length⟩ ∧ SameKeys s.cache c' := by
  induction l generalizing s with
  | nil => exact ⟨s.cache, rfl, .refl hg⟩
  | cons p l ih =>
    obtain ⟨c₁, hround, hsame⟩ := round_seen rounds list hg (hl p (by simp))
    have hrest : ∀ q ∈ l, c₁.has (cacheKey hostId q.type) = true := by
      intro q hq
      rw [hsame.has]
      exact hl q (List.mem_cons_of_mem _ hq)
    obtain ⟨c', hrun, hsame'⟩ := ih (s := ⟨c₁, s.log, s.rounds + 1⟩) hsame.good hrest
    refine ⟨c', ?_, hsame.trans hsame'⟩
    rw [List.foldlM_cons, hround]
    simp only [Option.bind_eq_bind, Option.bind_some, hrun, List.length_cons]
    rw [Nat.add_assoc, Nat.add_comm 1]

/-- what the rounds of one host do: at most one attempt, and then only one new key -/
structure HostDone (hostId : String) (l : List Problem) (s s' : Scan) (new : List Attempt) : Prop where
  good : Good s'.cache
  capacity : s'.cache.capacity = s.cache.capacity
  log : s'.log = s.log ++ new
  once : new.length ≤ 1
  attempt : ∀ e ∈ new, e.action.hostId = hostId ∧ ∃ n, e.ok = (rounds n).enqueues
  skipped : new = [] ↔ ∀ p ∈ l, s.cache.has (cacheKey hostId p.type) = true
  only : ∀ k, s'.cache.has k = true → s.cache.has k = true ∨ (new ≠ [] ∧ ∃ p ∈ l, k = cacheKey hostId p.type)
  kept : (new ≠ [] → s.cache.cache.rows.length < s.cache.capacity) → ∀ k, s.cache.has k = true → s'.cache.has k = true
  size : s'.cache.cache.rows.length ≤ s.cache.cache.rows.length + new.length

/-- **One host.** All its problems are of one type or have been seen, and there is room for a key or they are all of one
type. -/
theorem rounds_host {s : Scan} (hg : Good s.cache) (hlist : list ≠ []) {l : List Problem} (t : ProblemType)
    (hl : ∀ p ∈ l, p.type = t ∨ s.cache.has (cacheKey hostId p.type) = true)
    (hroom : s.cache.cache.rows.length < s.cache.capacity ∨ ∀ p ∈ l, p.type = t) :
    ∃ s' new, l.foldlM (Scan.round rounds hostId list) s = some s' ∧ HostDone rounds hostId l s s' new := by
  induction l generalizing s with
  | nil =>
    exact ⟨s, [], rfl, hg, rfl, by simp, by simp, by simp, by simp, fun k hk => .inl hk, fun _ _ hk => hk, by simp⟩
  | cons p l ih =>
    cases hk : s.cache.has (cacheKey hostId p.type) with
    | true =>
      obtain ⟨c₁, hround, hsame⟩ := round_seen rounds list hg hk
      have hl₁ : ∀ q ∈ l, q.type = t ∨ c₁.has (cacheKey hostId q.type) = true := by
        intro q hq
        rw [hsame.has]
        exact hl q (List.mem_cons_of_mem _ hq)
      have hroom₁ : c₁.cache.rows.length < c₁.capacity ∨ ∀ q ∈ l, q.type = t := by
        rw [hsame.size, hsame.capacity]
        exact hroom.imp id fun h q hq => h q (List.mem_cons_of_mem _ hq)
      obtain ⟨s', new, hrun, hdone⟩ := ih (s := ⟨c₁, s.log, s.rounds + 1⟩) hsame.good hl₁ hroom₁
      refine ⟨s', new, ?_, hdone.good, hdone.capacity.trans hsame.capacity, hdone.log, hdone.once, hdone.attempt, ?_, ?_, ?_,
        ?_⟩
      · rw [List.foldlM_cons, hround]
        exact hrun
      · have hskip := hdone.skipped
        simp only [hsame.has] at hskip
        rw [hskip, List.forall_mem_cons]
        exact ⟨fun h => ⟨hk, h⟩, fun h => h.2⟩
      · intro k hk'
        rcases hdone.only k hk' with hold | ⟨hnew, q, hq, rfl⟩
        · exact .inl ((hsame.has k).symm.trans hold)
        · exact .inr ⟨hnew, q, List.mem_cons_of_mem _ hq, rfl⟩
      · intro hr k hk'
        refine hdone.kept (fun hnew => ?_) k ((hsame.has k).trans hk')
        show c₁.cache.rows.length < c₁.capacity
        rw [hsame.size, hsame.capacity]
        exact hr hnew
      · exact hsame.size ▸ hdone.size
    | false =>
      -- the one attempt; the rest of the problems are seen by now
      have hpt : p.type = t := (hl p (by simp)).resolve_right (by simp [hk])
      obtain ⟨c₁, hround, hent⟩ := round_new rounds list hg hlist hk
      have hrest : ∀ q ∈ l, c₁.has (cacheKey hostId q.type) = true := by
        intro q hq
        rcases hl q (List.mem_cons_of_mem _ hq) with hqt | hseen
        · rw [hqt, ← hpt]
          exact hent.self
        · rcases hroom with hroom | hall
          · exact hent.kept hroom _ hseen
          · rw [hall q (List.mem_cons_of_mem _ hq), ← hpt]
            exact hent.self
      obtain ⟨c', hrun, hsame⟩ := rounds_seen rounds list
        (s := ⟨c₁, s.log ++ [⟨⟨hostId, .replaceHost, "aws"⟩, (rounds s.rounds).enqueues⟩], s.rounds + 1⟩) hent.good hrest
      refine ⟨⟨c', s.log ++ [⟨⟨hostId, .replaceHost, "aws"⟩, (rounds s.rounds).enqueues⟩], s.rounds + 1 + l.length⟩,
        [⟨⟨hostId, .replaceHost, "aws"⟩, (rounds s.rounds).enqueues⟩], ?_, hsame.good,
        hsame.capacity.trans hent.capacity, rfl, by simp, ?_, by simp [hk], ?_, ?_, ?_⟩
      · rw [List.foldlM_cons, hround]
        exact hrun
      · intro e he
        rw [List.mem_singleton.mp he]
        exact ⟨rfl, s.rounds, rfl⟩
      · intro k hk'
        have hk' : c'.has k = true := hk'
        rw [hsame.has] at hk'
        rcases hent.only k hk' with rfl | hold
        · exact .inr ⟨by simp, p, by simp, rfl⟩
        · exact .inl hold
      · intro hr k hk'
        show c'.has k = true
        rw [hsame.has]
        exact hent.kept (hr (by simp)) k hk'
      · show c'.cache.rows.length ≤ _
        rw [hsame.size]
        exact hent.size

end Host

/-! ## The scan -/

/-- a host with a problem that the cache does not know -/
def unseen (c : LRCache) (problems : List Problem) (hostId : String) : Bool :=
  (group problems hostId).any fun p => !c.has (cacheKey hostId p.type)

/-- two problems of one host are of one type, or one of them has been seen and the cache has room for a key of every host
with an unseen problem -/
def steady (c : LRCache) (hosts : List String) (problems : List Problem) : Bool :=
  problems.all fun p => problems.all fun q => p.hostId ≠ q.hostId || p.type = q.type ||
    ((c.has (cacheKey p.hostId p.type) || c.has (cacheKey q.hostId q.type)) &&
      decide (((c.cache.rows.length + (hosts.filter (unseen c problems)).length : ℕ) : ℤ) ≤ c.capacity))

/-- the hosts that have been scanned, against the cache `c₀` before the scan -/
structure Scanned (rounds : ℕ → Round) (c₀ : LRCache) (problems : List Problem) (hosts : List String)
    (s : Scan) : Prop where
  good : Good s.cache
  capacity : s.cache.capacity = c₀.capacity
  /-- every host at most once, and once if it had an unseen problem -/
  once : ∀ h, (s.log.filter fun e => e.action.hostId = h).length ≤ 1
  acted : ∀ h ∈ hosts, unseen c₀ problems h = true → ∃ e ∈ s.log, e.action.hostId = h
  attempt : ∀ e ∈ s.log, e.action.hostId ∈ hosts ∧ ∃ n, e.ok = (rounds n).enqueues
  only : ∀ k, s.cache.has k = true → c₀.has k = true ∨ ∃ e ∈ s.log, ∃ t, k = cacheKey e.action.hostId t

/-- with room, nothing is lost and there is room for the hosts still to come -/
structure Roomy (c₀ : LRCache) (problems : List Problem) (rest : List String) (c : LRCache) : Prop where
  kept : ∀ k, c₀.has k = true → c.has k = true
  room : ((c.cache.rows.length + (rest.filter (unseen c₀ problems)).length : ℕ) : ℤ) ≤ c.capacity

section Run
variable (rounds : ℕ → Round) {c₀ : LRCache} {problems : List Problem}

theorem mem_group {h : String} {p : Problem} : p ∈ group problems h ↔ p ∈ problems ∧ p.hostId = h := by
  simp [group]

/-- the problems of a host as its rounds meet them -/
theorem host_types {h : String} {rest hosts : List String} {c : LRCache} (hne : group problems h ≠ [])
    (hsteady : steady c₀ hosts problems = true)
    (hroomy : ((c₀.cache.rows.length + (hosts.filter (unseen c₀ problems)).length : ℕ) : ℤ) ≤ c₀.capacity →
      Roomy c₀ problems (h :: rest) c) :
    ∃ t, (∀ p ∈ group problems h, p.type = t ∨ c.has (cacheKey h p.type) = true) ∧
      (c.cache.rows.length < c.capacity ∨ (∀ p ∈ group problems h, c.has (cacheKey h p.type) = true) ∨
        ∀ p ∈ group problems h, p.type = t) := by
  have hpair : ∀ p ∈ group problems h, ∀ q ∈ group problems h, p.type = q.type ∨
      ((c₀.has (cacheKey h p.type) = true ∨ c₀.has (cacheKey h q.type) = true) ∧
        ((c₀.cache.rows.length + (hosts.filter (unseen c₀ problems)).length : ℕ) : ℤ) ≤ c₀.capacity) := by
    intro p hp q hq
    obtain ⟨hpm, hph⟩ := mem_group.mp hp
    obtain ⟨hqm, hqh⟩ := mem_group.mp hq
    have := List.all_eq_true.mp (List.all_eq_true.mp hsteady p hpm) q hqm
    simp only [Bool.or_eq_true, Bool.and_eq_true, decide_eq_true_eq, hph, hqh, ne_eq, not_true_eq_false, false_or] at this
    exact this
  by_cases hsame : ∀ p ∈ group problems h, ∀ q ∈ group problems h, p.type = q.type
  · obtain ⟨p, l, hg⟩ := List.exists_cons_of_ne_nil hne
    have hp : p ∈ group problems h := by simp [hg]
    exact ⟨p.type, fun q hq => .inl (hsame q hq p hp), .inr (.inr fun q hq => hsame q hq p hp)⟩
  · -- two types: there is room, and all but one type have been seen
    push Not at hsame
    obtain ⟨p, hp, q, hq, hpq⟩ := hsame
    have hcap := ((hpair p hp q hq).resolve_left hpq).2
    have hr := hroomy hcap
    by_cases hun : unseen c₀ problems h = true
    · obtain ⟨x, hx, hxk⟩ := List.any_eq_true.mp hun
      refine ⟨x.type, fun y hy => ?_, .inl ?_⟩
      · rcases hpair y hy x hx with e | ⟨hseen | hseen, -⟩
        · exact .inl e
        · exact .inr (hr.kept _ hseen)
        · simp [hseen] at hxk
      · have := hr.room
        rw [List.filter_cons_of_pos hun, List.length_cons] at this
        omega
    · have hall : ∀ y ∈ group problems h, c.has (cacheKey h y.type) = true := by
        intro y hy
        apply hr.kept
        by_contra hno
        exact hun (List.any_eq_true.mpr ⟨y, hy, by simpa using hno⟩)
      exact ⟨p.type, fun y hy => .inr (hall y hy), .inr (.inl hall)⟩

/-- a host in its turn -/
theorem host_done {h : String} {rest hosts : List String} {s : Scan} (hg : Good s.cache) (hne : group problems h ≠ [])
    (hsteady : steady c₀ hosts problems = true)
    (hroomy : ((c₀.cache.rows.length + (hosts.filter (unseen c₀ problems)).length : ℕ) : ℤ) ≤ c₀.capacity →
      Roomy c₀ problems (h :: rest) s.cache) :
    ∃ s' new, s.host rounds problems h = some s' ∧ HostDone rounds h (group problems h) s s' new := by
  obtain ⟨t, htypes, hroom | hseen | hall⟩ := host_types hne hsteady hroomy
  · exact rounds_host rounds _ hg hne t htypes (.inl hroom)
  · obtain ⟨c', hrun, hsame⟩ := rounds_seen rounds (group problems h) hg hseen
    refine ⟨_, [], hrun, hsame.good, hsame.capacity, by simp, by simp, by simp, ⟨fun _ => hseen, fun _ => rfl⟩, ?_, ?_, ?_⟩
    · intro k hk
      exact .inl ((hsame.has k).symm.trans hk)
    · intro _ k hk
      exact (hsame.has k).trans hk
    · exact hsame.size.le
  · exact rounds_host rounds _ hg hne t htypes (.inr hall)

theorem Roomy.host {h : String} {rest : List String} {s s' : Scan} {new : List Attempt}
    (hr : Roomy c₀ problems (h :: rest) s.cache) (hd : HostDone rounds h (group problems h) s s' new) :
    Roomy c₀ problems rest s'.cache := by
  have hunseen : new ≠ [] → unseen c₀ problems h = true := by
    intro hnew
    obtain ⟨p, hp, hpk⟩ : ∃ p ∈ group problems h, ¬s.cache.has (cacheKey h p.type) = true := by
      by_contra hall
      push Not at hall
      exact hnew (hd.skipped.mpr hall)
    refine List.any_eq_true.mpr ⟨p, hp, ?_⟩
    rw [Bool.not_eq_true', Bool.eq_false_iff]
    exact fun hk => hpk (hr.kept _ hk)
  have hroom := hr.room
  have hsize := hd.size
  refine ⟨fun k hk => hd.kept (fun hnew => ?_) k (hr.kept k hk), ?_⟩
  · rw [List.filter_cons_of_pos (hunseen hnew), List.length_cons] at hroom
    omega
  · rw [hd.capacity]
    by_cases hnew : new = []
    · have hle : (rest.filter (unseen c₀ problems)).length ≤ ((h :: rest).filter (unseen c₀ problems)).length :=
        ((List.sublist_cons_self h rest).filter _).length_le
      simp only [hnew, List.length_nil] at hsize
      omega
    · rw [List.filter_cons_of_pos (hunseen hnew), List.length_cons] at hroom
      have := hd.once
      omega

theorem Scanned.host {h : String} {done : List String} {s s' : Scan} {new : List Attempt}
    (hs : Scanned rounds c₀ problems done s) (hh : h ∉ done) (hd : HostDone rounds h (group problems h) s s' new) :
    Scanned rounds c₀ problems (done ++ [h]) s' := by
  -- the host has no attempts yet
  have hnone : ∀ e ∈ s.log, e.action.hostId ≠ h := by
    rintro e he rfl
    exact hh (hs.attempt e he).1
  refine ⟨hd.good, hd.capacity.trans hs.capacity, ?_, ?_, ?_, ?_⟩
  · intro h'
    rw [hd.log, List.filter_append, List.length_append]
    by_cases hh' : h' = h
    · subst hh'
      rw [List.filter_eq_nil_iff.mpr (by simpa using hnone), List.length_nil, Nat.zero_add]
      exact (List.length_filter_le _ _).trans hd.once
    · have hnew : new.filter (fun e => decide (e.action.hostId = h')) = [] := by
        refine List.filter_eq_nil_iff.mpr fun e he => ?_
        rw [(hd.attempt e he).1]
        simpa using Ne.symm hh'
      rw [hnew]
      exact hs.once h'
  · intro h' hmem hun
    rw [hd.log]
    rcases List.mem_append.mp hmem with hmem | hmem
    · obtain ⟨e, he, heh⟩ := hs.acted h' hmem hun
      exact ⟨e, List.mem_append_left _ he, heh⟩
    · obtain rfl := List.mem_singleton.mp hmem
      have hnew : new ≠ [] := by
        intro hnew
        obtain ⟨p, hp, hpk⟩ := List.any_eq_true.mp hun
        rcases hs.only _ (hd.skipped.mp hnew p hp) with hk | ⟨e, he, t, hkey⟩
        · simp [hk] at hpk
        · exact hnone e he (cacheKey_inj hkey).1.symm
      obtain ⟨e, l, rfl⟩ := List.exists_cons_of_ne_nil hnew
      exact ⟨e, by simp, (hd.attempt e (by simp)).1⟩
  · intro e he
    rw [hd.log] at he
    rcases List.mem_append.mp he with he | he
    · obtain ⟨hmem, hn⟩ := hs.attempt e he
      exact ⟨List.mem_append_left _ hmem, hn⟩
    · obtain ⟨heh, hn⟩ := hd.attempt e he
      exact ⟨by simp [heh], hn⟩
  · intro k hk
    rw [hd.log]
    rcases hd.only k hk with hold | ⟨hnew, p, -, rfl⟩
    · rcases hs.only k hold with hk₀ | ⟨e, he, t, hkey⟩
      · exact .inl hk₀
      · exact .inr ⟨e, List.mem_append_left _ he, t, hkey⟩
    · obtain ⟨e, l, rfl⟩ := List.exists_cons_of_ne_nil hnew
      refine .inr ⟨e, by simp, p.type, ?_⟩
      rw [(hd.attempt e (by simp)).1]

/-- **All hosts.** -/
theorem hosts_scanned {hosts : List String} (hsteady : steady c₀ hosts problems = true) (rest : List String)
    {done : List String} {s : Scan} (hnd : (done ++ rest).Nodup) (hmem : ∀ h ∈ rest, group problems h ≠ [])
    (hs : Scanned rounds c₀ problems done s)
    (hroomy : ((c₀.cache.rows.length + (hosts.filter (unseen c₀ problems)).length : ℕ) : ℤ) ≤ c₀.capacity →
      Roomy c₀ problems rest s.cache) :
    ∃ s', rest.foldlM (Scan.host rounds problems) s = some s' ∧ Scanned rounds c₀ problems (done ++ rest) s' := by
  induction rest generalizing done s with
  | nil => exact ⟨s, rfl, by simpa using hs⟩
  | cons h rest ih =>
    obtain ⟨s₁, new, hhost, hd⟩ := host_done rounds hs.good (hmem h (by simp)) hsteady hroomy
    have hh : h ∉ done := by
      intro hin
      exact List.disjoint_of_nodup_append hnd hin (by simp)
    obtain ⟨s', hrun, hs'⟩ := ih (show (done ++ [h] ++ rest).Nodup by simpa using hnd) (fun h' hh' => hmem h' (List.mem_cons_of_mem _ hh'))
      (hs.host rounds hh hd) (fun hcap => (hroomy hcap).host rounds hd)
    refine ⟨s', ?_, by simpa using hs'⟩
    rw [List.foldlM_cons, hhost]
    exact hrun

end Run

namespace Sample

def succeeds : Round := ⟨0, 0, 0, 0, true⟩

def fails : Round := ⟨0, 0, 0, 0, false⟩

end Sample

end Crane.ActivityManager
