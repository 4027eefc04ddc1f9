/-
One scan of the bad host detector (`internal/badhost/detector.go`, `ScanZone`) over the host table
(`internal/hostcatalog/store/repository.go`, `GetByZone`).

`GetByZone` reads the whole table: its query has no condition, so the hosts of every zone are scanned. And it reads five
nullable columns into plain strings, so that one row without a role makes the whole list fail, and nothing is recorded. If
no host outside the zone has a problem and every row is complete, a scan attempts to record exactly the problems that the
checks report, whichever checks and writes fail.

A check is what it reports of a host: it may fail or report any number of problems, and does not change the host.
-/
import Crane.Api
import Crane.ActivityManager.Manager
import Crane.Lib.Table

namespace Crane.BadHost

open ActivityManager (ProblemType)

/-! ## The host table -/

/-- the columns that `GetByZone` selects -/
structure HostRow where
  id : String
  role : Option String
  zone : Option String
  imageId : Option String
  state : HostState
  health : Option String
  createdAt : Option ℕ
  provider : Option String
  providerId : Option String
  lastSeenHeartbeat : Option ℕ
  isProtected : Bool
  subdEndpoint : String
deriving DecidableEq, Repr

/-- the fields of api.Host that it fills in -/
structure Host where
  id : String
  role : String
  zone : String
  imageId : String
  state : HostState
  health : String
  createdAt : ℕ
  provider : String
  providerId : String
  lastSeenHeartbeat : Option ℕ
  isProtected : Bool
  subdEndpoint : String
deriving DecidableEq, Repr

/-- rows.Scan, which fails on NULL in a column that is read into a plain value -/
def HostRow.scan (r : HostRow) : Option Host := do
  let role ← r.role
  let zone ← r.zone
  let imageId ← r.imageId
  let health ← r.health
  let createdAt ← r.createdAt
  return ⟨r.id, role, zone, imageId, r.state, health, createdAt, r.provider.getD "", r.providerId.getD "",
    r.lastSeenHeartbeat, r.isProtected, r.subdEndpoint⟩

/-- the zone is not used: SELECT ... FROM host has no condition; the first row that does not scan is an error -/
def getByZone (_zone : String) (rows : List HostRow) : Option (List Host) := rows.mapM HostRow.scan

/-! ## The scan -/

inductive Severity where
  | critical | warning | info
deriving DecidableEq, Repr

structure Problem where
  type : ProblemType
  severity : Severity
  details : String
deriving DecidableEq, Repr

structure Check where
  name : String
  detect : Host → Except String (List Problem)

/-- a row of host_problems -/
structure ProblemRow where
  hostId : String
  problem : Problem
deriving DecidableEq, Repr

/-- the problem store: all calls of `RecordProblem` in order, and the rows they left -/
structure ProblemStore where
  attempts : List (String × Problem) := []
  rows : List ProblemRow := []
deriving DecidableEq, Repr

/-- the row of an INSERT; empty details are stored as null -/
def problemRow (hostId : String) (p : Problem) : ProblemRow :=
  ⟨hostId, { p with details := if p.details = "" then "null" else p.details }⟩

/-- `fails` says which writes fail, by their number -/
def recordProblem (fails : ℕ → Bool) (hostId : String) (p : Problem) (s : ProblemStore) : ProblemStore where
  attempts := s.attempts ++ [(hostId, p)]
  rows := if fails s.attempts.length then s.rows else s.rows ++ [problemRow hostId p]

/-- adds what a check reports; a check that fails is logged and passed over -/
def collect (problems : List Problem) : Except String (List Problem) → List Problem
  | .error _ => problems
  | .ok ps => problems ++ ps

def detectProblems (checks : List Check) (host : Host) : List Problem :=
  checks.foldl (fun problems check => collect problems (check.detect host)) []

def scanZone (fails : ℕ → Bool) (checks : List Check) (hosts : Table HostRow.id) (zone : String) (s : ProblemStore) :
    ProblemStore :=
  -- a failed list is logged, and there are no hosts then
  ((getByZone zone hosts.rows).getD []).foldl (fun s host =>
    (detectProblems checks host).foldl (fun s p => recordProblem fails host.id p s) s) s

/-! ## What a scan is for -/

/-- the host of a row -/
def HostRow.host (r : HostRow) : Host :=
  ⟨r.id, r.role.getD "", r.zone.getD "", r.imageId.getD "", r.state, r.health.getD "", r.createdAt.getD 0,
    r.provider.getD "", r.providerId.getD "", r.lastSeenHeartbeat, r.isProtected, r.subdEndpoint⟩

/-- no column that has to be there is NULL -/
def HostRow.complete (r : HostRow) : Bool :=
  r.role.isSome && r.zone.isSome && r.imageId.isSome && r.health.isSome && r.createdAt.isSome

/-- the problems of a host: what the checks report that do not fail -/
def reported (checks : List Check) (host : Host) : List Problem :=
  checks.flatMap fun check => collect [] (check.detect host)

/-- the problems of the hosts of a zone, each under its host -/
def due (checks : List Check) (hosts : Table HostRow.id) (zone : String) : List (String × Problem) :=
  (hosts.rows.filter fun r => r.zone = some zone).flatMap fun r => (reported checks r.host).map fun p => (r.id, p)

/-- the rows of the attempts that succeed, the first of which has number `n` -/
def written (fails : ℕ → Bool) (n : ℕ) (attempts : List (String × Problem)) : List ProblemRow :=
  (attempts.zipIdx n).filterMap fun (a, i) => if fails i then none else some (problemRow a.1 a.2)

section Scan
variable {fails : ℕ → Bool} {checks : List Check}

theorem collect_append (problems : List Problem) (r : Except String (List Problem)) :
    collect problems r = problems ++ collect [] r := by
  cases r <;> simp [collect]

theorem detectProblems_eq (checks : List Check) (host : Host) : detectProblems checks host = reported checks host := by
  have hacc : ∀ acc, checks.foldl (fun problems check => collect problems (check.detect host)) acc =
      acc ++ reported checks host := by
    induction checks with
    | nil => simp [reported]
    | cons c checks ih =>
      intro acc
      rw [List.foldl_cons, ih, collect_append, List.append_assoc]
      rfl
  exact hacc []

theorem scan_of_complete {r : HostRow} (h : r.complete = true) : r.scan = some r.host := by
  simp only [HostRow.complete, Bool.and_eq_true, Option.isSome_iff_exists] at h
  obtain ⟨⟨⟨⟨⟨role, hr⟩, ⟨zone, hz⟩⟩, ⟨image, hi⟩⟩, ⟨health, hh⟩⟩, ⟨created, hc⟩⟩ := h
  simp [HostRow.scan, HostRow.host, hr, hz, hi, hh, hc]

/-- every row of the table is listed, whatever its zone -/
theorem getByZone_complete {rows : List HostRow} (h : ∀ r ∈ rows, r.complete = true) (zone : String) :
    getByZone zone rows = some (rows.map HostRow.host) := by
  unfold getByZone
  induction rows with
  | nil => rfl
  | cons r rows ih =>
    have hr := scan_of_complete (h r List.mem_cons_self)
    have hrows := ih fun r' hr' => h r' (List.mem_cons_of_mem r hr')
    simp [List.mapM_cons, hr, hrows]

/-- the attempts of a part of the scan, and the rows of those that succeed -/
def Records (fails : ℕ → Bool) (s s' : ProblemStore) (attempts : List (String × Problem)) : Prop :=
  s'.attempts = s.attempts ++ attempts ∧ s'.rows = s.rows ++ written fails s.attempts.length attempts

theorem Records.nil (s : ProblemStore) : Records fails s s [] := by simp [Records, written]

theorem Records.append {s s' s'' : ProblemStore} {as bs : List (String × Problem)} (h : Records fails s s' as)
    (h' : Records fails s' s'' bs) : Records fails s s'' (as ++ bs) := by
  refine ⟨by rw [h'.1, h.1, List.append_assoc], ?_⟩
  rw [h'.2, h.2, h.1, List.append_assoc, List.length_append]
  simp [written, List.zipIdx_append]

theorem recordProblem_records (hostId : String) (p : Problem) (s : ProblemStore) :
    Records fails s (recordProblem fails hostId p s) [(hostId, p)] := by
  refine ⟨rfl, ?_⟩
  by_cases hf : fails s.attempts.length = true
  · simp [recordProblem, written, hf]
  · simp [recordProblem, written, hf]

/-- a loop whose rounds record what `f` says records it all -/
theorem records_foldl {α : Type} {step : ProblemStore → α → ProblemStore} {f : α → List (String × Problem)}
    (h : ∀ s a, Records fails s (step s a) (f a)) (l : List α) (s : ProblemStore) :
    Records fails s (l.foldl step s) (l.flatMap f) := by
  induction l generalizing s with
  | nil => exact .nil s
  | cons a l ih =>
    rw [List.foldl_cons, List.flatMap_cons]
    exact (h s a).append (ih (step s a))

theorem host_records (host : Host) (s : ProblemStore) :
    Records fails s ((detectProblems checks host).foldl (fun s p => recordProblem fails host.id p s) s)
      ((reported checks host).map fun p => (host.id, p)) := by
  have hone : ∀ (s : ProblemStore) (p : Problem),
      Records fails s (recordProblem fails host.id p s) [(host.id, p)] :=
    fun s p => recordProblem_records host.id p s
  have hloop := records_foldl hone (detectProblems checks host) s
  rw [detectProblems_eq, List.map_eq_flatMap]
  rw [detectProblems_eq] at hloop
  exact hloop

/-- hosts outside the zone without problems do not show -/
theorem flatMap_zone {rows : List HostRow} {zone : String}
    (h : ∀ r ∈ rows, r.zone ≠ some zone → reported checks r.host = []) :
    (rows.map HostRow.host).flatMap (fun host => (reported checks host).map fun p => (host.id, p)) =
      (rows.filter fun r => r.zone = some zone).flatMap fun r => (reported checks r.host).map fun p => (r.id, p) := by
  induction rows with
  | nil => rfl
  | cons r rows ih =>
    have hrows := ih fun r' hr' => h r' (List.mem_cons_of_mem r hr')
    rw [List.map_cons, List.flatMap_cons, hrows]
    by_cases hz : r.zone = some zone
    · rw [List.filter_cons_of_pos (by simpa using hz), List.flatMap_cons]
      rfl
    · rw [List.filter_cons_of_neg (by simpa using hz), h r List.mem_cons_self hz]
      rfl

end Scan

namespace Sample

def row (id zone : String) : HostRow :=
  ⟨id, some "worker", some zone, some "ami", .ready, some "healthy", some 0, none, none, none, false, ""⟩

def unreachable : Problem := ⟨.reachability, .critical, ""⟩

/-- reports every host -/
def reach : Check := ⟨"reach", fun _ => .ok [unreachable]⟩

/-- fails on every host -/
def broken : Check := ⟨"broken", fun _ => .error "timeout"⟩

def oneZone : Table HostRow.id := (Table.empty.put (row "h1" "a")).put (row "h2" "a")

def twoZones : Table HostRow.id := (Table.empty.put (row "h1" "a")).put (row "h2" "b")

/-- a host without a role beside another -/
def roleless : Table HostRow.id := (Table.empty.put (row "h1" "a")).put { row "h2" "a" with role := none }

end Sample

end Crane.BadHost
