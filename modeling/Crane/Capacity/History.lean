/-
The history of target changes of a node group.

`SetTarget` and `CreateAutoscalerRemovals` share one revision counter, on the group's row, and keep their replay records
in different tables: admission records, and the parameters of removal operations. Both lock the group's row before they
look for an earlier request, and only calls on the group write its records, so under that lock the records of a group do
not change. `Logged` ties the log of ended calls to what the tables hold; everything said about the history is read off
it.
-/
import Crane.Capacity.Concurrent

namespace Crane.Capacity

open Tx RowStore Interleave

/-! ## Requests -/

/-- what a caller asks for, without the IDs and the deadline the server draws -/
inductive Asked where
  | target (req : CapacityRequest)
  | removal (clusterId : String) (req : NodeRemovalRequest)
deriving DecidableEq

inductive RequestKind where
  | target | removal
deriving DecidableEq, Repr

namespace Asked

def group : Asked → String
  | target req => req.nodeGroupId
  | removal _ req => req.nodeGroupId

def clusterId : Asked → String
  | target req => req.clusterId
  | removal c _ => c

def expectedRevision : Asked → ℤ
  | target req => req.expectedTargetRevision
  | removal _ req => req.expectedTargetRevision

/-- group, kind of call and request ID -/
def key : Asked → String × RequestKind × String
  | target req => (req.nodeGroupId, .target, req.requestId)
  | removal _ req => (req.nodeGroupId, .removal, req.requestId)

def WellFormed : Asked → Prop
  | target req => CapacityRequest.wellFormed req
  | removal c req => NodeRemovalRequest.wellFormed c req

/-- what a call that is accepted answers -/
def reply : Asked → Reply
  | target req => .target ⟨req.requestId, req.nodeGroupId, req.desiredTarget, req.expectedTargetRevision + 1⟩
  | removal _ _ => .unit

/-- the target after the request, from the one before -/
def newTarget : Asked → ℤ → ℤ
  | target req, _ => req.desiredTarget
  | removal _ req, n => n - req.nodes.length

theorem group_of_key {a b : Asked} (h : a.key = b.key) : a.group = b.group := by
  cases a <;> cases b <;> simp_all [key, group]

end Asked

def Call.asked : Call → Option Asked
  | .setTarget req _ => some (.target req)
  | .createAutoscalerRemovals c req _ _ => some (.removal c req)
  | _ => none

theorem Call.group_of_asked {c : Call} {a : Asked} (h : c.asked = some a) : c.group = some a.group := by
  cases c <;> simp only [Call.asked, Option.some.injEq, reduceCtorEq] at h <;> subst h <;> rfl

/-- one ended call -/
abbrev Entry := Finished DB Err Reply Call

/-- the call changed some row -/
def Entry.TakesEffect (e : Entry) : Prop := e.after ≠ e.before

def revisionOf (d : DB) (g : String) : Option ℤ := (d.nodeGroups.find g).map NodeGroup.targetRevision

/-- target_nodes and target_revision of group `g` -/
def pairOf (d : DB) (g : String) : Option (ℤ × ℤ) := (d.nodeGroups.find g).map NodeGroup.target

theorem revisionOf_eq (d : DB) (g : String) : revisionOf d g = (pairOf d g).map Prod.snd := by
  simp [revisionOf, pairOf, NodeGroup.target, Function.comp_def]

theorem revisionOf_congr {d d' : DB} {g : String} (h : pairOf d' g = pairOf d g) : revisionOf d' g = revisionOf d g := by
  rw [revisionOf_eq, revisionOf_eq, h]

/-- targets change only together with a higher revision -/
def Newer (d d' : DB) : Prop :=
  ∀ g, pairOf d' g = pairOf d g ∨ ∃ m n, revisionOf d g = some m ∧ revisionOf d' g = some n ∧ m < n

theorem Newer.refl (d : DB) : Newer d d := fun _ => .inl rfl

theorem Newer.trans {d d' d'' : DB} (h : Newer d d') (h' : Newer d' d'') : Newer d d'' := by
  intro g
  rcases h g with he | ⟨m, n, hm, hn, hlt⟩
  · rcases h' g with he' | ⟨m', n', hm', hn', hlt'⟩
    · exact .inl (he'.trans he)
    · exact .inr ⟨m', n', (revisionOf_congr he).symm.trans hm', hn', hlt'⟩
  · rcases h' g with he' | ⟨m', n', hm', hn', hlt'⟩
    · exact .inr ⟨m, n, hm, (revisionOf_congr he').trans hn, hlt⟩
    · obtain rfl := Option.some.inj (hn.symm.trans hm')
      exact .inr ⟨m, n', hm, hn', hlt.trans hlt'⟩

/-- the requests of group `g` that the database remembers -/
def stored (d : DB) (g : String) : Set Asked := fun
  | .target req => req.nodeGroupId = g ∧ ∃ row ∈ d.capacityRequests.rows, row.request = req
  | .removal c req => req.nodeGroupId = g ∧ (d.nodeGroups.find g).map NodeGroup.clusterId = some c ∧
      ∃ o ∈ d.operations.rows, o.groupId = some g ∧ o.kind = .removeNode ∧ o.removalRequest = some req

/-- the requests a call can leave behind -/
def Call.leaves : Call → Asked → Prop
  | .setTarget req _, .target req' => req' = req
  | .createAutoscalerRemovals _ req _ _, .removal _ req' => req' = req
  | _, _ => False

/-! ## What a row version changes -/

section Puts
variable {d : DB} {x : Externals} {c : Call} {r : Row} {g : String}

theorem pairOf_put (hr : Follows x c (d.look r.key) r) (hc : c.group ≠ some g) : pairOf (d.put r) g = pairOf d g := by
  cases r with
  | nodeGroup g' =>
    obtain ⟨g₀, hg, -, ht⟩ := hr.step
    have hg : d.nodeGroups.find g'.id = some g₀ := by simpa [DB.look, Row.key] using hg
    unfold pairOf
    by_cases hid : g'.id = g
    · exact Table.map_find_put g' NodeGroup.target hg (ht (hid ▸ hc)) g
    · exact congrArg _ (Table.find_put_ne _ hid)
  | _ => rfl

theorem removalRequest_congr {o o' : OperationRow} (h : o'.intent = o.intent) : o'.removalRequest = o.removalRequest := by
  simp only [OperationRow.intent, Prod.mk.injEq] at h
  simp only [OperationRow.removalRequest, h.2.2.2.2.2.2.2]

/-- a stored request stays stored, and only the request of the call itself is added -/
theorem stored_put (hr : Follows x c (d.look r.key) r) (g : String) :
    (∀ a ∈ stored d g, a ∈ stored (d.put r) g) ∧
      ∀ a ∈ stored (d.put r) g, a ∈ stored d g ∨ (c.leaves a ∧ a.group = g) := by
  cases r with
  | capacityRequest row =>
    obtain ⟨hnone, hrec⟩ := hr.step
    have hnone : d.capacityRequests.find row.id = none := by simpa [DB.look, Row.key] using hnone
    have hex := fun req => Table.exists_put_new hnone fun b => CapacityRequestRow.request b = req
    refine ⟨fun a ha => ?_, fun a ha => ?_⟩
    · cases a with
      | target req => exact ⟨ha.1, (hex req).mpr (.inr ha.2)⟩
      | removal cl req => exact ha
    · cases a with
      | target req =>
        rcases (hex req).mp ha.2 with heq | hold
        · refine .inr ⟨?_, ha.1⟩
          cases c <;> simp only [Call.records] at hrec
          exact heq.symm.trans hrec.2
        · exact .inl ⟨ha.1, hold⟩
      | removal cl req => exact .inl ha
  | nodeGroup g' =>
    obtain ⟨g₀, hg, hf, -⟩ := hr.step
    have hg : d.nodeGroups.find g'.id = some g₀ := by simpa [DB.look, Row.key] using hg
    have hcl : ((d.put (.nodeGroup g')).nodeGroups.find g).map NodeGroup.clusterId =
        (d.nodeGroups.find g).map NodeGroup.clusterId := Table.map_find_put g' _ hg (congrArg Prod.fst hf) g
    refine ⟨fun a ha => ?_, fun a ha => .inl ?_⟩
    · cases a with
      | target req => exact ha
      | removal cl req => exact ⟨ha.1, hcl.trans ha.2.1, ha.2.2⟩
    · cases a with
      | target req => exact ha
      | removal cl req => exact ⟨ha.1, hcl.symm.trans ha.2.1, ha.2.2⟩
  | operation o' =>
    rcases hr.step with ⟨hnone, hadm⟩ | ⟨o, hold, hint⟩
    · have hnone : d.operations.find o'.id = none := by simpa [DB.look, Row.key] using hnone
      have hex := fun req => Table.exists_put_new hnone fun o : OperationRow =>
        o.groupId = some g ∧ o.kind = .removeNode ∧ o.removalRequest = some req
      refine ⟨fun a ha => ?_, fun a ha => ?_⟩
      · cases a with
        | target req => exact ha
        | removal cl req => exact ⟨ha.1, ha.2.1, (hex req).mpr (.inr ha.2.2)⟩
      · cases a with
        | target req => exact .inl ha
        | removal cl req =>
          rcases (hex req).mp ha.2.2 with ⟨-, hk, hq⟩ | hold
          · refine .inr ⟨?_, ha.1⟩
            cases c <;> simp only [Call.admits, hk, hq, reduceCtorEq, false_and, and_false] at hadm
            exact Option.some.inj hadm.2.2
          · exact .inl ⟨ha.1, ha.2.1, hold⟩
    · have hold : d.operations.find o'.id = some o := by simpa [DB.look, Row.key] using hold
      have hint' := hint
      simp only [OperationRow.intent, Prod.mk.injEq] at hint'
      have hex := fun req => Table.exists_put_old (p := fun o : OperationRow =>
        o.groupId = some g ∧ o.kind = .removeNode ∧ o.removalRequest = some req) hold (by
          rw [removalRequest_congr hint, hint'.1, hint'.2.2.1])
      refine ⟨fun a ha => ?_, fun a ha => .inl ?_⟩
      · cases a with
        | target req => exact ha
        | removal cl req => exact ⟨ha.1, ha.2.1, (hex req).mpr ha.2.2⟩
      · cases a with
        | target req => exact ha
        | removal cl req => exact ⟨ha.1, ha.2.1, (hex req).mp ha.2.2⟩
  | _ => exact ⟨fun _ ha => ha, fun _ ha => .inl ha⟩

/-- a removal operation belongs to the group its request names -/
theorem ownGroup_put (hr : Follows x c (d.look r.key) r)
    (h : ∀ o ∈ d.operations.rows, ∀ req, o.removalRequest = some req → o.groupId = some req.nodeGroupId) :
    ∀ o ∈ (d.put r).operations.rows, ∀ req, o.removalRequest = some req → o.groupId = some req.nodeGroupId := by
  cases r with
  | operation o' =>
    intro o ho req hreq
    rcases Table.mem_put.mp ho with rfl | ⟨ho, -⟩
    · rcases hr.step with ⟨-, hadm⟩ | ⟨o₀, hold, hint⟩
      · cases c <;> simp only [Call.admits, hreq, reduceCtorEq, and_false, false_and, Option.some.injEq] at hadm
        rw [hadm.2.1, hadm.2.2]
      · have hold : d.operations.find o.id = some o₀ := by simpa [DB.look, Row.key] using hold
        have hg : o.groupId = o₀.groupId := by
          simp only [OperationRow.intent, Prod.mk.injEq] at hint
          exact hint.2.2.1
        rw [hg]
        exact h o₀ (Table.mem_of_find hold) req (removalRequest_congr hint ▸ hreq)
    · exact h o ho req hreq
  | _ => exact h

theorem pairOf_putAll {ws : List Row} (hf : Follow (Follows x c) d ws) (hc : c.group ≠ some g) :
    pairOf (putAll ws d) g = pairOf d g :=
  hf.keeps (I := fun d' => pairOf d' g = pairOf d g) (fun _ _ hr hd => (pairOf_put hr hc).trans hd) rfl

theorem stored_putAll {ws : List Row} (hf : Follow (Follows x c) d ws) (g : String) :
    (∀ a ∈ stored d g, a ∈ stored (putAll ws d) g) ∧
      ∀ a ∈ stored (putAll ws d) g, a ∈ stored d g ∨ (c.leaves a ∧ a.group = g) := by
  refine hf.keeps (I := fun d' => (∀ a ∈ stored d g, a ∈ stored d' g) ∧
    ∀ a ∈ stored d' g, a ∈ stored d g ∨ (c.leaves a ∧ a.group = g)) (fun r d' hr hd => ?_)
    ⟨fun _ ha => ha, fun _ ha => .inl ha⟩
  obtain ⟨hkeep, hnew⟩ := stored_put hr g
  exact ⟨fun a ha => hkeep a (hd.1 a ha), fun a ha => (hnew a ha).elim (hd.2 a) .inr⟩

theorem Call.group_of_leaves {a : Asked} (h : c.leaves a) : c.group = some a.group := by
  cases c <;> cases a <;> simp only [Call.leaves] at h <;> subst h <;> rfl

/-- calls on other groups leave the records of a group alone -/
theorem stored_putAll_of_other {ws : List Row} (hf : Follow (Follows x c) d ws) (hc : c.group ≠ some g) :
    stored (putAll ws d) g = stored d g := by
  obtain ⟨hkeep, hnew⟩ := stored_putAll hf g
  refine Set.Subset.antisymm (fun a ha => ?_) hkeep
  rcases hnew a ha with h | ⟨hl, rfl⟩
  · exact h
  · exact absurd (Call.group_of_leaves hl) hc

end Puts

/-! ## The log -/

/-- what an accepted request did -/
structure Accepted (cat : Catalog) (e : Entry) (a : Asked) : Prop where
  wellFormed : a.WellFormed
  owner : (cat.nodeGroups.find a.group).map NodeGroup.clusterId = some a.clusterId
  known : (policyOf cat.db a.group).isSome = true
  out : e.out = .ok a.reply
  moved : ∃ n, pairOf e.before a.group = some (n, a.expectedRevision) ∧
    pairOf e.after a.group = some (a.newTarget n, a.expectedRevision + 1)

theorem Accepted.before {cat : Catalog} {e : Entry} {a : Asked} (h : Accepted cat e a) :
    revisionOf e.before a.group = some a.expectedRevision := by
  obtain ⟨n, hb, -⟩ := h.moved
  simp [revisionOf_eq, hb]

theorem Accepted.after {cat : Catalog} {e : Entry} {a : Asked} (h : Accepted cat e a) :
    revisionOf e.after a.group = some (a.expectedRevision + 1) := by
  obtain ⟨n, -, ha⟩ := h.moved
  simp [revisionOf_eq, ha]

/-- a call that reuses the ID of an accepted request with other fields is refused: as a mismatch, unless the check of its
fields or of the group's owner refuses it first -/
def Refused (cat : Catalog) (a : Asked) (out : Except Err Reply) : Prop :=
  out = .error .replayMismatch ∨ (out = .error .invalid ∧ ¬a.WellFormed) ∨
    (out = .error .forbidden ∧ (cat.nodeGroups.find a.group).map NodeGroup.clusterId ≠ some a.clusterId)

/-- the answer to `a'` after `a` was accepted under the same ID -/
structure Repeats (cat : Catalog) (a a' : Asked) (out : Except Err Reply) : Prop where
  same : a' = a → out = .ok a.reply
  other : a' ≠ a → Refused cat a' out

/-- the revisions group `g` was moved to, in order -/
def moved (log : List Entry) (g : String) : List ℤ :=
  log.filterMap fun e => if revisionOf e.after g = revisionOf e.before g then none else revisionOf e.after g

/-- what the log and the tables say of each other -/
structure Logged (cat : Catalog) (w : StoreWorld) : Prop where
  topology : SameTopology cat w.db
  results : ∀ row ∈ w.db.capacityRequests.rows, row.resultRevision = row.expectedRevision + 1
  remembered : ∀ g a, a ∈ stored w.db g ↔
    ∃ e ∈ w.log, e.call.asked = some a ∧ Entry.TakesEffect e ∧ a.group = g
  ownGroup : ∀ o ∈ w.db.operations.rows, ∀ req, o.removalRequest = some req → o.groupId = some req.nodeGroupId
  unique : ∀ g, ∀ a ∈ stored w.db g, ∀ a' ∈ stored w.db g, a.key = a'.key → a = a'
  accepted : ∀ e ∈ w.log, ∀ a, e.call.asked = some a → Entry.TakesEffect e → Accepted cat e a
  repeated : w.log.Pairwise fun e e' => ∀ a a', e.call.asked = some a → Entry.TakesEffect e →
    e'.call.asked = some a' → a'.key = a.key → ¬Entry.TakesEffect e' ∧ Repeats cat a a' e'.out
  answered : ∀ e ∈ w.log, ∀ a r, e.call.asked = some a → e.out = .ok r →
    Entry.TakesEffect e ∨ ∃ e₀, [e₀, e].Sublist w.log ∧ e₀.call.asked = some a ∧ Entry.TakesEffect e₀
  movedTo : ∀ g r, revisionOf cat.db g = some r → revisionOf w.db g = some (r + (moved w.log g).length) ∧
    moved w.log g = (List.range (moved w.log g).length).map fun i : ℕ => r + (i : ℤ) + 1
  movers : ∀ e ∈ w.log, ∀ g, revisionOf e.after g ≠ revisionOf e.before g → e.call.group = some g
  failed : ∀ e ∈ w.log, ∀ err, e.out = .error err → ¬Entry.TakesEffect e

theorem Catalog.not_stored (cat : Catalog) (g : String) (a : Asked) : a ∉ stored cat.db g := by
  intro h
  cases a with
  | target req =>
    obtain ⟨-, row, hrow, -⟩ := h
    simp [Catalog.db, Table.empty] at hrow
  | removal cl req =>
    obtain ⟨-, -, o, ho, -⟩ := h
    simp [Catalog.db, Table.empty] at ho

theorem recorded_init (cat : Catalog) : Logged cat ⟨cat.db, []⟩ where
  topology := ⟨fun _ => rfl, fun _ => rfl, fun _ => rfl, fun _ => rfl, fun _ => rfl⟩
  results _ h := by simp [Catalog.db, Table.empty] at h
  remembered g a := by simp [cat.not_stored]
  ownGroup _ h := by simp [Catalog.db, Table.empty] at h
  unique g a ha := absurd ha (cat.not_stored g a)
  accepted _ h := by simp at h
  repeated := .nil
  answered _ h := by simp at h
  movedTo g r h := ⟨by simpa [moved] using h, by simp [moved]⟩
  movers _ h := by simp at h
  failed _ h := by simp at h

/-- the end of a call, as the log sees it -/
structure Ended (cat : Catalog) (w : StoreWorld) (c : Call) (out : Except Err Reply) (ws : List Row) : Prop where
  failed : ∀ err, out = .error err → ws = []
  results : ∀ row, Row.capacityRequest row ∈ ws → row.resultRevision = row.expectedRevision + 1
  moves : ∀ g, pairOf (putAll ws w.db) g = pairOf w.db g ∨
    ∃ n, revisionOf w.db g = some n ∧ revisionOf (putAll ws w.db) g = some (n + 1)
  asked : ∀ a, c.asked = some a →
    (ws = [] ∧ (∀ r, out = .ok r → a ∈ stored w.db a.group) ∧
      ∀ a₀ ∈ stored w.db a.group, a₀.key = a.key → Repeats cat a₀ a out) ∨
    ((∀ a₀ ∈ stored w.db a.group, a₀.key ≠ a.key) ∧ Accepted cat ⟨c, out, w.db, putAll ws w.db⟩ a ∧
      a ∈ stored (putAll ws w.db) a.group)

/-- a call that ends changes targets only with their revision -/
theorem Ended.newer {cat : Catalog} {w : StoreWorld} {c : Call} {out : Except Err Reply} {ws : List Row}
    (h : Ended cat w c out ws) : Newer w.db (putAll ws w.db) := by
  intro g
  exact (h.moves g).imp id fun ⟨n, hn, hn'⟩ => ⟨n, n + 1, hn, hn', by omega⟩

section Finish
variable {cat : Catalog} {x : Externals} {w : StoreWorld} {c : Call} {out : Except Err Reply} {ws : List Row}

/-- an accepted call adds its own request and no other -/
theorem Logged.stored_accepted (hi : Logged cat w) (hf : Follow (Follows x c) w.db ws) {a : Asked}
    (ha : c.asked = some a) (hacc : Accepted cat ⟨c, out, w.db, putAll ws w.db⟩ a) {g : String} {a' : Asked}
    (ha' : a' ∈ stored (putAll ws w.db) g) : a' ∈ stored w.db g ∨ a' = a := by
  refine ((stored_putAll hf g).2 a' ha').imp id fun ⟨hl, hg⟩ => ?_
  cases c <;> cases a' <;> simp only [Call.leaves] at hl <;> simp only [Call.asked, Option.some.injEq] at ha <;>
    subst ha <;> subst hl
  case setTarget => rfl
  case createAutoscalerRemovals =>
    -- the cluster is the group's, which is the one the call was made for
    have hcl : some _ = some _ := ha'.2.1.symm.trans (((hi.topology.putAll hf).clusterId g).trans (hg ▸ hacc.owner))
    rw [Option.some.inj hcl]
    rfl

theorem Accepted.takesEffect {e : Entry} {a : Asked} (h : Accepted cat e a) : e.TakesEffect := by
  intro he
  have hb := h.before
  rw [← he, h.after, Option.some.injEq] at hb
  omega

theorem moved_append (log : List Entry) (e : Entry) (g : String) : moved (log ++ [e]) g =
    moved log g ++ if revisionOf e.after g = revisionOf e.before g then [] else (revisionOf e.after g).toList := by
  simp only [moved, List.filterMap_append]
  congr 1
  split_ifs with h
  · simp [h]
  · cases hr : revisionOf e.after g <;> simp_all

/-- the entry that a call's end adds -/
abbrev lastEntry (w : StoreWorld) (c : Call) (out : Except Err Reply) (ws : List Row) : Entry :=
  ⟨c, out, w.db, putAll ws w.db⟩

/-- a call that changed something was accepted -/
theorem Ended.accepted (he : Ended cat w c out ws) {a : Asked} (ha : c.asked = some a)
    (heff : (lastEntry w c out ws).TakesEffect) : (∀ a₀ ∈ stored w.db a.group, a₀.key ≠ a.key) ∧
      Accepted cat (lastEntry w c out ws) a ∧ a ∈ stored (putAll ws w.db) a.group := by
  rcases he.asked a ha with ⟨rfl, -⟩ | hacc
  · exact absurd rfl heff
  · exact hacc

theorem Logged.results_finish (hi : Logged cat w) (he : Ended cat w c out ws) :
    ∀ row ∈ (putAll ws w.db).capacityRequests.rows, row.resultRevision = row.expectedRevision + 1 := by
  have hput : ∀ (vs : List Row) (d : DB), (∀ row ∈ d.capacityRequests.rows, row.resultRevision = row.expectedRevision + 1) →
      (∀ row, Row.capacityRequest row ∈ vs → row.resultRevision = row.expectedRevision + 1) →
      ∀ row ∈ (putAll vs d).capacityRequests.rows, row.resultRevision = row.expectedRevision + 1 := by
    intro vs
    induction vs with
    | nil => exact fun d hd _ => hd
    | cons r vs ih =>
      refine fun d hd hvs => ih _ ?_ fun row hrow => hvs row (List.mem_cons_of_mem _ hrow)
      cases r with
      | capacityRequest r =>
        intro row hrow
        rcases Table.mem_put.mp hrow with rfl | ⟨hold, -⟩
        · exact hvs _ List.mem_cons_self
        · exact hd row hold
      | _ => exact hd
  exact hput ws w.db hi.results he.results

theorem Logged.remembered_finish (hi : Logged cat w) (hf : Follow (Follows x c) w.db ws)
    (he : Ended cat w c out ws) (g : String) (a : Asked) : a ∈ stored (putAll ws w.db) g ↔
      ∃ e ∈ w.log ++ [lastEntry w c out ws], e.call.asked = some a ∧ Entry.TakesEffect e ∧ a.group = g := by
  have hlog : (∃ e ∈ w.log, e.call.asked = some a ∧ Entry.TakesEffect e ∧ a.group = g) →
      ∃ e ∈ w.log ++ [lastEntry w c out ws], e.call.asked = some a ∧ Entry.TakesEffect e ∧ a.group = g :=
    fun ⟨e, hmem, h⟩ => ⟨e, List.mem_append_left _ hmem, h⟩
  constructor
  · intro ha
    rcases (stored_putAll hf g).2 a ha with hold | ⟨hl, hg⟩
    · exact hlog ((hi.remembered g a).mp hold)
    · -- the call has left its request behind, so it was accepted
      obtain ⟨a', ha'⟩ : ∃ a', c.asked = some a' := by
        cases c <;> cases a <;> simp only [Call.leaves] at hl <;> exact ⟨_, rfl⟩
      rcases he.asked a' ha' with ⟨rfl, -⟩ | ⟨-, hacc, -⟩
      · exact hlog ((hi.remembered g a).mp ha)
      · rcases hi.stored_accepted hf ha' hacc ha with hold | rfl
        · exact hlog ((hi.remembered g a).mp hold)
        · exact ⟨_, List.mem_append_right _ (List.mem_singleton.mpr rfl), ha', hacc.takesEffect, hg⟩
  · rintro ⟨e, hmem, ha, heff, hg⟩
    rcases List.mem_append.mp hmem with hmem | hmem
    · exact (stored_putAll hf g).1 a ((hi.remembered g a).mpr ⟨e, hmem, ha, heff, hg⟩)
    · obtain rfl := List.mem_singleton.mp hmem
      exact hg ▸ (he.accepted ha heff).2.2

theorem Logged.unique_finish (hi : Logged cat w) (hf : Follow (Follows x c) w.db ws)
    (he : Ended cat w c out ws) (g : String) :
    ∀ a ∈ stored (putAll ws w.db) g, ∀ a' ∈ stored (putAll ws w.db) g, a.key = a'.key → a = a' := by
  by_cases heff : (lastEntry w c out ws).TakesEffect ∧ ∃ b, c.asked = some b
  · obtain ⟨heff, b, hb⟩ := heff
    obtain ⟨hvacant, hacc, -⟩ := he.accepted hb heff
    -- an earlier request of the same key would have been found
    have hnew : ∀ a ∈ stored w.db g, a.key ≠ b.key := by
      intro a ha hk
      obtain ⟨_, _, _, _, hg⟩ := (hi.remembered g a).mp ha
      exact hvacant a (by rw [← Asked.group_of_key hk, hg]; exact ha) hk
    intro a ha a' ha' hk
    rcases hi.stored_accepted hf hb hacc ha with hold | rfl
    · rcases hi.stored_accepted hf hb hacc ha' with hold' | rfl
      · exact hi.unique g a hold a' hold' hk
      · exact absurd hk (hnew a hold)
    · rcases hi.stored_accepted hf hb hacc ha' with hold' | rfl
      · exact absurd hk.symm (hnew a' hold')
      · rfl
  · have hold : ∀ a ∈ stored (putAll ws w.db) g, a ∈ stored w.db g := by
      intro a ha
      obtain ⟨e, hmem, hask, heff', hg⟩ := (hi.remembered_finish hf he g a).mp ha
      rcases List.mem_append.mp hmem with hmem | hmem
      · exact (hi.remembered g a).mpr ⟨e, hmem, hask, heff', hg⟩
      · obtain rfl := List.mem_singleton.mp hmem
        exact absurd ⟨heff', a, hask⟩ heff
    exact fun a ha a' ha' => hi.unique g a (hold a ha) a' (hold a' ha')

theorem Logged.movedTo_finish (hi : Logged cat w) (he : Ended cat w c out ws) (g : String) (r : ℤ)
    (hr : revisionOf cat.db g = some r) :
    revisionOf (putAll ws w.db) g = some (r + (moved (w.log ++ [lastEntry w c out ws]) g).length) ∧
      moved (w.log ++ [lastEntry w c out ws]) g =
        (List.range (moved (w.log ++ [lastEntry w c out ws]) g).length).map fun i : ℕ => r + (i : ℤ) + 1 := by
  obtain ⟨hnow, hlist⟩ := hi.movedTo g r hr
  rcases he.moves g with hpair | ⟨n, hn, hn'⟩
  · have hsame := revisionOf_congr hpair
    have happ : moved (w.log ++ [lastEntry w c out ws]) g = moved w.log g := by
      rw [moved_append, if_pos hsame, List.append_nil]
    rw [happ, hsame]
    exact ⟨hnow, hlist⟩
  · have happ : moved (w.log ++ [lastEntry w c out ws]) g = moved w.log g ++ [n + 1] := by
      rw [moved_append, if_neg (by rw [hn', hn]; simp), hn']
      rfl
    obtain rfl : n = r + (moved w.log g).length := Option.some.inj (hn.symm.trans hnow)
    rw [happ, hn']
    refine ⟨?_, ?_⟩
    · rw [List.length_append, List.length_singleton]
      push_cast
      ring_nf
    · rw [List.length_append, List.length_singleton, List.range_succ, List.map_append, ← hlist]
      rfl

/-- **Every end of a call keeps the log and the tables in agreement.** -/
theorem Logged.finish (hi : Logged cat w) (hf : Follow (Follows x c) w.db ws) (he : Ended cat w c out ws) :
    Logged cat (w.finish c out ws) where
  topology := hi.topology.putAll hf
  results := hi.results_finish he
  remembered := hi.remembered_finish hf he
  ownGroup := hf.keeps (I := fun d : DB => ∀ o ∈ d.operations.rows, ∀ req, o.removalRequest = some req →
    o.groupId = some req.nodeGroupId) (fun _ _ hr hd => ownGroup_put hr hd) hi.ownGroup
  unique := hi.unique_finish hf he
  accepted e hmem a ha heff := by
    rcases List.mem_append.mp hmem with hmem | hmem
    · exact hi.accepted e hmem a ha heff
    · obtain rfl := List.mem_singleton.mp hmem
      exact (he.accepted ha heff).2.1
  repeated := by
    refine List.pairwise_append.mpr ⟨hi.repeated, List.pairwise_singleton _ _, fun e hmem e' hmem' => ?_⟩
    obtain rfl := List.mem_singleton.mp hmem'
    intro a a' ha heff ha' hk
    have hg : a.group = a'.group := Asked.group_of_key hk.symm
    have hold : a ∈ stored w.db a'.group := (hi.remembered _ a).mpr ⟨e, hmem, ha, heff, hg⟩
    rcases he.asked a' ha' with ⟨rfl, -, hrep⟩ | ⟨hvacant, -⟩
    · exact ⟨fun h => h rfl, hrep a hold hk.symm⟩
    · exact absurd hk.symm (hvacant a hold)
  answered e hmem a r ha hout := by
    rcases List.mem_append.mp hmem with hmem | hmem
    · refine (hi.answered e hmem a r ha hout).imp id fun ⟨e₀, hsub, h⟩ => ?_
      exact ⟨e₀, hsub.trans (List.sublist_append_left _ _), h⟩
    · obtain rfl := List.mem_singleton.mp hmem
      rcases he.asked a ha with ⟨-, hold, -⟩ | ⟨-, hacc, -⟩
      · obtain ⟨e₀, hmem₀, hask, heff, -⟩ := (hi.remembered _ a).mp (hold r hout)
        exact .inr ⟨e₀, (List.singleton_sublist.mpr hmem₀).append (.refl _), hask, heff⟩
      · exact .inl hacc.takesEffect
  movedTo := hi.movedTo_finish he
  movers e hmem g hne := by
    rcases List.mem_append.mp hmem with hmem | hmem
    · exact hi.movers e hmem g hne
    · obtain rfl := List.mem_singleton.mp hmem
      by_contra hc
      exact hne (revisionOf_congr (pairOf_putAll hf hc))
  failed e hmem err herr := by
    rcases List.mem_append.mp hmem with hmem | hmem
    · exact hi.failed e hmem err herr
    · obtain rfl := List.mem_singleton.mp hmem
      obtain rfl := he.failed err herr
      exact fun h => h rfl

end Finish

/-! ## The protocol -/

/-- the holder of a group's row relies on the group's records -/
def historyProtocol (cat : Catalog) (x : Externals) : StoreProtocol where
  Inv := Logged cat
  rely h w w' := (∀ g, Key.nodeGroup g ∈ h → stored w'.db g = stored w.db g) ∧ Newer w.db w'.db
  guard := Follows x
  atCall _ _ _ _ := True
  refl _ w := ⟨fun _ _ => rfl, .refl w.db⟩
  trans h h' := ⟨fun g hg => (h'.1 g hg).trans (h.1 g hg), h.2.trans h'.2⟩
  mono hh hr := ⟨fun g hg => hr.1 g (hh hg), hr.2⟩

section Endings
variable {cat : Catalog} {x : Externals} {c : Call} {h : Set Key} {w : StoreWorld} {out : Except Err Reply}

/-- a call ends well if the log may record it and, where it wrote, it holds its group's row -/
theorem history_ends {ws : List Row} (hlock : ∀ g, c.group = some g → Key.nodeGroup g ∈ h ∨ ws = [])
    (hended : ∀ w', (historyProtocol cat x).Rely h w w' → Ending (historyProtocol cat x) c h ws w' →
      Ended cat w' c out ws) : Ends (historyProtocol cat x) c out h ws w := by
  intro w' hr he
  have hend := hended w' hr he
  refine ⟨he.inv.finish he.follow hend, fun h' hd => ⟨fun g hg => ?_, hend.newer⟩⟩
  by_cases hc : c.group = some g
  · rcases hlock g hc with hmem | rfl
    · exact absurd hg (Set.disjoint_left.mp hd hmem)
    · rfl
  · exact stored_putAll_of_other he.follow hc

/-- a call that stores nothing has to answer requests that were seen before -/
theorem history_ends_nil (hold : ∀ w', (historyProtocol cat x).Rely h w w' → ∀ a r, c.asked = some a → out = .ok r →
      a ∈ stored w'.db a.group)
    (hrep : ∀ w', (historyProtocol cat x).Rely h w w' → Logged cat w' → ∀ a, c.asked = some a →
      ∀ a₀ ∈ stored w'.db a.group, a₀.key = a.key → Repeats cat a₀ a out) :
    Ends (historyProtocol cat x) c out h [] w :=
  history_ends (fun _ _ => .inr rfl) fun w' hr he => ⟨fun _ _ => rfl, by simp, fun _ => .inl rfl,
    fun a ha => .inl ⟨rfl, fun r => hold w' hr a r ha, hrep w' hr he.inv a ha⟩⟩

theorem history_ends_error {e : Err} (hrep : ∀ w', (historyProtocol cat x).Rely h w w' → Logged cat w' → ∀ a,
    c.asked = some a → ∀ a₀ ∈ stored w'.db a.group, a₀.key = a.key → Repeats cat a₀ a (.error e)) :
    Ends (historyProtocol cat x) c (.error e) h [] w :=
  history_ends_nil (fun _ _ _ _ _ h => by simp at h) hrep

theorem Logged.stored_accepted_entry (hi : Logged cat w) {g : String} {a : Asked} (ha : a ∈ stored w.db g) :
    a.group = g ∧ ∃ e, Accepted cat e a := by
  obtain ⟨e, hmem, hask, heff, hg⟩ := (hi.remembered g a).mp ha
  exact ⟨hg, e, hi.accepted e hmem a hask heff⟩

/-- the checks before the look-up refuse only what was never accepted -/
theorem Logged.repeats_invalid (hi : Logged cat w) {a a₀ : Asked} (hn : ¬a.WellFormed)
    (ha₀ : a₀ ∈ stored w.db a.group) : Repeats cat a₀ a (.error .invalid) := by
  obtain ⟨-, e, hacc⟩ := hi.stored_accepted_entry ha₀
  exact ⟨fun heq => absurd (heq ▸ hacc.wellFormed) hn, fun _ => .inr (.inl ⟨rfl, hn⟩)⟩

theorem Logged.repeats_forbidden (hi : Logged cat w) {a a₀ : Asked}
    (hn : (cat.nodeGroups.find a.group).map NodeGroup.clusterId ≠ some a.clusterId) (ha₀ : a₀ ∈ stored w.db a.group) :
    Repeats cat a₀ a (.error .forbidden) := by
  obtain ⟨-, e, hacc⟩ := hi.stored_accepted_entry ha₀
  exact ⟨fun heq => absurd (heq ▸ hacc.owner) hn, fun _ => .inr (.inr ⟨rfl, hn⟩)⟩

theorem Logged.not_stored_of_unknown (hi : Logged cat w) {a a₀ : Asked} (hn : policyOf w.db a.group = none) :
    a₀ ∉ stored w.db a.group := by
  intro ha₀
  obtain ⟨hg, e, hacc⟩ := hi.stored_accepted_entry ha₀
  have hknown := (hi.topology.policyOf a.group).mpr (hg ▸ hacc.known)
  simp [hn] at hknown

/-- an earlier request under the same ID: its answer again, or a mismatch -/
theorem Logged.repeats_found (hi : Logged cat w) {a a₀ a₁ : Asked} (ha₀ : a₀ ∈ stored w.db a.group)
    (ha₁ : a₁ ∈ stored w.db a.group) (hk₀ : a₀.key = a.key) (hk₁ : a₁.key = a.key)
    (hout : if a₁ = a then out = .ok a.reply else out = .error .replayMismatch) : Repeats cat a₀ a out := by
  obtain rfl := hi.unique _ a₀ ha₀ a₁ ha₁ (hk₀.trans hk₁.symm)
  refine ⟨?_, ?_⟩
  · rintro rfl
    simpa using hout
  · intro hne
    rw [if_neg (Ne.symm hne)] at hout
    exact .inl hout

/-- calls that change no target -/
theorem history_other (hc : c.group = none) (w : StoreWorld) :
    Interleave.Safe (historyProtocol cat x) c (code x c) ∅ [] w := by
  have hask : c.asked = none := by
    cases hask : c.asked with
    | none => rfl
    | some a => simp [Call.group_of_asked hask] at hc
  refine safe_of_emits (emits_true _) (fun _ _ _ => trivial) fun out h ws w' _ hfail he => ?_
  have hend : Ended cat w' c out ws := by
    refine ⟨hfail, fun row hrow => ?_, fun g => .inl (pairOf_putAll he.follow (by simp [hc])), by simp [hask]⟩
    obtain ⟨old, hr⟩ := he.follow.exists hrow
    obtain ⟨-, hrec⟩ := hr.step
    cases c <;> simp [Call.records, Call.group] at hrec hc
  exact ⟨he.inv.finish he.follow hend,
    fun _ _ => ⟨fun g _ => stored_putAll_of_other he.follow (by simp [hc]), hend.newer⟩⟩

end Endings

/-! ## Looking for an earlier request -/

theorem stored_of_previousRequest {d : DB} {g i : String} {row : CapacityRequestRow}
    (h : previousRequest d g i = some row) :
    .target row.request ∈ stored d g ∧ Asked.key (.target row.request) = (g, .target, i) ∧ row ∈ d.capacityRequests.rows := by
  have hmem := List.mem_of_find?_eq_some h
  have hrow := List.find?_some h
  simp only [Bool.and_eq_true, decide_eq_true_eq] at hrow
  refine ⟨⟨hrow.1, row, hmem, rfl⟩, ?_, hmem⟩
  simp [Asked.key, CapacityRequestRow.request, hrow]

theorem not_stored_of_previousRequest {d : DB} {g i : String} (h : previousRequest d g i = none) :
    ∀ a ∈ stored d g, a.key ≠ (g, .target, i) := by
  intro a ha hk
  cases a with
  | removal cl req => simp [Asked.key] at hk
  | target req =>
    obtain ⟨-, row, hrow, rfl⟩ := ha
    have hno := List.find?_eq_none.mp h row hrow
    simp only [Asked.key, CapacityRequestRow.request, Prod.mk.injEq, true_and] at hk
    simp [hk] at hno

theorem stored_of_previousRemoval {d : DB} {g i : String} {o : OperationRow} {a : NodeGroup}
    (hown : ∀ o ∈ d.operations.rows, ∀ req, o.removalRequest = some req → o.groupId = some req.nodeGroupId)
    (hg : d.nodeGroups.find g = some a) (h : previousRemoval d g i = some o) : ∃ req, o.removalRequest = some req ∧
      .removal a.clusterId req ∈ stored d g ∧ Asked.key (.removal a.clusterId req) = (g, .removal, i) := by
  have hmem := List.mem_of_find?_eq_some h
  have hrow := List.find?_some h
  simp only [Bool.and_eq_true, decide_eq_true_eq, Option.any_eq_true] at hrow
  obtain ⟨⟨hgroup, hkind⟩, req, hreq, hid⟩ := hrow
  have hgreq : req.nodeGroupId = g := Option.some.inj ((hown o hmem req hreq).symm.trans hgroup)
  exact ⟨req, hreq, ⟨hgreq, by simp [hg], o, hmem, hgroup, hkind, hreq⟩, by simp [Asked.key, hgreq, hid]⟩

theorem not_stored_of_previousRemoval {d : DB} {g i : String} (h : previousRemoval d g i = none) :
    ∀ a ∈ stored d g, a.key ≠ (g, .removal, i) := by
  intro a ha hk
  cases a with
  | target req => simp [Asked.key] at hk
  | removal cl req =>
    obtain ⟨-, -, o, ho, hgroup, hkind, hreq⟩ := ha
    have hno := List.find?_eq_none.mp h o ho
    simp only [Asked.key, Prod.mk.injEq, true_and] at hk
    simp [hgroup, hkind, hreq, hk] at hno

/-! ## What an accepted call leaves -/

/-- rows that neither carry a revision nor record a request for a target -/
def Row.Aside (r : Row) : Prop := r.kind ≠ .nodeGroup ∧ r.kind ≠ .capacityRequest

theorem putAll_frame {ws : List Row} (h : ∀ r ∈ ws, r.Aside) (d : DB) :
    (putAll ws d).nodeGroups = d.nodeGroups ∧ (putAll ws d).capacityRequests = d.capacityRequests := by
  induction ws generalizing d with
  | nil => exact ⟨rfl, rfl⟩
  | cons r ws ih =>
    have hrest := ih (fun r' hr' => h r' (List.mem_cons_of_mem _ hr')) (d.put r)
    have hr := h r List.mem_cons_self
    rw [putAll_cons, put_eq, hrest.1, hrest.2]
    cases r with
    | nodeGroup g => simp [Row.Aside, Row.kind] at hr
    | capacityRequest r => simp [Row.Aside, Row.kind] at hr
    | _ => exact ⟨rfl, rfl⟩

/-- an inserted operation is still there, with its intent, when the transaction commits -/
theorem follow_operation_mem {x : Externals} {c : Call} {ws : List Row} {d : DB} (hf : Follow (Follows x c) d ws)
    {o : OperationRow} (ho : Row.operation o ∈ ws) :
    ∃ o' ∈ (putAll ws d).operations.rows, o'.intent = o.intent := by
  have hlook := hf.columns_mem (k := .operation o.id) (Follows.columns rfl) ho rfl
  obtain ⟨r, hr, hcol⟩ := Option.map_eq_some_iff.mp hlook
  obtain ⟨o', ho', rfl⟩ := Option.map_eq_some_iff.mp hr
  exact ⟨o', Table.mem_of_find ho', Columns.operation.inj hcol⟩

/-- the row a retargeting UPDATE stores -/
theorem updateTarget_rows {d : DB} {i : String} {g : NodeGroup} {t : NodeGroup → ℤ} {revision : ℤ} {rows : List Row}
    (hg : d.nodeGroups.find i = some g)
    (h : (match d.nodeGroups.find i with
      | none => .ok []
      | some g => do
        let g' ← g.setTarget (t g) revision
        .ok [.nodeGroup g'] : Except Err (List Row)) = .ok rows) :
    ∃ g', rows = [.nodeGroup g'] ∧ g'.id = g.id ∧ g'.target = (t g, revision) := by
  rw [hg] at h
  cases hs : g.setTarget (t g) revision with
  | error e => simp [hs, Bind.bind, Except.bind] at h
  | ok g' =>
    simp only [hs, Bind.bind, Except.bind, Except.ok.injEq] at h
    have hok := NodeGroup.setTarget_ok hs
    exact ⟨g', h.symm, hok.1, hok.2.2⟩

/-- the revision moves by one -/
theorem pairOf_moved {d : DB} {i : String} {g g' : NodeGroup} {n : ℤ} (pre : List Row) {vs : List Row}
    (hg : d.nodeGroups.find i = some g) (hid : g'.id = g.id) (ht : g'.target = (n, wrap64 (g.targetRevision + 1)))
    (hvs : ∀ r ∈ vs, r.Aside) :
    pairOf (putAll (pre ++ Row.nodeGroup g' :: vs) d) i = some (n, g.targetRevision + 1) := by
  have hnon := g'.check_revision.1
  rw [show g'.targetRevision = _ from congrArg Prod.snd ht] at hnon
  have hi : g'.id = i := hid.trans (Table.key_of_find hg)
  rw [putAll_append, putAll_cons, pairOf, (putAll_frame hvs _).1]
  show (((putAll pre d).nodeGroups.put g').find i).map _ = _
  rw [← hi, Table.find_put_self, Option.map_some, ht, wrap64_succ g.check_revision.1 g.check_revision.2 hnon]

/-- request `a` passed the first checks, the group's row `g` is locked and no earlier request was found -/
structure Vacant (cat : Catalog) (a : Asked) (g : NodeGroup) (h : Set Key) (w : StoreWorld) : Prop where
  wellFormed : a.WellFormed
  owner : (cat.nodeGroups.find a.group).map NodeGroup.clusterId = some a.clusterId
  known : (policyOf cat.db a.group).isSome = true
  lock : Key.nodeGroup a.group ∈ h
  row : w.db.nodeGroups.find a.group = some g
  vacant : ∀ a₀ ∈ stored w.db a.group, a₀.key ≠ a.key

section Accept
variable {cat : Catalog} {x : Externals} {c : Call} {h h' : Set Key} {w w' : StoreWorld} {a : Asked} {g : NodeGroup}
  {out : Except Err Reply}

theorem Vacant.rely (hd : Vacant cat a g h w) (hh : h ⊆ h') (hr : (historyProtocol cat x).Rely h w w') :
    Vacant cat a g h' w' := by
  have hrow : w'.db.nodeGroups.find a.group = some g := by
    simpa [DB.look, hd.row] using hr.frozen _ hd.lock
  exact { hd with lock := hh hd.lock, row := hrow, vacant := hr.rely.1 _ hd.lock ▸ hd.vacant }

/-- more locks do no harm -/
theorem Vacant.more (hd : Vacant cat a g h w) (hr : (historyProtocol cat x).Rely h w w') (t : Set Key) :
    Vacant cat a g (h ∪ t) w' :=
  hd.rely Set.subset_union_left hr

theorem Vacant.error (hd : Vacant cat a g h w) (ha : c.asked = some a) (e : Err) :
    Ends (historyProtocol cat x) c (.error e) h [] w := by
  refine history_ends_error fun w' hr _ a' ha' a₀ ha₀ hk => ?_
  obtain rfl := Option.some.inj (ha.symm.trans ha')
  exact absurd hk ((hd.rely subset_rfl hr).vacant a₀ ha₀)

/-- the end of an accepted call: the group's row moved by one, and the request is on record -/
theorem Vacant.accept (hd : Vacant cat a g h w) (ha : c.asked = some a) (pre : List Row) {vs : List Row}
    {g' : NodeGroup} (hexp : g.targetRevision = a.expectedRevision) (hid : g'.id = g.id)
    (ht : g'.target = (a.newTarget g.targetNodes, wrap64 (g.targetRevision + 1)))
    (hvs : ∀ r ∈ vs, r.Aside)
    (hres : ∀ row, Row.capacityRequest row ∈ pre → row.resultRevision = row.expectedRevision + 1)
    (hleft : ∀ d : DB, Follow (Follows x c) d (pre ++ Row.nodeGroup g' :: vs) →
      ((putAll (pre ++ Row.nodeGroup g' :: vs) d).nodeGroups.find a.group).map NodeGroup.clusterId = some a.clusterId →
      a ∈ stored (putAll (pre ++ Row.nodeGroup g' :: vs) d) a.group) :
    Ends (historyProtocol cat x) c (.ok a.reply) h (pre ++ Row.nodeGroup g' :: vs) w := by
  refine history_ends (fun g₀ hg₀ => .inl ?_) fun w' hr he => ?_
  · obtain rfl := Option.some.inj ((Call.group_of_asked ha).symm.trans hg₀)
    exact hd.lock
  have hd' := hd.rely subset_rfl hr
  have hbefore : pairOf w'.db a.group = some (g.targetNodes, a.expectedRevision) := by
    simp [pairOf, NodeGroup.target, hd'.row, hexp]
  have hafter : pairOf (putAll (pre ++ Row.nodeGroup g' :: vs) w'.db) a.group =
      some (a.newTarget g.targetNodes, a.expectedRevision + 1) := hexp ▸ pairOf_moved pre hd'.row hid ht hvs
  refine ⟨by simp, fun row hrow => ?_, fun g₀ => ?_, fun a' ha' => .inr ?_⟩
  · rcases List.mem_append.mp hrow with hrow | hrow
    · exact hres row hrow
    · rcases List.mem_cons.mp hrow with heq | hrow
      · simp at heq
      · exact absurd rfl (hvs _ hrow).2
  · by_cases hg : c.group = some g₀
    · obtain rfl := Option.some.inj ((Call.group_of_asked ha).symm.trans hg)
      exact .inr ⟨a.expectedRevision, by simp [revisionOf_eq, hbefore], by simp [revisionOf_eq, hafter]⟩
    · exact .inl (pairOf_putAll he.follow hg)
  · obtain rfl := Option.some.inj (ha.symm.trans ha')
    refine ⟨hd'.vacant, ⟨hd.wellFormed, hd.owner, hd.known, rfl, _, hbefore, hafter⟩, hleft _ he.follow ?_⟩
    rw [(he.inv.topology.putAll he.follow).clusterId]
    exact hd.owner

theorem history_acceptTarget {p : Policy} {req : CapacityRequest} {u : Uuids}
    (hd : Vacant cat (.target req) p.group h w) :
    WP (historyProtocol cat x) (.setTarget req u)
      (fun r h ws w => Ends (historyProtocol cat x) (.setTarget req u) (.ok (.target r)) h ws w)
      (fun e h w => Ends (historyProtocol cat x) (.setTarget req u) (.error e) h [] w) (acceptTarget p req u) h [] w := by
  refine wp_require_bind (fun _ => hd.error rfl _) fun _ => wp_require_bind (fun _ => hd.error rfl _) fun _ =>
    wp_require_bind (fun _ => hd.error rfl _) fun hexp => wp_require_bind (fun _ => hd.error rfl _) fun hlim =>
    wp_selectForUpdate_bind fun w₁ hr₁ hi₁ => ?_
  have hd₁ := hd.more hr₁
  refine wp_orFail_bind (fun _ => (hd₁ _).error rfl _) fun pool _ => ?_
  refine wp_reads_bind (emits_nil_when (emits_nil_bind (emits_nil_require _ _) fun _ =>
    emits_nil_bind (emits_nil_select _) fun _ => emits_nil_require _ _)) (fun _ _ _ => trivial)
    (fun e h' w' hh hr => ((hd₁ _).rely hh hr).error rfl e) fun _ h₂ w₂ hh₂ hr₂ => ?_
  have hd₂ := (hd₁ _).rely hh₂ hr₂
  refine wp_reads_bind (emits_nil_when (emits_nil_bind (emits_nil_select _) fun _ => emits_nil_require _ _))
    (fun _ _ _ => trivial) (fun e h' w' hh hr => (hd₂.rely hh hr).error rfl e) fun _ h₃ w₃ hh₃ hr₃ => ?_
  have hd₃ := hd₂.rely hh₃ hr₃
  refine wp_execute_bind (fun w' e hr _ _ => (hd₃.rely subset_rfl hr).error rfl e) fun w₄ rows hr₄ hi₄ hrows => ?_
  have hd₄ := hd₃.more hr₄
  split_ifs at hrows
  obtain rfl := Except.ok.inj hrows
  refine wp_execute_bind (fun w' e hr _ _ => ((hd₄ _).rely subset_rfl hr).error rfl e) fun w₅ rows hr₅ hi₅ hrows => ?_
  have hd₅ := (hd₄ _).more hr₅
  -- the group's row is the one that was locked
  obtain ⟨g', rfl, hid, ht⟩ := updateTarget_rows (g := p.group) (hd₅ ∅).row hrows
  refine wp_emits (R := fun r vs => r = ⟨req.requestId, req.nodeGroupId, req.desiredTarget,
    wrap64 (p.group.targetRevision + 1)⟩ ∧ ∀ row ∈ vs, row.Aside) ?_
    (fun _ _ _ => trivial) (fun e h' w' hh hr => ((hd₅ _).rely hh hr).error rfl e) fun r h₆ vs w₆ hh₆ hr₆ hvs => ?_
  · refine (Writes.emits (Z := Row.Aside)
      (writes_provisionIntents (by simp [Row.Aside, Row.kind]) (by simp [Row.Aside, Row.kind]) (by simp [Row.Aside, Row.kind]) _)).bind fun _ vs hvs => ?_
    refine (Writes.emits (Z := Row.Aside)
      (Writes.when (writes_cancelPending (by simp [Row.Aside, Row.kind]) (by simp [Row.Aside, Row.kind]) (by simp [Row.Aside, Row.kind])
        (by simp [Row.Aside, Row.kind]) _ _))).bind fun _ vs' hvs' => ?_
    refine ⟨rfl, fun row hrow => ?_⟩
    simp only [List.append_nil, List.mem_append] at hrow
    exact hrow.elim (hvs row) (hvs' row)
  · have hnon := g'.check_revision.1
    rw [show g'.targetRevision = _ from congrArg Prod.snd ht] at hnon
    have hsucc := wrap64_succ p.group.check_revision.1 p.group.check_revision.2 hnon
    have hreply : Reply.target r = Asked.reply (.target req) := by
      rw [hvs.1, hsucc, hexp]
      rfl
    rw [hreply]
    refine ((hd₅ _).rely hh₆ hr₆).accept rfl [.capacityRequest _] hexp hid ht hvs.2 (fun row hrow => ?_)
      fun d _ _ => ?_
    · simp only [List.mem_singleton, Row.capacityRequest.injEq] at hrow
      rw [hrow]
      exact hsucc.trans (by rw [hexp])
    · refine ⟨rfl, ⟨u 0, req.nodeGroupId, req.requestId, req.clusterId, req.expectedTargetRevision, req.desiredTarget,
        req.templateRevision, wrap64 (p.group.targetRevision + 1)⟩, ?_, rfl⟩
      rw [putAll_append, putAll_cons]
      show _ ∈ (putAll vs (_ : DB)).capacityRequests.rows
      rw [(putAll_frame hvs.2 _).2]
      exact Table.mem_put.mpr (.inl rfl)

/-- what is known once the group's row is locked and its cluster is the caller's -/
theorem vacant_of_policy {a : Asked} {p : Policy} {w₁ w₂ : StoreWorld} (hwf : a.WellFormed) (hi₁ : Logged cat w₁)
    (hp : policyOf w₁.db a.group = some p) (hcl : p.group.clusterId = a.clusterId)
    (hr : (historyProtocol cat x).Rely (∅ ∪ {Key.nodeGroup p.group.id}) w₁ w₂)
    (hvacant : ∀ a₀ ∈ stored w₂.db a.group, a₀.key ≠ a.key) :
    Vacant cat a p.group (∅ ∪ {Key.nodeGroup p.group.id}) w₂ := by
  have hs := policyOf_spec hp
  have hlock : Key.nodeGroup a.group ∈ (∅ ∪ {Key.nodeGroup p.group.id} : Set Key) := by simp [hs.id]
  have hrow : w₂.db.nodeGroups.find a.group = some p.group := by
    simpa [DB.look, hs.group] using hr.frozen _ hlock
  refine ⟨hwf, ?_, (hi₁.topology.policyOf _).mp (by simp [hp]), hlock, hrow, hvacant⟩
  rw [← hi₁.topology.clusterId, hs.group]
  simp [hcl]

/-- the errors of the first checks -/
theorem history_unknown (hp : policyOf w.db a.group = none) (ha : c.asked = some a) (hi : Logged cat w)
    {e : Err} : Ends (historyProtocol cat x) c (.error e) h [] w := by
  refine history_ends_error fun w' _ hi' a' ha' a₀ ha₀ _ => ?_
  obtain rfl := Option.some.inj (ha.symm.trans ha')
  have hnone : policyOf w'.db a.group = none := by
    have h₁ := hi.topology.policyOf a.group
    have h₂ := hi'.topology.policyOf a.group
    rw [hp] at h₁
    cases h₃ : policyOf w'.db a.group with
    | none => rfl
    | some p => simp [h₃, ← h₁] at h₂
  exact absurd ha₀ (hi'.not_stored_of_unknown hnone)

theorem history_forbidden {p : Policy} (hp : policyOf w.db a.group = some p) (hcl : p.group.clusterId ≠ a.clusterId)
    (ha : c.asked = some a) (hi : Logged cat w) {h : Set Key} :
    Ends (historyProtocol cat x) c (.error .forbidden) h [] w := by
  refine history_ends_error fun w' _ hi' a' ha' a₀ ha₀ _ => ?_
  obtain rfl := Option.some.inj (ha.symm.trans ha')
  refine hi'.repeats_forbidden ?_ ha₀
  rw [← hi.topology.clusterId, (policyOf_spec hp).group]
  simpa using hcl

/-- an earlier request was found under the group's lock -/
theorem history_found {a₁ : Asked} (ha : c.asked = some a) (hlock : Key.nodeGroup a.group ∈ h)
    (ha₁ : a₁ ∈ stored w.db a.group) (hk₁ : a₁.key = a.key)
    (hout : if a₁ = a then out = .ok a.reply else out = .error .replayMismatch) :
    Ends (historyProtocol cat x) c out h [] w := by
  refine history_ends_nil (fun w' hr a' r ha' hok => ?_) fun w' hr hi' a' ha' a₀ ha₀ hk₀ => ?_
  · obtain rfl := Option.some.inj (ha.symm.trans ha')
    split_ifs at hout with heq
    · rw [hr.rely.1 _ hlock]
      exact heq ▸ ha₁
    · simp [hout] at hok
  obtain rfl := Option.some.inj (ha.symm.trans ha')
  exact hi'.repeats_found ha₀ (hr.rely.1 _ hlock ▸ ha₁) hk₀ hk₁ hout

/-- `SetTarget` keeps the history -/
theorem history_setTarget (req : CapacityRequest) (u : Uuids) :
    Interleave.Safe (historyProtocol cat x) (.setTarget req u) (code x (.setTarget req u)) ∅ [] w := by
  refine wp_bind (wp_require_bind (fun hn => history_ends_error fun w' _ hi a ha a₀ ha₀ hk => ?_) fun hwf =>
    wp_loadPolicy_bind (fun w₁ hr₁ hi₁ hp => history_unknown (a := .target req) hp rfl hi₁) fun w₁ p hr₁ hi₁ hp =>
    wp_require_bind (fun hn => history_forbidden (a := .target req) hp hn rfl hi₁) fun hcl =>
    wp_select_bind fun w₂ hr₂ hi₂ => ?_)
  · obtain rfl := Option.some.inj ha
    exact hi.repeats_invalid hn ha₀
  rw [putAll_nil] at hp ⊢
  cases hprev : previousRequest w₂.db req.nodeGroupId req.requestId with
  | none =>
    exact history_acceptTarget (vacant_of_policy (a := .target req) hwf hi₁ hp hcl hr₂ (not_stored_of_previousRequest hprev))
  | some row =>
    obtain ⟨hst, hk, hrow⟩ := stored_of_previousRequest hprev
    have hlock : Key.nodeGroup req.nodeGroupId ∈ (∅ ∪ {Key.nodeGroup p.group.id} : Set Key) := by
      simp [(policyOf_spec hp).id]
    refine wp_require_bind (fun hne => ?_) fun heq => ?_
    · exact history_found (a := .target req) rfl hlock hst hk (by simp [hne])
    · refine history_found (a := .target req) rfl hlock hst hk ?_
      have hres := hi₂.results row hrow
      have hexp : row.expectedRevision = req.expectedTargetRevision := by rw [← heq]; rfl
      simp [heq, Asked.reply, hres, hexp]

theorem emits_checkNodes (g : String) (l : List RemovalNode) :
    (checkNodes g l).Emits fun ids ws => ids.length = l.length ∧ ws = [] := by
  induction l with
  | nil => exact ⟨rfl, rfl⟩
  | cons n l ih =>
    have hnode : (checkNode g n).Emits fun _ ws => ws = [] :=
      emits_nil_bind (emits_nil_selectForUpdate _ _) fun _ => emits_nil_bind (emits_nil_orFail _ _) fun _ =>
        emits_nil_bind (emits_nil_require _ _) fun _ => emits_nil_bind (emits_nil_require _ _) fun _ =>
        emits_nil_bind (emits_nil_select _) fun _ => emits_nil_bind (emits_nil_require _ _) fun _ => rfl
    refine hnode.bind fun p ws hws => ih.bind fun ps vs hvs => ?_
    simp [Emits, hws, hvs]

/-- a request that names a node leaves a removal operation -/
theorem emits_insertRemovals (g : NodeGroup) (req : NodeRemovalRequest) (revision : ℤ) (deadline : ℕ)
    {l : List (RemovalNode × String)} (hl : l ≠ []) (u : Uuids) :
    (insertRemovals g req revision deadline u l).Emits fun _ ws => ∃ o, Row.operation o ∈ ws ∧
      o.groupId = some g.id ∧ o.kind = .removeNode ∧ o.removalRequest = some req := by
  cases l with
  | nil => exact absurd rfl hl
  | cons n l =>
    have hfirst : (insertOperation (removalOperation g n.1.hostId revision (.removal req) u)).Emits fun _ ws =>
        ∃ o, Row.operation o ∈ ws ∧ o.groupId = some g.id ∧ o.kind = .removeNode ∧ o.removalRequest = some req := by
      refine emits_execute fun d rows hrows => ?_
      split_ifs at hrows
      obtain rfl := Except.ok.inj hrows
      exact ⟨_, List.mem_singleton.mpr rfl, rfl, rfl, rfl⟩
    refine hfirst.bind fun _ ws hws => (emits_true _).mono fun _ vs _ => ?_
    obtain ⟨o, ho, h⟩ := hws
    exact ⟨o, List.mem_append_left _ ho, h⟩

theorem zip_ne_nil {req : NodeRemovalRequest} {cl : String} (hwf : NodeRemovalRequest.wellFormed cl req)
    {ids : List String} (hids : ids.length = req.nodes.length) : req.nodes.zip ids ≠ [] := by
  have hne := hwf.2.2.2.2.1
  intro hz
  have := congrArg List.length hz
  rw [List.length_zip, hids, min_self, List.length_nil] at this
  exact hne (List.length_eq_zero_iff.mp this)

/-- `CreateAutoscalerRemovals` keeps the history -/
theorem history_createAutoscalerRemovals (cl : String) (req : NodeRemovalRequest) (u : Uuids) (t : ℕ) :
    Interleave.Safe (historyProtocol cat x) (.createAutoscalerRemovals cl req u t) (code x (.createAutoscalerRemovals cl req u t))
      ∅ [] w := by
  refine wp_bind (wp_require_bind (fun hn => history_ends_error fun w' _ hi a ha a₀ ha₀ hk => ?_) fun hwf =>
    wp_loadPolicy_bind (fun w₁ hr₁ hi₁ hp => history_unknown (a := .removal cl req) hp rfl hi₁) fun w₁ p hr₁ hi₁ hp =>
    wp_require_bind (fun hn => history_forbidden (a := .removal cl req) hp hn rfl hi₁) fun hcl =>
    wp_select_bind fun w₂ hr₂ hi₂ => ?_)
  · obtain rfl := Option.some.inj ha
    exact hi.repeats_invalid hn ha₀
  rw [putAll_nil] at hp ⊢
  have hs := policyOf_spec hp
  cases hprev : previousRemoval w₂.db req.nodeGroupId req.requestId with
  | some o =>
    have hlock : Key.nodeGroup req.nodeGroupId ∈ (∅ ∪ {Key.nodeGroup p.group.id} : Set Key) := by simp [hs.id]
    have hrow : w₂.db.nodeGroups.find req.nodeGroupId = some p.group := by
      simpa [DB.look, hs.group] using hr₂.frozen _ hlock
    obtain ⟨req₀, hreq₀, hst, hk⟩ := stored_of_previousRemoval hi₂.ownGroup hrow hprev
    rw [hcl] at hst hk
    refine wp_require (fun hne => ?_) fun heq => ?_
    · have hne : req₀ ≠ req := fun h => hne (h ▸ hreq₀)
      exact history_found (a := .removal cl req) rfl hlock hst hk (by simp [hne])
    · obtain rfl : req₀ = req := Option.some.inj (hreq₀.symm.trans heq)
      exact history_found (a := .removal cl req₀) rfl hlock hst hk (by simp [Asked.reply])
  | none =>
    have hd := vacant_of_policy (a := .removal cl req) hwf hi₁ hp hcl hr₂ (not_stored_of_previousRemoval hprev)
    refine wp_require_bind (fun _ => hd.error rfl _) fun hexp => wp_require_bind (fun _ => hd.error rfl _) fun hlim =>
      wp_bind (wp_emits (emits_checkNodes _ _) (fun _ _ _ => trivial) (fun e h' w' hh hr => (hd.rely hh hr).error rfl e)
        fun ids h₃ vs w₃ hh₃ hr₃ hids => ?_)
    obtain ⟨hlen, rfl⟩ := hids
    have hd₃ := hd.rely hh₃ hr₃
    refine wp_execute_bind (fun w' e hr _ _ => (hd₃.rely subset_rfl hr).error rfl e) fun w₄ rows hr₄ hi₄ hrows => ?_
    have hd₄ := hd₃.more hr₄
    obtain ⟨g', rfl, hid, ht⟩ := updateTarget_rows (g := p.group) (hd₄ ∅).row hrows
    have hemits := (Writes.emits (Z := Row.Aside)
      (show (insertRemovals p.group req (wrap64 (p.group.targetRevision + 1)) t u (req.nodes.zip ids)).Writes _ from
        writes_insertRemovals (by simp [Row.Aside, Row.kind]) (by simp [Row.Aside, Row.kind]) _ _)).and
      (emits_insertRemovals p.group req (wrap64 (p.group.targetRevision + 1)) t (zip_ne_nil hwf hlen) u)
    refine wp_emits hemits (fun _ _ _ => trivial) (fun e h' w' hh hr => ((hd₄ _).rely hh hr).error rfl e)
      fun _ h₅ vs w₅ hh₅ hr₅ hvs => ?_
    obtain ⟨hkinds, o, ho, hgroup, hkind, hreq⟩ := hvs
    refine ((hd₄ _).rely hh₅ hr₅).accept rfl [] hexp hid ht hkinds (by simp) fun d hf hcl' => ?_
    obtain ⟨o', ho', hint⟩ := follow_operation_mem hf (List.mem_append_right _ (List.mem_cons_of_mem _ ho))
    have hreq' := (removalRequest_congr hint).trans hreq
    simp only [OperationRow.intent, Prod.mk.injEq] at hint
    have hgroup' : o'.groupId = some req.nodeGroupId := by rw [hint.2.2.1, hgroup, hs.id]
    exact ⟨rfl, hcl', o', ho', hgroup', hint.1.trans hkind, hreq'⟩

/-- the rows `CreateRemoval` has written before its operation: none, or the group's with its revision moved -/
def Lowered (g : NodeGroup) (ws : List Row) : Prop :=
  ws = [] ∨ ∃ g', ws = [.nodeGroup g'] ∧ g'.id = g.id ∧ g'.target = (g.targetNodes - 1, wrap64 (g.targetRevision + 1))

/-- `CreateRemoval` keeps the history -/
theorem history_createRemoval (cl : String) (expected : ℤ) (r : NodeRemovalOperation) (u : Uuids) :
    Interleave.Safe (historyProtocol cat x) (.createRemoval cl expected r u) (code x (.createRemoval cl expected r u)) ∅ [] w := by
  have hask : (Call.createRemoval cl expected r u).asked = none := rfl
  have herr : ∀ (e : Err) (h : Set Key) (w : StoreWorld),
      Ends (historyProtocol cat x) (.createRemoval cl expected r u) (.error e) h [] w := fun e h w =>
    history_ends_error fun w' _ _ a ha => by simp [hask] at ha
  refine wp_bind (wp_require_bind (fun _ => herr _ _ _) fun _ => wp_require_bind (fun _ => herr _ _ _) fun _ =>
    wp_loadPolicy_bind (fun _ _ _ _ => herr _ _ _) fun w₁ p hr₁ hi₁ hp => wp_require_bind (fun _ => herr _ _ _) fun _ =>
    wp_require_bind (fun _ => herr _ _ _) fun _ => wp_selectForUpdate_bind fun w₂ hr₂ hi₂ =>
    wp_orFail_bind (fun _ => herr _ _ _) fun host _ => wp_require_bind (fun _ => herr _ _ _) fun _ => ?_)
  rw [putAll_nil] at hp
  have hs := policyOf_spec hp
  have hlock : ∀ t, Key.nodeGroup r.nodeGroupId ∈ (∅ ∪ {Key.nodeGroup p.group.id} ∪ t : Set Key) := fun t => by
    simp [hs.id]
  have hrow : w₂.db.nodeGroups.find r.nodeGroupId = some p.group := by
    simpa [DB.look, hs.group] using hr₂.frozen (Key.nodeGroup r.nodeGroupId) (by simp [hs.id])
  refine wp_when_bind (R := fun h ws w => Key.nodeGroup r.nodeGroupId ∈ h ∧
    w.db.nodeGroups.find r.nodeGroupId = some p.group ∧ Lowered p.group ws) (fun hpre => ?_)
    (fun _ => ⟨hlock _, hrow, .inl rfl⟩) fun h ws w₃ hR => ?_
  · refine wp_require_bind (fun _ => herr _ _ _) fun _ => wp_execute (fun _ _ _ _ _ => herr _ _ _)
      fun w₄ rows hr₄ hi₄ hrows => ?_
    have hrow₄ : w₄.db.nodeGroups.find r.nodeGroupId = some p.group := by
      simpa [DB.look, hrow] using hr₄.frozen _ (hlock _)
    rw [if_neg (by simp [hpre]), hs.id] at hrows
    exact ⟨.inl (hlock _), hrow₄, .inr (updateTarget_rows (d := w₄.db) hrow₄ hrows)⟩
  · obtain ⟨hmem, hrow₃, hws⟩ := hR
    refine wp_emits (R := fun _ vs => ∀ row ∈ vs, row.Aside)
      (Writes.emits (Z := Row.Aside) ?_) (fun _ _ _ => trivial)
      (fun e h' w' hh hr => herr _ _ _) fun _ h₅ vs w₅ hh₅ hr₅ hvs => ?_
    · exact (writes_insertOperation fun _ => by simp [Row.Aside, Row.kind]).bind fun _ =>
        (writes_insertRemoval (by simp [Row.Aside, Row.kind])).bind fun _ => trivial
    · refine history_ends (fun g₀ hg₀ => .inl ?_) fun w' hr he => ?_
      · obtain rfl := Option.some.inj hg₀
        exact hh₅ hmem
      have hrow' : w'.db.nodeGroups.find r.nodeGroupId = some p.group := by
        have h₅ := hr₅.frozen _ hmem
        have h' := hr.frozen _ (hh₅ hmem)
        simpa [DB.look, h₅, hrow₃] using h'.trans h₅
      refine ⟨by simp, fun row hmem' => ?_, fun g₀ => ?_, by simp [hask]⟩
      · obtain ⟨old, hstep⟩ := he.follow.exists hmem'
        exact absurd hstep.step.2 (by simp [Call.records])
      · by_cases hg : r.nodeGroupId = g₀
        · subst hg
          rcases hws with rfl | ⟨g', rfl, hid, ht⟩
          · refine .inl ?_
            rw [List.nil_append, pairOf, (putAll_frame hvs _).1]
            rfl
          · refine .inr ⟨p.group.targetRevision, by simp [revisionOf, hrow'], ?_⟩
            rw [revisionOf_eq, show pairOf (putAll ([Row.nodeGroup g'] ++ vs) w'.db) _ = _ from
              pairOf_moved [] hrow' hid ht hvs]
            rfl
        · exact .inl (pairOf_putAll he.follow (by simpa [Call.group] using hg))

theorem history_implements (cat : Catalog) (x : Externals) : Implements (historyProtocol cat x) (code x) DB.tick where
  writes c := code_writes x c
  safe c w _ := by
    cases hc : c.group with
    | none => exact history_other hc w
    | some g =>
      cases c <;> simp only [Call.group, reduceCtorEq] at hc
      case setTarget req u => exact history_setTarget req u
      case createAutoscalerRemovals cl req u t => exact history_createAutoscalerRemovals cl req u t
      case createRemoval cl expected r u => exact history_createRemoval cl expected r u
  tick_look := DB.look_tick
  tick_inv _ _ hi := { hi with topology := { hi.topology with } }
  tick_rely _ _ w _ := ⟨fun _ _ => rfl, .refl w.db⟩

end Accept

/-! ## The history -/

/-- one linear, exactly-once history of target changes -/
structure ExactlyOnce (cat : Catalog) (w : StoreWorld) : Prop where
  /-- after an accepted request, its ID changes nothing more: the same request has the same answer, another is refused -/
  repeated : w.log.Pairwise fun e e' => ∀ a a', e.call.asked = some a → Entry.TakesEffect e →
    e'.call.asked = some a' → a'.key = a.key →
    e'.after = e'.before ∧ (a' = a → e'.out = e.out) ∧ (a' ≠ a → Refused cat a' e'.out)
  /-- a request that succeeds is accepted, or an earlier call with the same fields was -/
  answered : ∀ e ∈ w.log, ∀ a r, e.call.asked = some a → e.out = .ok r →
    Entry.TakesEffect e ∨ ∃ e₀, [e₀, e].Sublist w.log ∧ e₀.call.asked = some a ∧ Entry.TakesEffect e₀
  /-- an accepted request moves the revision from the expected one to the next, with its target -/
  accepted : ∀ e ∈ w.log, ∀ a, e.call.asked = some a → Entry.TakesEffect e → e.out = .ok a.reply ∧
    ∃ n, pairOf e.before a.group = some (n, a.expectedRevision) ∧
      pairOf e.after a.group = some (a.newTarget n, a.expectedRevision + 1)
  /-- the revisions of a group count up from the catalog's to the current one, each with one call on the group -/
  gapless : ∀ g r, revisionOf cat.db g = some r → revisionOf w.db g = some (r + (moved w.log g).length) ∧
    moved w.log g = (List.range (moved w.log g).length).map fun i : ℕ => r + (i : ℤ) + 1
  movers : ∀ e ∈ w.log, ∀ g, revisionOf e.after g ≠ revisionOf e.before g → e.call.group = some g
  /-- calls that fail change nothing -/
  failed : ∀ e ∈ w.log, ∀ err, e.out = .error err → e.after = e.before
  bounds : ∀ g ∈ w.db.nodeGroups.rows, g.minNodes ≤ g.targetNodes ∧ g.targetNodes ≤ g.maxNodes

/-- **Target changes form one linear, exactly-once history per node group.** From any catalog, in every interleaving of
the store's calls. -/
theorem target_history_exactly_once (x : Externals) (cat : Catalog) (acts : List StoreAct) :
    ExactlyOnce cat (concurrently x cat acts).world := by
  have hi := run_inv (history_implements cat x) acts cat.db (recorded_init cat)
  refine ⟨?_, hi.answered, fun e hmem a ha heff => ?_, hi.movedTo, hi.movers, fun e hmem err herr => ?_, fun g _ => ?_⟩
  · refine hi.repeated.imp_of_mem fun {e e'} hmem _ hrep a a' ha heff ha' hk => ?_
    obtain ⟨hnone, hans⟩ := hrep a a' ha heff ha' hk
    exact ⟨not_not.mp hnone, fun heq => (hans.same heq).trans (hi.accepted e hmem a ha heff).out.symm, hans.other⟩
  · have hacc := hi.accepted e hmem a ha heff
    exact ⟨hacc.out, hacc.moved⟩
  · exact not_not.mp (hi.failed e hmem err herr)
  · exact g.check_target

/-- the group's owner is checked before the records: an accepted request that comes again for another cluster is
forbidden, not a mismatch -/
theorem repeated_for_other_cluster_forbidden :
    ((concurrently Fleet.externals Fleet.catalog
      ([.begin 0 (Fleet.retargeting "r1" 0 2)] ++ List.replicate 20 (.exec 0) ++ [.finish 0,
        .begin 0 (.setTarget ⟨"g", "r1", "other", 0, 2, "t1"⟩ fun _ => "")] ++ List.replicate 20 (.exec 0) ++
        [.finish 0])).world.log.map fun e =>
        (e.call.asked, e.out, revisionOf e.before "g", revisionOf e.after "g")) =
      [(some (.target ⟨"g", "r1", "c", 0, 2, "t1"⟩), .ok (.target ⟨"r1", "g", 2, 1⟩), some 0, some 1),
        (some (.target ⟨"g", "r1", "other", 0, 2, "t1"⟩), .error .forbidden, some 1, some 1)] := by
  decide +kernel

end Crane.Capacity
