/-
The firewall of a deployment (`ensureSecurityGroups` of `internal/provider/awscompute/bootstrap_resources.go`).

A call finds or creates four security groups, refuses any ingress it does not know, and then authorizes seven rules between
them. Whatever rules the groups had before: a call that succeeds leaves exactly the seven.

AWS picks the ID of a new group (`newId`) and gives out no ID twice. Ports mean nothing for the protocol -1.
-/
import Crane.Bootstrap.Aws
import Crane.Lib.Remote

namespace Crane.Bootstrap.SecurityGroups

open Aws Remote

/-! ## Security groups -/

abbrev Tags := List (String × String)

def owned (tags : Tags) (name : String) : Bool := tags.any (· = ("CraneBootstrap", name))

def resourceTags (name kind : String) : Tags := [("CraneBootstrap", name), ("Name", name ++ "-" ++ kind)]

structure Permission where
  protocol : String
  fromPort : Int32
  toPort : Int32
  /-- IpRanges, Ipv6Ranges and PrefixListIds -/
  ranges : List String
  /-- the groups of UserIdGroupPairs -/
  sources : List String

structure SecurityGroup where
  id : String
  vpc : String
  name : String
  tags : Tags
  permissions : List Permission := []

abbrev Groups := Table SecurityGroup.id

inductive AwsError where
  | duplicate -- InvalidPermission.Duplicate
  | code (code : String)

inductive Request where
  | describe (vpc name : String)
  | create (name vpc : String) (tags : Tags)
  | authorize (group : String) (p : Permission)

@[reducible] def Request.Value : Request → Type
  | .describe _ _ => List SecurityGroup
  | .create _ _ _ => String
  | .authorize _ _ => Unit

def named (vpc name : String) (g : SecurityGroup) : Bool := g.vpc = vpc && g.name = name

/-- one of the permission's sources is admitted on its ports already -/
def SecurityGroup.admits (g : SecurityGroup) (p : Permission) : Bool :=
  g.permissions.any fun q => q.protocol = p.protocol && q.fromPort = p.fromPort && q.toPort = p.toPort &&
    p.sources.any (· ∈ q.sources)

def serve (newId : Groups → String) : (q : Request) → Groups → Except AwsError q.Value × Groups
  | .describe vpc name, s => (.ok (s.rows.filter (named vpc name)), s)
  | .create name vpc tags, s =>
    if s.rows.any (named vpc name) || (s.find (newId s)).isSome then (.error (.code "InvalidGroup.Duplicate"), s)
    else (.ok (newId s), s.put { id := newId s, vpc, name, tags })
  | .authorize group p, s => match s.find group with
    | none => (.error (.code "InvalidGroup.NotFound"), s)
    | some g =>
      if g.admits p then (.error .duplicate, s)
      else (.ok (), s.put { g with permissions := g.permissions ++ [p] })

/-- nobody else changes the groups meanwhile, and only AWS says that a rule is there already -/
def aws (newId : Groups → String) : Remote Request Request.Value AwsError Unit String Groups where
  serve := serve newId
  others _ s := s
  error := .code

/-! ## The call -/

inductive Kind where
  | spire | spireNlb | platform | rds
deriving DecidableEq

def Kind.name : Kind → String
  | .spire => "spire"
  | .spireNlb => "spire-nlb"
  | .platform => "platform"
  | .rds => "rds"

def kinds : List Kind := [.spire, .spireNlb, .platform, .rds]

variable (c : BootstrapConfig) (vpc : String)

def groupName (k : Kind) : String := c.name ++ "-" ++ k.name

inductive Failure where
  | aws (e : AwsError)
  | text (message : String)

abbrev Call := Prog Request (fun q => Except AwsError q.Value) (Except Failure (Kind → String))

def fail (message : String) : Call := .ret (.error (.text message))

/-- the ID and the permissions found for each kind -/
abbrev Found := Kind → String × List Permission

/-- the loop over the kinds -/
def findGroups (next : Found → Call) : List Kind → Found → Call
  | [], f => next f
  | k :: rest, f =>
    let found (id : String) (existing : List Permission) : Call :=
      if id = "" then fail ("AWS returned no " ++ k.name ++ " security group ID")
      else findGroups next rest (Function.update f k (id, existing))
    .ask (.describe vpc (groupName c k)) fun r => match r with
      | .error e => .ret (.error (.aws e))
      | .ok [] => .ask (.create (groupName c k) vpc (resourceTags c.name k.name)) fun r => match r with
        | .error e => .ret (.error (.aws e))
        | .ok id => found id []
      | .ok [g] =>
        if owned g.tags c.name = false then fail ("security group " ++ k.name ++ " is not owned by this bootstrap")
        else if g.permissions.any fun p => p.ranges ≠ [] then
          fail ("security group " ++ k.name ++ " contains unexpected CIDR/prefix-list ingress")
        else found g.id g.permissions
      | .ok _ => fail ("multiple " ++ k.name ++ " security groups")

def allowed (port : Int32) (ids : Kind → String) (k : Kind) (p : Permission) (source : String) : Bool :=
  let tcp (n : Int32) := p.protocol = "tcp" && p.fromPort = n && p.toPort = n
  (k = .spire && source = ids .spireNlb && tcp 8081) || (k = .spireNlb && source = ids .platform && tcp 8081) ||
    (k = .spireNlb && source = ids .spire && tcp 8081) || (k = .spire && source = ids .platform && tcp 44001) ||
    (k = .platform && source = ids .platform && p.protocol = "-1") ||
    (k = .rds && (source = ids .spire || source = ids .platform) && tcp port)

def tcp (source : String) (port : Int32) : Permission := ⟨"tcp", port, port, [], [source]⟩

/-- the seven rules, in the order in which they are authorized -/
def rules (port : Int32) (ids : Kind → String) : List (Kind × Permission) :=
  [(.spire, tcp (ids .spireNlb) 8081), (.spireNlb, tcp (ids .platform) 8081), (.spireNlb, tcp (ids .spire) 8081),
    (.spire, tcp (ids .platform) 44001), (.platform, ⟨"-1", 0, 0, [], [ids .platform]⟩), (.rds, tcp (ids .spire) port),
    (.rds, tcp (ids .platform) port)]

/-- the loop over the rules -/
def authorize (ids : Kind → String) : List (Kind × Permission) → Call
  | [] => .ret (.ok ids)
  | (k, x) :: rest => .ask (.authorize (ids k) x) fun r => match r with
    | .ok () | .error .duplicate => authorize ids rest
    | .error e => .ret (.error (.aws e))

def ensureSecurityGroups : Call :=
  findGroups c vpc (fun f =>
    let ids k := (f k).1
    let unexpected k := (f k).2.any fun p => p.sources.any fun s => !allowed c.rds.port ids k p s
    match kinds.find? unexpected with
    | some k => fail ("security group " ++ k.name ++ " has an unexpected source/protocol/port rule")
    | none => authorize ids (rules c.rds.port ids)) kinds fun _ => ("", [])

/-! ## What a call leaves -/

/-- what a permission says about one of its sources -/
def Permission.rule (p : Permission) (source : String) : Permission :=
  if p.protocol = "-1" then ⟨"-1", 0, 0, [], [source]⟩ else ⟨p.protocol, p.fromPort, p.toPort, [], [source]⟩

def Admits (g : SecurityGroup) (x : Permission) : Prop := ∃ p ∈ g.permissions, ∃ source ∈ p.sources, p.rule source = x

/-- the group of kind `k`: tagged, and without ingress from addresses -/
def Private (k : Kind) (g : SecurityGroup) : Prop :=
  named vpc (groupName c k) g = true ∧ owned g.tags c.name = true ∧ ∀ p ∈ g.permissions, p.ranges = []

/-- the four groups admit only the seven rules, and all but those of `rest` -/
def Admitting (ids : Kind → String) (rest : List (Kind × Permission)) (s : Groups) : Prop :=
  ∀ k, ∃ g, s.find (ids k) = some g ∧ Private c vpc k g ∧ ∀ x, (Admits g x → (k, x) ∈ rules c.rds.port ids) ∧
    ((k, x) ∈ rules c.rds.port ids → Admits g x ∨ (k, x) ∈ rest)

/-- a call that succeeds leaves exactly the seven -/
abbrev Exact (newId : Groups → String) (p : Call) (s : Groups) : Prop :=
  SafeTo ((aws newId).rules fun _ _ => True) (fun r s => ∀ ids, r = .ok ids → Admitting c vpc ids [] s) p s

variable {newId : Groups → String} {c vpc}

theorem exact_error (e : Failure) (s : Groups) : Exact c vpc newId (.ret (.error e)) s := by
  rintro _ ⟨⟩

theorem Private.kind_eq {k k' : Kind} {g : SecurityGroup} (h : Private c vpc k g) (h' : Private c vpc k' g) : k = k' := by
  simp only [Private, named, Bool.and_eq_true, decide_eq_true_eq] at h h'
  have : k.name = k'.name := by simpa [groupName, String.append_assoc] using h.1.2.symm.trans h'.1.2
  revert this
  cases k <;> cases k' <;> decide

theorem findGroups_exact {next : Found → Call}
    (hnext : ∀ f s, (∀ k, ∃ g, s.find (f k).1 = some g ∧ Private c vpc k g ∧ g.permissions = (f k).2) →
      Exact c vpc newId (next f) s) (ks : List Kind) (f : Found) (s : Groups)
    (hf : ∀ k, k ∈ ks ∨ ∃ g, s.find (f k).1 = some g ∧ Private c vpc k g ∧ g.permissions = (f k).2) :
    Exact c vpc newId (findGroups c vpc next ks f) s := by
  induction ks generalizing f s with
  | nil => exact hnext f s fun k => (hf k).resolve_left List.not_mem_nil
  | cons k rest ih =>
    -- the group of `k` is there, and the groups that were found before still are
    have hfound : ∀ (t : Groups) (g : SecurityGroup), t.find g.id = some g → Private c vpc k g →
        (∀ id g, s.find id = some g → t.find id = some g) → Exact c vpc newId
          (if g.id = "" then fail ("AWS returned no " ++ k.name ++ " security group ID")
            else findGroups c vpc next rest (Function.update f k (g.id, g.permissions))) t := by
      intro t g hg hp hold
      split
      · apply exact_error
      · refine ih _ t fun x => ?_
        by_cases hx : x = k
        · subst hx
          exact .inr ⟨g, by simpa using hg, hp, by simp⟩
        · rw [Function.update_of_ne hx]
          exact (hf x).imp (List.mem_of_ne_of_mem hx) (.imp fun _ hg => ⟨hold _ _ hg.1, hg.2⟩)
    refine safeTo_ask trivial (fun _ => ?_) fun _ => exact_error _
    simp only [aws, serve]
    split
    · apply exact_error
    · refine safeTo_ask trivial (fun _ => ?_) fun _ => exact_error _
      simp only [serve]
      split_ifs with hnew
      · apply exact_error
      · refine hfound _ ⟨newId s, vpc, groupName c k, resourceTags c.name k.name, []⟩ (s.find_put_self _)
          (by simp [Private, named, owned, resourceTags]) fun id g hg => ?_
        rw [Table.find_put_ne]
        · exact hg
        · rintro rfl
          simp [hg] at hnew
    · rename_i g hg
      have hmem : g ∈ s.rows ∧ named vpc (groupName c k) g = true := List.mem_filter.mp (by simp_all)
      split
      · apply exact_error
      · rename_i howned
        split
        · apply exact_error
        · rename_i hranges
          exact hfound s g (Table.find_mem hmem.1) ⟨hmem.2, by simpa using howned, by simpa using hranges⟩ fun _ _ h => h
    · apply exact_error

/-! ### The loop over the rules -/

section Rules
variable {port : Int32} {ids : Kind → String} {k : Kind} {x : Permission}

theorem rule_mem {p : Permission} {source : String} (h : allowed port ids k p source = true) :
    (k, p.rule source) ∈ rules port ids := by
  cases k <;> simp [allowed, rules, tcp, Permission.rule] at h ⊢ <;> grind

/-- each of the seven has one source, no address and, for the protocol -1, no ports -/
theorem rule_self (h : (k, x) ∈ rules port ids) : ∃ source, x.sources = [source] ∧ x.ranges = [] ∧ x.rule source = x := by
  simp only [rules, tcp, List.mem_cons, Prod.mk.injEq, List.not_mem_nil, or_false] at h
  rcases h with h | h | h | h | h | h | h
  all_goals
    obtain ⟨-, rfl⟩ := h
    exact ⟨_, rfl, rfl, by simp [Permission.rule]⟩

/-- the rule is authorized, just now or before -/
theorem serve_authorize (newId : Groups → String) (hx : (k, x) ∈ rules port ids) {s : Groups} {g : SecurityGroup}
    (hg : s.find (ids k) = some g) (hp : Private c vpc k g) : ∃ g', Private c vpc k g' ∧ (∀ y, Admits g' y ↔ Admits g y ∨ y = x) ∧
      ∀ id, (serve newId (.authorize (ids k) x) s).2.find id = if ids k = id then some g' else s.find id := by
  obtain ⟨source, hsources, hranges, hself⟩ := rule_self hx
  simp only [serve, hg]
  split
  · rename_i hdup
    obtain ⟨p, hpg, hprotocol, hfrom, hto, hsource⟩ := by simpa [SecurityGroup.admits, hsources, and_assoc] using hdup
    have hadmits : Admits g x := ⟨p, hpg, source, hsource, by
      rw [← hself, Permission.rule, Permission.rule, hprotocol, hfrom, hto]⟩
    refine ⟨g, hp, fun y => ⟨.inl, ?_⟩, fun id => ?_⟩
    · rintro (h | rfl)
      · exact h
      · exact hadmits
    · split_ifs with hid
      · rw [← hid, hg]
      · rfl
  · refine ⟨{ g with permissions := g.permissions ++ [x] }, ⟨hp.1, hp.2.1, ?_⟩, fun y => ?_, fun id => ?_⟩
    · simpa [or_imp, forall_and, hranges] using hp.2.2
    · simp [Admits, or_and_right, exists_or, hsources, hself, eq_comm]
    · rw [Table.find_put, ← Table.key_of_find hg]

end Rules

theorem authorize_exact (ids : Kind → String) (rest : List (Kind × Permission)) (s : Groups)
    (hrest : ∀ x ∈ rest, x ∈ rules c.rds.port ids) (hs : Admitting c vpc ids rest s) :
    Exact c vpc newId (authorize ids rest) s := by
  induction rest generalizing s with
  | nil =>
    rintro _ ⟨⟩
    exact hs
  | cons a rest ih =>
    obtain ⟨k, x⟩ := a
    have hx := hrest _ List.mem_cons_self
    obtain ⟨g, hg, hp, hadmits⟩ := hs k
    obtain ⟨g', hp', hadmits', hfind⟩ := serve_authorize newId hx hg hp
    have hnext : Admitting c vpc ids rest (serve newId (.authorize (ids k) x) s).2 := by
      intro k'
      obtain ⟨h, hh, hph, hadmitsh⟩ := hs k'
      simp only [hfind]
      by_cases hk : k = k'
      · subst hk
        refine ⟨g', if_pos rfl, hp', fun y => ?_⟩
        have := hadmits y
        simp only [List.mem_cons, Prod.mk.injEq, true_and, hadmits'] at this ⊢
        grind
      · refine ⟨h, ?_, hph, fun y => ?_⟩
        · -- the group of another kind has another name
          rw [if_neg, hh]
          intro hid
          rw [hid, hh] at hg
          obtain rfl := Option.some.inj hg
          exact hk (hp.kind_eq hph)
        · have := hadmitsh y
          simp only [List.mem_cons, Prod.mk.injEq, Ne.symm hk, false_and, false_or] at this
          exact this
    have hgo := ih _ (fun y hy => hrest y (List.mem_cons_of_mem _ hy)) hnext
    refine safeTo_ask trivial (fun _ => ?_) fun _ => exact_error _
    simp only [aws]
    split
    · exact hgo
    · exact hgo
    · apply exact_error

theorem ensureSecurityGroups_exact (s : Groups) : Exact c vpc newId (ensureSecurityGroups c vpc) s := by
  refine findGroups_exact (fun f s hf => ?_) kinds _ s fun k => .inl (by cases k <;> decide)
  dsimp only
  split
  · apply exact_error
  · rename_i hnone
    refine authorize_exact _ _ s (fun _ h => h) fun k => ?_
    obtain ⟨g, hg, hp, hexisting⟩ := hf k
    refine ⟨g, hg, hp, fun x => ⟨?_, .inr⟩⟩
    rintro ⟨p, hpg, source, hsource, rfl⟩
    have hk := List.find?_eq_none.mp hnone k (by cases k <;> decide)
    simp only [List.any_eq_true, not_exists, not_and, Bool.not_eq_true', Bool.not_eq_false] at hk
    exact rule_mem (hk p (hexisting ▸ hpg) source hsource)

/-- **The firewall is exact.** Whatever the security groups held before, and whichever requests failed or were carried out
without an answer: after a call that succeeds the four groups are tagged, admit no address, and admit the seven rules and
nothing else. -/
theorem firewall_exact (fates : ℕ → Option (Fate Unit String)) {w s : Groups} {ids : Kind → String}
    (h : (aws newId).run fates (ensureSecurityGroups c vpc) w = (s, some (.ok ids))) (k : Kind) :
    ∃ g, s.find (ids k) = some g ∧ Private c vpc k g ∧ ∀ x, Admits g x ↔ (k, x) ∈ rules c.rds.port ids := by
  have hrun := run_safe (I := fun _ => True) (fun _ _ _ => trivial) (fun _ _ _ _ => trivial) (fun _ _ _ _ => trivial)
    (ensureSecurityGroups_exact w : Exact c vpc newId _ w) trivial fates
  rw [h] at hrun
  obtain ⟨g, hg, hp, hadmits⟩ := hrun.2 _ rfl ids rfl k
  exact ⟨g, hg, hp, fun x => ⟨(hadmits x).1, fun hx => ((hadmits x).2 hx).resolve_right List.not_mem_nil⟩⟩

namespace Sample

abbrev config := Aws.Sample.minimal.withDefaults

def nextId (s : Groups) : String := String.join ("sg-1" :: s.rows.map SecurityGroup.id)

/-- a call on an account without groups, none of whose requests fails -/
def attempt : Groups × Option (Except Failure (Kind → String)) :=
  (aws nextId).run (fun _ => some (.served ())) (ensureSecurityGroups config "vpc-1") Table.empty

theorem firewall_exact_attempt : ∃ ids, attempt.2 = some (.ok ids) ∧ ∀ k, ∃ g, attempt.1.find (ids k) = some g ∧
    Private config "vpc-1" k g ∧ ∀ x, Admits g x ↔ (k, x) ∈ rules 5432 ids :=
  ⟨_, rfl, firewall_exact _ rfl⟩

end Sample

end Crane.Bootstrap.SecurityGroups
