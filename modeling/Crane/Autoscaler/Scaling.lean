/-
One scale request changes the target once, end to end.

Callbacks of any number of adapters run against the concurrent store over a network that loses, delays, duplicates and
reorders what they send: an attempt may reach the store never, late or several times, also after its callback has given
up, and any failing answer may come at any time. Only a decoded answer that verifies has to be the store's answer to that
very request. Other callers use other request IDs.

The client sends one request in all attempts, built from the pair it has read; the store's history (`History`) decides
the rest.
-/
import Crane.Autoscaler.Adapter
import Crane.Capacity.History

namespace Crane.Autoscaler

open Capacity Interleave

/-! ## Clients -/

inductive Callback where
  | increaseSize | decreaseTargetSize
deriving DecidableEq

def Callback.program (k : Callback) (s : Server) (id : String) (delta : Int32) : Adapter (Except Code Unit) :=
  match k with
  | .increaseSize => nodeGroupIncreaseSize s id delta
  | .decreaseTargetSize => nodeGroupDecreaseTargetSize s id delta

/-- what is remembered of a callback's exchanges -/
structure Exchanged where
  /-- target and revision it has read -/
  read : Option (ℤ × ℤ) := none
  /-- the request of its attempts -/
  sent : Option CapacityRequest := none
  /-- a verified answer came back -/
  confirmed : Bool := false
  answer : Option (Except Code Unit) := none

def Exchanged.next : (q : Query) → q.Answer → Exchanged → Exchanged
  | .target _, .decoded out, g => { g with read := some (out.targetNodes, out.targetRevision) }
  | .setTarget req, .decoded out, g =>
    { g with sent := some req, confirmed := g.confirmed || HTTPClient.verified req out }
  | .setTarget req, _, g => { g with sent := some req }
  | .respond out, _, g => { g with answer := some out }
  | _, _, g => g

/-- a callback in progress -/
structure Client where
  group : String
  delta : Int32
  prog : Adapter Unit
  exchanged : Exchanged := {}
  /-- answers to its read of the target that are on their way -/
  mail : List CapacityResult := []

def Client.start (k : Callback) (s : Server) (group : String) (delta : Int32) : Client where
  group := group
  delta := delta
  prog := (k.program s group delta).bind fun out => ask (.respond out)

/-- the request the client is sending or has sent -/
def Client.onWire (c : Client) : Option CapacityRequest :=
  match c.prog with
  | .ask (.setTarget req) _ => some req
  | _ => c.exchanged.sent

/-! ## The network -/

/-- request IDs: `uuid i` is the one client `i` draws, and `issued` tells the IDs of clients from all others -/
structure RequestIds where
  uuid : ℕ → String
  issued : String → Bool
  injective : ∀ i j, uuid i = uuid j → i = j
  issued_uuid : ∀ i, issued (uuid i) = true

structure Net where
  store : Sys DB Key Row Err Operation Bool Reply Call
  clients : ℕ → Option Client

def Net.setClient (n : Net) (i : ℕ) (c : Client) : Net := { n with clients := fun j => if j = i then some c else n.clients j }

inductive NetAct where
  | store (a : StoreAct) -- other callers, and the progress of open transactions
  | call (i : ℕ) (k : Callback) (s : Server) (group : String) (delta : Int32)
  | serve (i : ℕ) -- the client's read reaches the store
  | arrive (i slot : ℕ) (u : Uuids) -- an attempt of the client reaches the store
  | reply (i : ℕ) (q : Query) (a : q.Answer)

/-- others do not use the clients' request IDs -/
def foreign (ids : RequestIds) : StoreAct → Bool
  | .begin _ (.setTarget req _) => !ids.issued req.requestId
  | _ => true

/-- the answers client `i` may get -/
def allowed (ids : RequestIds) (log : List Entry) (i : ℕ) (c : Client) : (q : Query) → q.Answer → Bool
  | .target _, .decoded out => out ∈ c.mail
  | .setTarget req, .decoded out =>
    !HTTPClient.verified req out || log.any fun e => e.call.asked = some (.target req) && e.out = .ok (.target out)
  | .uuid, id => id = ids.uuid i
  | _, _ => true

/-- the store's answer to a read of the target -/
def targetOf (d : DB) (group : String) : Option CapacityResult :=
  (d.nodeGroups.find group).map fun g => ⟨"", group, g.targetNodes, g.targetRevision⟩

section Machine
variable (ids : RequestIds) (x : Externals)

def Client.reply (n : Net) (i : ℕ) (c : Client) (q : Query) (a : q.Answer) : Client :=
  match c.prog with
  | .ask q' k => if h : q = q' then
      if allowed ids n.store.world.log i c q a then
        { c with prog := k (h ▸ a), exchanged := c.exchanged.next q a }
      else c
    else c
  | _ => c

def Net.step (n : Net) : NetAct → Net
  | .store a => if foreign ids a then { n with store := Interleave.step (code x) DB.tick n.store a } else n
  | .call i k s group delta => match n.clients i with
    | none => n.setClient i (.start k s group delta)
    | some _ => n
  | .serve i => match n.clients i with
    | some c => n.setClient i { c with mail := c.mail ++ (targetOf n.store.world.db c.group).toList }
    | none => n
  | .arrive i slot u => match n.clients i with
    | none => n
    | some c => match c.onWire with
      | none => n
      | some req =>
        { n with store := Interleave.step (code x) DB.tick n.store (.begin slot (.setTarget req u)) }.setClient i
          { c with exchanged := { c.exchanged with sent := some req } }
  | .reply i q a => match n.clients i with
    | some c => n.setClient i (c.reply ids n i q a)
    | none => n

def Net.run (cat : Catalog) (acts : List NetAct) : Net :=
  acts.foldl (Net.step ids x) ⟨Interleave.start cat.db, fun _ => none⟩

end Machine

/-! ## What a client sends -/

section Programs
variable {ids : RequestIds} {i : ℕ} {id : String} {delta : Int32}

/-- the request of client `i`, built from the pair it has read -/
structure Proper (ids : RequestIds) (i : ℕ) (id : String) (delta : Int32) (read : Option (ℤ × ℤ))
    (req : CapacityRequest) : Prop where
  requestId : req.requestId = ids.uuid i
  group : req.nodeGroupId = id
  pair : read = some (req.desiredTarget - delta.toInt, req.expectedTargetRevision)

def guard (ids : RequestIds) (i : ℕ) (id : String) (delta : Int32) : Query → Exchanged → Prop
  | .target g, e => g = id ∧ e.sent = none
  | .setTarget req, e => Proper ids i id delta e.read req ∧ ∀ r, e.sent = some r → r = req
  | .respond out, e => out = .ok () → e.confirmed = true
  | _, _ => True

def valid (ids : RequestIds) (i : ℕ) : (q : Query) → q.Answer → Prop
  | .uuid, a => a = ids.uuid i
  | _, _ => True

/-- a program of client `i` with what was exchanged before it and what holds after it -/
abbrev Keeps (ids : RequestIds) (i : ℕ) (id : String) (delta : Int32) {α : Type} (post : α → Exchanged → Prop)
    (p : Adapter α) (e : Exchanged) : Prop :=
  p.Along (guard ids i id delta) (valid ids i) Exchanged.next post e

theorem keeps_andThen {α β : Type} {post : Except Code β → Exchanged → Prop} {p : Adapter (Except Code α)}
    {f : α → Adapter (Except Code β)} {e : Exchanged}
    (h : Keeps ids i id delta (fun r e => match r with
      | .error c => post (.error c) e
      | .ok a => Keeps ids i id delta post (f a) e) p e) : Keeps ids i id delta post (andThen p f) e := by
  refine Prog.along_bind (Prog.along_mono (fun r e hr => ?_) h)
  cases r with
  | error c => exact hr
  | ok a => exact hr

theorem keeps_refresh (s : Server) (e : Exchanged) :
    Keeps ids i id delta (fun _ e' => e' = e) (refresh s) e := by
  unfold refresh
  split_ifs
  · exact rfl
  · refine ⟨trivial, fun r _ => ?_⟩
    show Prog.Along _ _ _ _ _ e
    simp only [Prog.ret_bind]
    cases HTTPClient.discover s.clusterId r with
    | error c => exact rfl
    | ok d =>
      cases hd : discoveredGroups d with
      | error c => simp [hd, Prog.Along]
      | ok groups =>
        simp only [hd]
        split_ifs
        · exact rfl
        · exact ⟨trivial, fun _ _ => rfl⟩

theorem keeps_group (g : String) (e : Exchanged) : Keeps ids i id delta (fun _ e' => e' = e) (group g) e := by
  refine ⟨trivial, fun r _ => ?_⟩
  simp only [Prog.ret_bind]
  split <;> rfl

theorem keeps_readTarget {e : Exchanged} (hs : e.sent = none) :
    Keeps ids i id delta (fun r e' => ∀ out, r = .ok out →
      e' = { e with read := some (out.targetNodes, out.targetRevision) }) (readTarget id) e := by
  refine ⟨⟨rfl, hs⟩, fun r _ => ?_⟩
  intro out hout
  cases r with
  | decoded a =>
    simp only [HTTPClient.target, Response.result, Bind.bind, Except.bind] at hout
    split_ifs at hout
    obtain rfl := Except.ok.inj hout
    rfl
  | _ => simp [HTTPClient.target, Response.result, Bind.bind, Except.bind] at hout

/-- the state of the retry loop: every attempt so far has sent `req` -/
structure Sending (ids : RequestIds) (i : ℕ) (id : String) (delta : Int32) (req : CapacityRequest) (e : Exchanged) :
    Prop where
  proper : Proper ids i id delta e.read req
  sent : ∀ r, e.sent = some r → r = req

theorem keeps_submit {req : CapacityRequest} {e : Exchanged} (h : Sending ids i id delta req e) :
    Keeps ids i id delta (fun r e' => Sending ids i id delta req e' ∧ (r = .ok () → e'.confirmed = true))
      (submit req) e := by
  refine ⟨⟨h.proper, h.sent⟩, fun r _ => ?_⟩
  cases r with
  | decoded out =>
    refine ⟨⟨h.proper, by simp [Exchanged.next]⟩, fun hok => ?_⟩
    by_cases hv : HTTPClient.verified req out = true
    · simp [Exchanged.next, hv]
    · simp [HTTPClient.setTarget, Response.result, Bind.bind, Except.bind, hv, Except.map] at hok
  | _ =>
    refine ⟨⟨h.proper, by simp [Exchanged.next]⟩, fun hok => ?_⟩
    simp [HTTPClient.setTarget, Response.result, Bind.bind, Except.bind, Except.map] at hok

/-- success was confirmed -/
def Confirmed (out : Except Code Unit) (e : Exchanged) : Prop := out = .ok () → e.confirmed = true

theorem confirmed_error (c : Code) (e : Exchanged) : Confirmed (.error c) e := fun h => by simp at h

theorem keeps_attempt {req : CapacityRequest} {again : Adapter (Except Code Unit)} {e : Exchanged}
    (h : Sending ids i id delta req e)
    (ha : ∀ e', Sending ids i id delta req e' → Keeps ids i id delta Confirmed again e') :
    Keeps ids i id delta Confirmed (attempt (submit req) again) e := by
  refine ⟨trivial, fun r _ => ?_⟩
  simp only [Prog.ret_bind]
  cases r with
  | some c => exact confirmed_error c _
  | none =>
    refine Prog.along_bind (Prog.along_mono (fun out e' hout => ?_) (keeps_submit h))
    split
    · exact ha e' hout.1
    · exact hout.2

theorem keeps_retry {req : CapacityRequest} (left : ℕ) {e : Exchanged} (h : Sending ids i id delta req e) :
    Keeps ids i id delta Confirmed (retry (submit req) left) e := by
  induction left generalizing e with
  | zero => exact keeps_attempt h fun e' _ => confirmed_error _ e'
  | succ left ih =>
    refine keeps_attempt h fun e' he' => ⟨trivial, fun r _ => ?_⟩
    simp only [Prog.ret_bind]
    cases r with
    | some c => exact confirmed_error c _
    | none => exact ih he'

theorem keeps_changeTarget (s : Server) {e : Exchanged} (hs : e.sent = none) :
    Keeps ids i id delta Confirmed (changeTarget s id delta) e := by
  refine keeps_andThen (Prog.along_mono (fun r e₁ he₁ => ?_) (keeps_refresh s e))
  subst he₁
  cases r with
  | error c => exact confirmed_error c _
  | ok _ =>
    refine keeps_andThen (Prog.along_mono (fun r e₂ he₂ => ?_) (keeps_group id e₁))
    subst he₂
    cases r with
    | error c => exact confirmed_error c _
    | ok g =>
      refine keeps_andThen (Prog.along_mono (fun r e₃ he₃ => ?_) (keeps_readTarget hs))
      cases r with
      | error c => exact confirmed_error c _
      | ok t =>
        obtain rfl := he₃ t rfl
        simp only [Prog.pure_eq, Prog.bind_eq]
        split_ifs with hrange hlim
        · exact confirmed_error _ _
        · exact confirmed_error _ _
        · refine ⟨trivial, fun a ha => keeps_retry 2 ⟨⟨ha, rfl, ?_⟩, fun r hr => ?_⟩⟩
          · have hlo := delta.le_toInt
            have hhi := delta.toInt_lt
            have hsum : wrap64 (t.targetNodes + delta.toInt) = t.targetNodes + delta.toInt := by
              unfold maxInt32 at hrange
              exact wrap64_eq (by unfold maxInt64; omega) (by unfold maxInt64; omega)
            simp [Exchanged.next, hsum]
          · simp [Exchanged.next, hs] at hr

theorem keeps_start (k : Callback) (s : Server) (id : String) (delta : Int32) :
    Keeps ids i id delta (fun _ _ => True) (Client.start k s id delta).prog {} := by
  have hk : Keeps ids i id delta Confirmed (k.program s id delta) {} := by
    cases k with
    | increaseSize =>
      unfold Callback.program nodeGroupIncreaseSize
      split_ifs
      · exact confirmed_error _ _
      · exact keeps_changeTarget s rfl
    | decreaseTargetSize =>
      unfold Callback.program nodeGroupDecreaseTargetSize
      split_ifs
      · exact confirmed_error _ _
      · exact keeps_changeTarget s rfl
  exact Prog.along_bind (Prog.along_mono (fun out e he => ⟨he, fun _ _ => trivial⟩) hk)

end Programs

/-! ## The invariant -/

/-- group `g` has had target and revision `p`: it still has, or its revision went on -/
def Seen (d : DB) (g : String) (p : ℤ × ℤ) : Prop := ∃ q, pairOf d g = some q ∧ (p.2 < q.2 ∨ q = p)

theorem Seen.newer {d d' : DB} {g : String} {p : ℤ × ℤ} (h : Seen d g p) (hn : Newer d d') : Seen d' g p := by
  obtain ⟨q, hq, hle⟩ := h
  rcases hn g with heq | ⟨m, n, hm, hn, hlt⟩
  · exact ⟨q, heq.trans hq, hle⟩
  · rw [revisionOf_eq, hq, Option.map_some, Option.some.injEq] at hm
    rw [revisionOf_eq] at hn
    obtain ⟨q', hq', rfl⟩ := Option.map_eq_some_iff.mp hn
    refine ⟨q', hq', .inl ?_⟩
    rcases hle with hlt' | rfl <;> omega

/-- the entry is the store's answer to `req` -/
def Answers (e : Entry) (req : CapacityRequest) : Prop := e.call.asked = some (.target req)

structure ClientInv (ids : RequestIds) (i : ℕ) (w : StoreWorld) (c : Client) : Prop where
  keeps : Keeps ids i c.group c.delta (fun _ _ => True) c.prog c.exchanged
  mail : ∀ out ∈ c.mail, Seen w.db c.group (out.targetNodes, out.targetRevision)
  read : ∀ p, c.exchanged.read = some p → Seen w.db c.group p
  sent : ∀ req, c.exchanged.sent = some req → Proper ids i c.group c.delta c.exchanged.read req
  applied : ∀ req, c.exchanged.sent = some req → ∀ e ∈ w.log, Answers e req → Entry.TakesEffect e →
    pairOf e.before c.group = c.exchanged.read ∧
      pairOf e.after c.group = some (req.desiredTarget, req.expectedTargetRevision + 1)
  confirmed : c.exchanged.confirmed = true → ∃ req, c.exchanged.sent = some req ∧
    ∃ e ∈ w.log, Answers e req ∧ ∃ out, e.out = .ok (.target out)
  answer : c.exchanged.answer = some (.ok ()) → c.exchanged.confirmed = true

/-- requests under a client's ID are that client's -/
def Ours (ids : RequestIds) (clients : ℕ → Option Client) (call : Call) : Prop :=
  ∀ req i, call.asked = some (.target req) → req.requestId = ids.uuid i →
    ∃ c, clients i = some c ∧ c.exchanged.sent = some req

structure NetInv (ids : RequestIds) (x : Externals) (cat : Catalog) (n : Net) : Prop where
  store : ∃ acts, n.store = concurrently x cat acts
  opened : ∀ j t, n.store.txns j = some t → Ours ids n.clients t.call
  logged : ∀ e ∈ n.store.world.log, Ours ids n.clients e.call
  clients : ∀ i c, n.clients i = some c → ClientInv ids i n.store.world c

section Invariant
variable {ids : RequestIds} {x : Externals} {cat : Catalog} {n : Net} {i : ℕ} {c : Client} {w w' : StoreWorld}

/-- the store moves on: one more call may have ended, in the state the others see -/
theorem ClientInv.store (h : ClientInv ids i w c) (hnew : Newer w.db w'.db)
    (hlog : w'.log = w.log ∨ ∃ call out, w'.log = w.log ++ [⟨call, out, w.db, w'.db⟩])
    (hacc : ∀ e ∈ w'.log, ∀ req, Answers e req → Entry.TakesEffect e → ∃ k,
      pairOf e.before req.nodeGroupId = some (k, req.expectedTargetRevision) ∧
        pairOf e.after req.nodeGroupId = some (req.desiredTarget, req.expectedTargetRevision + 1)) :
    ClientInv ids i w' c := by
  have hsub : ∀ e ∈ w.log, e ∈ w'.log := by
    rcases hlog with h | ⟨_, _, h⟩
    · rw [h]
      exact fun _ => id
    · rw [h]
      exact fun e he => List.mem_append_left _ he
  refine { h with
    mail := fun out ho => (h.mail out ho).newer hnew
    read := fun p hp => (h.read p hp).newer hnew
    applied := fun req hs e he ha heff => ?_
    confirmed := fun hc => ?_ }
  · have hold : e ∈ w.log → _ := fun he => h.applied req hs e he ha heff
    rcases hlog with heq | ⟨call, out, heq⟩
    · exact hold (heq ▸ he)
    · rw [heq] at he
      rcases List.mem_append.mp he with he | he
      · exact hold he
      · -- the call that just ended: it found the revision that was read, hence also the target
        have hp := h.sent req hs
        obtain ⟨q, hq, hle⟩ := h.read _ hp.pair
        obtain ⟨k, hb, haft⟩ := hacc e (heq ▸ List.mem_append_right _ he) req ha heff
        obtain rfl := List.mem_singleton.mp he
        rw [hp.group] at hb haft
        obtain rfl := Option.some.inj (hq.symm.trans hb)
        have heq' : (k, req.expectedTargetRevision) = (req.desiredTarget - c.delta.toInt, req.expectedTargetRevision) :=
          hle.resolve_left (lt_irrefl _)
        exact ⟨hb.trans ((congrArg some heq').trans hp.pair.symm), haft⟩
  · obtain ⟨req, hs, e, he, h'⟩ := h.confirmed hc
    exact ⟨req, hs, e, hsub e he, h'⟩

theorem NetInv.storeStep (hi : NetInv ids x cat n) (a : StoreAct)
    (hours : ∀ j call, a = .begin j call → Ours ids n.clients call) :
    NetInv ids x cat { n with store := Interleave.step (code x) DB.tick n.store a } := by
  obtain ⟨acts, hacts⟩ := hi.store
  have hstore : Interleave.step (code x) DB.tick n.store a = concurrently x cat (acts ++ [a]) := by
    rw [hacts]
    simp [concurrently, Interleave.run]
  have hnew : Newer n.store.world.db (Interleave.step (code x) DB.tick n.store a).world.db := by
    rw [hstore, hacts]
    exact (run_rely (history_implements cat x) acts [a] cat.db (recorded_init cat)).2
  have hlog := Interleave.step_log (code x) DB.tick n.store a
  have hinv := run_inv (history_implements cat x) (acts ++ [a]) cat.db (recorded_init cat)
  refine ⟨⟨_, hstore⟩, fun j t ht => ?_, fun e he => ?_, fun i c hc => ?_⟩
  · rcases Interleave.step_txns (code x) DB.tick n.store a ht with ⟨t₀, ht₀, hcall⟩ | rfl
    · exact hcall ▸ hi.opened j t₀ ht₀
    · exact hours j t.call rfl
  · rcases hlog with heq | ⟨j, t, out, ht, heq⟩
    · exact hi.logged e (heq ▸ he)
    · rcases List.mem_append.mp (heq ▸ he) with he | he
      · exact hi.logged e he
      · obtain rfl := List.mem_singleton.mp he
        exact hi.opened j t ht
  · refine (hi.clients i c hc).store hnew ?_ fun e he req ha heff => ?_
    · rcases hlog with heq | ⟨j, t, out, -, heq⟩
      · exact .inl heq
      · exact .inr ⟨t.call, out, heq⟩
    · rw [hstore] at he
      exact (hinv.accepted e he (.target req) ha heff).moved

theorem NetInv.setClient (hi : NetInv ids x cat n) (hc : ClientInv ids i n.store.world c)
    (hold : ∀ c₀, n.clients i = some c₀ → ∀ req, c₀.exchanged.sent = some req → c.exchanged.sent = some req) :
    NetInv ids x cat (n.setClient i c) := by
  have hours : ∀ call, Ours ids n.clients call → Ours ids (n.setClient i c).clients call := by
    intro call h req j ha hid
    obtain ⟨c₀, hc₀, hs⟩ := h req j ha hid
    by_cases hj : j = i
    · subst hj
      exact ⟨c, by simp [Net.setClient], hold c₀ hc₀ req hs⟩
    · exact ⟨c₀, by simpa [Net.setClient, hj] using hc₀, hs⟩
  refine ⟨hi.store, fun j t ht => hours _ (hi.opened j t ht), fun e he => hours _ (hi.logged e he), fun j c' hc' => ?_⟩
  simp only [Net.setClient] at hc'
  split_ifs at hc' with hj
  · obtain rfl := Option.some.inj hc'
    exact hj ▸ hc
  · exact hi.clients j c' hc'

/-- a client that has sent nothing has no entries -/
theorem NetInv.unsent (hi : NetInv ids x cat n) (hc : n.clients i = some c) {req : CapacityRequest}
    (hreq : req.requestId = ids.uuid i) {e : Entry} (he : e ∈ n.store.world.log) (ha : Answers e req) : c.exchanged.sent = some req := by
  obtain ⟨c', hc', hs'⟩ := hi.logged e he req i ha hreq
  obtain rfl := Option.some.inj (hc.symm.trans hc')
  exact hs'

/-- an attempt is on its way -/
theorem ClientInv.send (hi : NetInv ids x cat n) (hc : n.clients i = some c) {req : CapacityRequest}
    (hw : c.onWire = some req) :
    ClientInv ids i n.store.world { c with exchanged := { c.exchanged with sent := some req } } ∧
      Proper ids i c.group c.delta c.exchanged.read req ∧ ∀ r, c.exchanged.sent = some r → r = req := by
  have h := hi.clients i c hc
  by_cases hs : c.exchanged.sent = some req
  · have heq : { c with exchanged := { c.exchanged with sent := some req } } = c := by rw [← hs]
    rw [heq]
    exact ⟨h, h.sent req hs, fun r hr => Option.some.inj (hr.symm.trans hs)⟩
  · have hprog : ∃ k, c.prog = .ask (.setTarget req) k := by
      unfold Client.onWire at hw
      split at hw
      · rename_i req' k hp
        exact ⟨k, Option.some.inj hw ▸ hp⟩
      · exact absurd hw hs
    obtain ⟨k, hk⟩ := hprog
    have hkeeps := h.keeps
    rw [hk] at hkeeps
    obtain ⟨⟨hproper, hsent⟩, hnext⟩ := hkeeps
    refine ⟨{ h with keeps := ?_, sent := ?_, applied := ?_, confirmed := ?_ }, hproper, hsent⟩
    · show Keeps ids i c.group c.delta _ c.prog _
      rw [hk]
      refine ⟨⟨hproper, by simp⟩, fun r hr => ?_⟩
      have heq : Exchanged.next (.setTarget req) r { c.exchanged with sent := some req } =
          Exchanged.next (.setTarget req) r c.exchanged := by cases r <;> rfl
      rw [heq]
      exact hnext r hr
    · intro r hr
      obtain rfl := Option.some.inj hr
      exact hproper
    · intro r hr e he ha _
      obtain rfl := Option.some.inj hr
      exact absurd (hi.unsent hc hproper.requestId he ha) hs
    · intro hconf
      obtain ⟨r, hr, e, he, h'⟩ := h.confirmed hconf
      obtain rfl := hsent r hr
      exact ⟨r, rfl, e, he, h'⟩

theorem ClientInv.serve (h : ClientInv ids i w c) :
    ClientInv ids i w { c with mail := c.mail ++ (targetOf w.db c.group).toList } := by
  refine { h with mail := fun out ho => ?_ }
  rcases List.mem_append.mp ho with ho | ho
  · exact h.mail out ho
  · simp only [targetOf, Option.mem_toList, Option.map_eq_some_iff] at ho
    obtain ⟨g, hg, rfl⟩ := ho
    exact ⟨g.target, by simp [pairOf, hg], .inr rfl⟩

/-- an exchange that leaves nothing to remember -/
theorem ClientInv.advance (h : ClientInv ids i w c) {p : Adapter Unit}
    (hk : Keeps ids i c.group c.delta (fun _ _ => True) p c.exchanged) : ClientInv ids i w { c with prog := p } :=
  { h with keeps := hk }

theorem ClientInv.target (h : ClientInv ids i w c) {p : Adapter Unit} {out : CapacityResult}
    (hs : c.exchanged.sent = none) (ho : out ∈ c.mail)
    (hk : Keeps ids i c.group c.delta (fun _ _ => True) p
      { c.exchanged with read := some (out.targetNodes, out.targetRevision) }) :
    ClientInv ids i w { c with prog := p, exchanged := { c.exchanged with
      read := some (out.targetNodes, out.targetRevision) } } := by
  refine { h with keeps := hk, read := fun q hq => ?_, sent := fun req hr => ?_, applied := fun req hr => ?_ }
  · obtain rfl := Option.some.inj hq
    exact h.mail out ho
  · simp [hs] at hr
  · simp [hs] at hr

/-- an answer to an attempt -/
theorem ClientInv.answered (hi : NetInv ids x cat n) (hc : n.clients i = some c) {req : CapacityRequest}
    {k : Response CapacityResult → Adapter Unit} (hp : c.prog = .ask (.setTarget req) k) {r : Response CapacityResult}
    (hr : allowed ids n.store.world.log i c (.setTarget req) r = true) :
    ClientInv ids i n.store.world { c with prog := k r, exchanged := c.exchanged.next (.setTarget req) r } := by
  have hkeeps := (hi.clients i c hc).keeps
  rw [hp] at hkeeps
  have hk := hkeeps.2 r trivial
  obtain ⟨h, -, hsent⟩ := ClientInv.send hi hc (show c.onWire = some req by simp [Client.onWire, hp])
  cases r with
  | decoded out =>
    refine { h with keeps := hk, confirmed := fun hconf => ?_, answer := fun ha => ?_ }
    · simp only [Exchanged.next, Bool.or_eq_true] at hconf
      rcases hconf with hconf | hver
      · exact h.confirmed hconf
      · simp only [allowed, hver, Bool.not_true, Bool.false_or, List.any_eq_true, Bool.and_eq_true,
          decide_eq_true_eq] at hr
        obtain ⟨e, he, ha, hout⟩ := hr
        exact ⟨req, rfl, e, he, ha, out, hout⟩
    · simp only [Exchanged.next, Bool.or_eq_true]
      exact .inl (h.answer ha)
  | _ => exact { h with keeps := hk }

theorem ClientInv.reply (hi : NetInv ids x cat n) (hc : n.clients i = some c) (q : Query) (a : q.Answer) :
    ClientInv ids i n.store.world (c.reply ids n i q a) ∧
      ∀ req, c.exchanged.sent = some req → (c.reply ids n i q a).exchanged.sent = some req := by
  have h := hi.clients i c hc
  unfold Client.reply
  split
  · rename_i q' k hp
    split_ifs with hq hall
    · subst hq
      have hkeeps := h.keeps
      rw [hp] at hkeeps
      cases q with
      | target g =>
        obtain ⟨⟨-, hs⟩, hnext⟩ := hkeeps
        cases a with
        | decoded out =>
          exact ⟨h.target hs (by simpa [allowed] using hall) (hnext _ trivial), fun _ hr => hr⟩
        | _ => exact ⟨h.advance (hnext _ trivial), fun _ hr => hr⟩
      | setTarget req =>
        refine ⟨ClientInv.answered hi hc hp hall, fun r hr => ?_⟩
        obtain rfl := hkeeps.1.2 r hr
        cases a <;> rfl
      | respond out =>
        refine ⟨{ h with keeps := hkeeps.2 a trivial, answer := fun ha => ?_ }, fun _ hr => hr⟩
        exact hkeeps.1 (Option.some.inj ha)
      | uuid => exact ⟨h.advance (hkeeps.2 a (by simpa [allowed, valid] using hall)), fun _ hr => hr⟩
      | discover => exact ⟨h.advance (hkeeps.2 a trivial), fun _ hr => hr⟩
      | install gs => exact ⟨h.advance (hkeeps.2 a trivial), fun _ hr => hr⟩
      | snapshot => exact ⟨h.advance (hkeeps.2 a trivial), fun _ hr => hr⟩
      | removeNodes req => exact ⟨h.advance (hkeeps.2 a trivial), fun _ hr => hr⟩
      | verifyNode m p => exact ⟨h.advance (hkeeps.2 a trivial), fun _ hr => hr⟩
      | context => exact ⟨h.advance (hkeeps.2 a trivial), fun _ hr => hr⟩
      | backoff m => exact ⟨h.advance (hkeeps.2 a trivial), fun _ hr => hr⟩
    · exact ⟨h, fun _ hr => hr⟩
    · exact ⟨h, fun _ hr => hr⟩
  · exact ⟨h, fun _ hr => hr⟩

/-- **Every step of the network keeps the invariant.** -/
theorem NetInv.step (hi : NetInv ids x cat n) (a : NetAct) : NetInv ids x cat (n.step ids x a) := by
  cases a with
  | store a =>
    simp only [Net.step]
    split_ifs with hf
    · refine hi.storeStep a fun j call ha req i hask hid => ?_
      subst ha
      cases call <;> simp only [Call.asked, Option.some.injEq, Asked.target.injEq, reduceCtorEq] at hask
      subst hask
      simp [foreign, hid, ids.issued_uuid] at hf
    · exact hi
  | call i k s id delta =>
    simp only [Net.step]
    split
    · rename_i hnone
      refine hi.setClient ?_ (by simp [hnone])
      exact ⟨keeps_start k s id delta, by simp [Client.start], by simp [Client.start], by simp [Client.start],
        by simp [Client.start], by simp [Client.start], by simp [Client.start]⟩
    · exact hi
  | serve i =>
    simp only [Net.step]
    split
    · rename_i c hc
      refine hi.setClient (hi.clients i c hc).serve fun c₀ hc₀ req hs => ?_
      obtain rfl := Option.some.inj (hc.symm.trans hc₀)
      exact hs
    · exact hi
  | arrive i slot u =>
    simp only [Net.step]
    split
    · exact hi
    · rename_i c hc
      split
      · exact hi
      · rename_i req hw
        obtain ⟨hsend, hproper, hsent⟩ := ClientInv.send hi hc hw
        have hi' := hi.setClient hsend fun c₀ hc₀ r hr => by
          obtain rfl := Option.some.inj (hc.symm.trans hc₀)
          rw [hsent r hr]
        refine hi'.storeStep (.begin slot (.setTarget req u)) fun j call ha req' i' hask hid => ?_
        obtain ⟨-, rfl⟩ := Interleave.Act.begin.inj ha
        obtain rfl : req = req' := by simpa [Call.asked] using hask
        obtain rfl := ids.injective i i' (hproper.requestId.symm.trans hid)
        exact ⟨_, if_pos rfl, rfl⟩
  | reply i q a =>
    simp only [Net.step]
    split
    · rename_i c hc
      obtain ⟨hreply, hsent⟩ := ClientInv.reply hi hc q a
      refine hi.setClient hreply fun c₀ hc₀ req hs => ?_
      obtain rfl := Option.some.inj (hc.symm.trans hc₀)
      exact hsent req hs
    · exact hi

theorem netInv_run (ids : RequestIds) (x : Externals) (cat : Catalog) (acts : List NetAct) :
    NetInv ids x cat (Net.run ids x cat acts) := by
  suffices h : ∀ n, NetInv ids x cat n → NetInv ids x cat (acts.foldl (Net.step ids x) n) from
    h _ ⟨⟨[], rfl⟩, by simp [Interleave.start], by simp [Interleave.start], by simp⟩
  induction acts with
  | nil => exact fun _ hn => hn
  | cons a acts ih => exact fun n hn => ih _ (hn.step a)

end Invariant

/-! ## Scaling once -/

/-- the entry changed a target under request ID `id` -/
def AppliedUnder (id : String) (e : Entry) : Prop := ∃ req, Answers e req ∧ req.requestId = id ∧ Entry.TakesEffect e

structure ScalesOnce (ids : RequestIds) (n : Net) : Prop where
  /-- no callback changes a target twice -/
  once : ∀ i, n.store.world.log.Pairwise fun e e' => AppliedUnder (ids.uuid i) e → ¬AppliedUnder (ids.uuid i) e'
  /-- what it changes is the pair it has read, by its delta -/
  applied : ∀ i c, n.clients i = some c → ∀ e ∈ n.store.world.log, AppliedUnder (ids.uuid i) e →
    ∃ t r, c.exchanged.read = some (t, r) ∧ pairOf e.before c.group = some (t, r) ∧
      pairOf e.after c.group = some (t + c.delta.toInt, r + 1)
  /-- success means that it did -/
  success : ∀ i c, n.clients i = some c → c.exchanged.answer = some (.ok ()) →
    ∃ e ∈ n.store.world.log, AppliedUnder (ids.uuid i) e

/-- **A scale request changes the target exactly once end to end.** For every catalog, any number of adapters and
callbacks, and every run of the network and the store. -/
theorem scale_request_once (ids : RequestIds) (x : Externals) (cat : Catalog) (acts : List NetAct) :
    ScalesOnce ids (Net.run ids x cat acts) := by
  have hi := netInv_run ids x cat acts
  obtain ⟨sacts, hstore⟩ := hi.store
  have hlogged : Logged cat (Net.run ids x cat acts).store.world := by
    rw [hstore]
    exact run_inv (history_implements cat x) sacts cat.db (recorded_init cat)
  refine ⟨fun i => ?_, fun i c hc e he happ => ?_, fun i c hc hans => ?_⟩
  · refine hlogged.repeated.imp_of_mem fun {e e'} he he' hrep happ happ' => ?_
    obtain ⟨req, ha, hid, heff⟩ := happ
    obtain ⟨req', ha', hid', heff'⟩ := happ'
    -- both entries carry the one request of client `i`
    obtain ⟨c, hc, hs⟩ := hi.logged e he req i ha hid
    obtain ⟨c', hc', hs'⟩ := hi.logged e' he' req' i ha' hid'
    obtain rfl := Option.some.inj (hc.symm.trans hc')
    obtain rfl := Option.some.inj (hs.symm.trans hs')
    exact (hrep _ _ ha heff ha' rfl).1 heff'
  · obtain ⟨req, ha, hid, heff⟩ := happ
    obtain ⟨c', hc', hs⟩ := hi.logged e he req i ha hid
    obtain rfl := Option.some.inj (hc.symm.trans hc')
    have hpair := ((hi.clients i c hc).sent req hs).pair
    obtain ⟨hb, haft⟩ := (hi.clients i c hc).applied req hs e he ha heff
    refine ⟨req.desiredTarget - c.delta.toInt, req.expectedTargetRevision, hpair, hb.trans hpair, ?_⟩
    rw [haft, sub_add_cancel]
  · have hci := hi.clients i c hc
    obtain ⟨req, hs, e, he, ha, out, hout⟩ := hci.confirmed (hci.answer hans)
    have hid := (hci.sent req hs).requestId
    rcases hlogged.answered e he _ _ ha hout with heff | ⟨e₀, hsub, ha₀, heff⟩
    · exact ⟨e, he, req, ha, hid, heff⟩
    · exact ⟨e₀, hsub.subset List.mem_cons_self, req, ha₀, hid, heff⟩

namespace Fleet

def ids : RequestIds where
  uuid i := String.ofList (List.replicate (i + 1) 'u')
  issued _ := true
  injective i j h := by
    have := congrArg List.length (String.ofList_injective h)
    simpa using this
  issued_uuid _ := rfl

def staticGroup : StaticNodeGroup :=
  ⟨"g", "c", "t1", "r-a", "r", "p", 0, 5, "m5", "amd64", 2, 4, [], [], []⟩

/-- one attempt is executed at the store -/
def attemptAt (slot : ℕ) : List NetAct :=
  [.arrive 0 slot fun n => "s" ++ toString n] ++ List.replicate 20 (.store (.exec slot)) ++ [.store (.finish slot)]

def lostResponse : List NetAct :=
  [.call 0 .increaseSize ⟨"c", false, false⟩ "g" 2, .reply 0 .snapshot [staticGroup], .serve 0,
    .reply 0 (.target "g") (.decoded ⟨"", "g", 0, 0⟩), .reply 0 .uuid (ids.uuid 0), .reply 0 .context none] ++
  attemptAt 0 ++
  [.reply 0 (.setTarget ⟨"g", ids.uuid 0, "c", 0, 2, "t1"⟩) .transport, .reply 0 (.backoff 0) none,
    .reply 0 .context none] ++
  attemptAt 0 ++
  [.reply 0 (.setTarget ⟨"g", ids.uuid 0, "c", 0, 2, "t1"⟩) (.decoded ⟨ids.uuid 0, "g", 2, 1⟩),
    .reply 0 (.respond (.ok ())) ()]

end Fleet

-- the first answer is lost, the second attempt is a replay: the target is raised by two once, and the call succeeds
example : (((Net.run Fleet.ids Capacity.Fleet.externals Capacity.Fleet.catalog Fleet.lostResponse).clients 0).bind fun c =>
    c.exchanged.answer) = some (.ok ()) ∧
    pairOf (Net.run Fleet.ids Capacity.Fleet.externals Capacity.Fleet.catalog Fleet.lostResponse).store.world.db "g" =
      some (2, 1) := by
  decide +kernel

end Crane.Autoscaler
