/-
Secret operations are delivered exactly as recorded.

While a call holds the host's lock, nobody else changes the host's rows; once its session is gone, its statements fail.
What it learned about its own row (fingerprint and revision) and what an agent showed stays true without the lock. `Rely`
is that, and `rules` says what each request of Execute may be made for: a row is inserted above all rows of the host, an
outcome is stored only on a row without a final one, `applied` only with an agent's evidence, and the agent is contacted
only if the row that the call began with does not settle the request. Every call keeps to its rules, and every entry of
the log follows from them.
-/
import Crane.HostOperations.Controller

namespace Crane.HostOperations

open Subd (SavedState verifiedResult)

variable {H : Type}

abbrev Requests (H : Type) := Table (HostStateRequest.key (H := H))

/-! ## What stays true -/

/-- rows stay, with their fingerprint and revision; a row with the outcome applied does not change -/
def Grown (t t' : Requests H) : Prop :=
  ∀ k row, t.find k = some row → ∃ row', t'.find k = some row' ∧ row'.fingerprint = row.fingerprint ∧
    row'.revision = row.revision ∧ (row.outcome = .applied → row' = row)

theorem Grown.refl (t : Requests H) : Grown t t := fun _ row h => ⟨row, h, rfl, rfl, fun _ => rfl⟩

theorem Grown.trans {t t' t'' : Requests H} (h : Grown t t') (h' : Grown t' t'') : Grown t t'' := by
  intro k row hrow
  obtain ⟨row', hrow', hf, hr, ha⟩ := h k row hrow
  obtain ⟨row'', hrow'', hf', hr', ha'⟩ := h' k row' hrow'
  refine ⟨row'', hrow'', hf'.trans hf, hr'.trans hr, fun happlied => ?_⟩
  obtain rfl := ha happlied
  exact ha' happlied

/-- what a call sees of the system -/
structure Snap (H : Type) where
  held : Prop -- its session holds the host's lock
  rows : Requests H
  logs : String → List (Subd.Event H)
  seen : String → String → Prop -- provider IDs that were read for a host

structure Later (s t : Snap H) : Prop where
  rows : Grown s.rows t.rows
  logs : ∀ p, s.logs p <:+ t.logs p
  seen : ∀ h i, s.seen h i → t.seen h i

theorem Later.refl (s : Snap H) : Later s s := ⟨.refl _, fun _ => List.suffix_refl _, fun _ _ => id⟩

theorem Later.trans {s t u : Snap H} (h : Later s t) (h' : Later t u) : Later s u :=
  ⟨h.rows.trans h'.rows, fun p => (h.logs p).trans (h'.logs p), fun a i hi => h'.seen a i (h.seen a i hi)⟩

/-- what others may do meanwhile: with the lock, the rows of the host are the call's own -/
structure Rely (host : String) (s t : Snap H) : Prop extends Later s t where
  held : t.held → s.held ∧ ∀ i, t.rows.find (host, i) = s.rows.find (host, i)

theorem Rely.refl (host : String) (s : Snap H) : Rely host s s := ⟨.refl s, fun h => ⟨h, fun _ => rfl⟩⟩

theorem Rely.trans {host : String} {s t u : Snap H} (h : Rely host s t) (h' : Rely host t u) : Rely host s u := by
  refine ⟨h.toLater.trans h'.toLater, fun hu => ?_⟩
  obtain ⟨ht, hsame⟩ := h'.held hu
  obtain ⟨hs, hsame'⟩ := h.held ht
  exact ⟨hs, fun i => (hsame i).trans (hsame' i)⟩

/-! ## What a call may do -/

section Rules
variable (w : World H) (host : String) (r : SecretRequest) (before : Option (HostStateRequest H))

/-- the request has this revision, for this Secret -/
def Assigned (rows : Requests H) (secret : KubernetesSecret) (revision : ℕ) : Prop :=
  ∃ row, rows.find (host, r.requestId) = some row ∧ row.fingerprint = w.fingerprint secret ∧ row.revision = revision

/-- the identity of an instance that was read for the host -/
def Names (s : Snap H) (host p : String) : Prop := ∃ td i, s.seen host i ∧ p = subdIdentity td i

/-- the host's agent showed exactly this Secret as applied at this revision, verified and rolled out -/
def Proven (s : Snap H) (host : String) (secret : KubernetesSecret) (revision : ℕ) : Prop :=
  ∃ p st, Names s host p ∧ .reported st ∈ s.logs p ∧ st.request = secretState revision secret ∧ st.outcome = .applied ∧
    st.appliedRevision = revision ∧ st.kubernetes = some (verifiedResult secret)

/-- the row a call began with does not settle its request -/
def Open (secret : KubernetesSecret) : Prop :=
  ∀ row, before = some row → row.fingerprint = w.fingerprint secret ∧ row.outcome ≠ .applied

/-- what a call may return -/
structure Returnable (s : Snap H) (result : SecretResult) (err : Option Failure) : Prop where
  applied : result.outcome = .applied →
    ∃ secret, r.normalize = some secret ∧ Assigned w host r s.rows secret result.revision ∧
      Proven s host secret result.revision
  reused : ∀ row secret, before = some row → r.normalize = some secret → row.fingerprint ≠ w.fingerprint secret →
    err ≠ none
  replayed : ∀ row secret, before = some row → r.normalize = some secret → row.fingerprint = w.fingerprint secret →
    row.outcome = .applied → err = none → row.result = some result

/-- a stored outcome applied is proven, and its result is stored with it -/
def Justified (s : Snap H) (row : HostStateRequest H) : Prop :=
  row.outcome = .applied → ∃ saved secret, row.result = some saved ∧ saved.revision = row.revision ∧
    row.fingerprint = w.fingerprint secret ∧ Proven s row.hostId secret row.revision

def guard (s : Snap H) : Query H → Prop
  | .lock h | .unlock h => h = host
  | .insert row => row.hostId = host ∧ row.outcome = .pending ∧
      (s.held → ∀ i row', s.rows.find (host, i) = some row' → row'.revision < row.revision)
  | .health _ => ∃ secret, r.normalize = some secret ∧ Open w before secret
  | .send _ e => ∃ secret revision, r.normalize = some secret ∧ Open w before secret ∧ e = secretState revision secret ∧
      Assigned w host r s.rows secret revision
  | .record result _ => result.hostId = host ∧ result.requestId = r.requestId ∧
      (s.held → ∃ row, s.rows.find (host, r.requestId) = some row ∧ row.outcome ≠ .applied) ∧
      ∃ secret, r.normalize = some secret ∧ Assigned w host r s.rows secret result.revision ∧
        (result.outcome = .applied → Proven s host secret result.revision)
  | .finish result err => Returnable w host r before s result err
  | _ => True

/-- how a request is answered, apart from what any answer leaves alone -/
def answered (s : Snap H) : (q : Query H) → q.Answer → Snap H → Prop
  | .lock _, _, _ | .record _ _, _, _ | .unlock _, _, _ => True
  | .location h, a, u => Rely host s u ∧ ∀ l, a = some (some l) → u.seen h l.providerId
  | .insert row, ok, u => ok = true → u.rows.find row.key = some row
  | .request h i, a, u => Rely host s u ∧ ∀ o, a = some o → s.held ∧ o = s.rows.find (h, i) ∧
      ∀ row, o = some row → Justified w s row
  | .maximum h, a, u => Rely host s u ∧ ∀ m, a = some m → s.held ∧
      ∀ i row, s.rows.find (h, i) = some row → row.revision ≤ m
  | .response p e, a, u => Rely host s u ∧ ∀ body, a = some (200, body) → ∃ st, body = some (st.status (w.agent p)) ∧
      .reported st ∈ s.logs p ∧ st.request = e ∧ st.outcome = .applied ∧ st.kubernetes = e.secret.map verifiedResult
  | _, _, u => Rely host s u

def rules : Rules (Query H) Query.Answer (Snap H) where
  rely := Rely host
  refl := Rely.refl host
  trans := Rely.trans
  guard q s := guard w host r before s q
  answer q s a u := Later s u ∧ answered w host s q a u

end Rules

/-! ## Every call keeps to its rules -/

section Stable
variable {w : World H} {host : String} {r : SecretRequest} {before : Option (HostStateRequest H)} {s t : Snap H}
  {secret : KubernetesSecret} {revision : ℕ}

theorem Assigned.later (h : Assigned w host r s.rows secret revision) (hl : Later s t) :
    Assigned w host r t.rows secret revision := by
  obtain ⟨row, hrow, hf, hr⟩ := h
  obtain ⟨row', hrow', hf', hr', -⟩ := hl.rows _ row hrow
  exact ⟨row', hrow', hf'.trans hf, hr'.trans hr⟩

theorem Names.later {p : String} (h : Names s host p) (hl : Later s t) : Names t host p := by
  obtain ⟨td, i, hi, hp⟩ := h
  exact ⟨td, i, hl.seen host i hi, hp⟩

theorem Proven.later (h : Proven s host secret revision) (hl : Later s t) : Proven t host secret revision := by
  obtain ⟨p, st, hp, hst, h⟩ := h
  exact ⟨p, st, hp.later hl, (hl.logs p).subset hst, h⟩

theorem Justified.later {row : HostStateRequest H} (h : Justified w s row) (hl : Later s t) : Justified w t row := by
  intro happlied
  obtain ⟨saved, secret, hs, hr, hf, hp⟩ := h happlied
  exact ⟨saved, secret, hs, hr, hf, hp.later hl⟩

theorem Returnable.later {result : SecretResult} {err : Option Failure} (h : Returnable w host r before s result err)
    (hl : Later s t) : Returnable w host r before t result err := by
  refine ⟨fun happlied => ?_, h.reused, h.replayed⟩
  obtain ⟨secret, hn, ha, hp⟩ := h.applied happlied
  exact ⟨secret, hn, ha.later hl, hp.later hl⟩

/-- an error without a claim of success may always be returned -/
theorem returnable_failure {result : SecretResult} (hr : result.outcome ≠ .applied) (f : Failure) :
    Returnable w host r before s result (some f) :=
  ⟨fun h => absurd h hr, fun _ _ _ _ _ => nofun, fun _ _ _ _ _ _ => nofun⟩

/-- the row a call began with is still there -/
def Remembered (host : String) (r : SecretRequest) (before : Option (HostStateRequest H)) (rows : Requests H) : Prop :=
  ∀ row, before = some row → ∃ row', rows.find (host, r.requestId) = some row' ∧
    row'.fingerprint = row.fingerprint ∧ (row.outcome = .applied → row' = row)

theorem Remembered.later (h : Remembered host r before s.rows) (hl : Later s t) : Remembered host r before t.rows := by
  intro row hrow
  obtain ⟨row', hrow', hf, ha⟩ := h row hrow
  obtain ⟨row'', hrow'', hf', -, ha'⟩ := hl.rows _ row' hrow'
  refine ⟨row'', hrow'', hf'.trans hf, fun happlied => ?_⟩
  obtain rfl := ha happlied
  exact ha' happlied

/-- the call's row has no final outcome as long as the lock is held, and keeps its revision in any case -/
structure Pending (w : World H) (host : String) (r : SecretRequest) (secret : KubernetesSecret) (revision : ℕ)
    (s : Snap H) : Prop where
  unsettled : s.held → ∃ row, s.rows.find (host, r.requestId) = some row ∧ row.outcome ≠ .applied
  assigned : Assigned w host r s.rows secret revision

theorem Pending.rely (h : Pending w host r secret revision s) (hr : Rely host s t) :
    Pending w host r secret revision t := by
  refine ⟨fun ht => ?_, h.assigned.later hr.toLater⟩
  obtain ⟨hs, hsame⟩ := hr.held ht
  obtain ⟨row, hrow, ho⟩ := h.unsettled hs
  exact ⟨row, (hsame _).trans hrow, ho⟩

/-- what a call ends with -/
abbrev Ends (w : World H) (host : String) (r : SecretRequest) (before : Option (HostStateRequest H)) (e : Ended)
    (s : Snap H) : Prop :=
  Returnable w host r before s e.1 e.2

end Stable

section Calls
variable {w : World H} {host : String} {r : SecretRequest} {before : Option (HostStateRequest H)} {s : Snap H}
  {secret : KubernetesSecret} {peer : String}

/-- a call whose request is open returns what it has evidence for -/
theorem returnable_open (hn : r.normalize = some secret) (ho : Open w before secret) {result : SecretResult}
    {err : Option Failure} (ha : result.outcome = .applied → Assigned w host r s.rows secret result.revision ∧
      Proven s host secret result.revision) : Returnable w host r before s result err := by
  refine ⟨fun happlied => ⟨secret, hn, ha happlied⟩, fun row secret' hb hn' hne => ?_, fun row secret' hb hn' _ happ => ?_⟩
  · obtain rfl := Option.some.inj (hn.symm.trans hn')
    exact absurd (ho row hb).1 hne
  · obtain rfl := Option.some.inj (hn.symm.trans hn')
    exact absurd happ (ho row hb).2

theorem conclude_safe (hn : r.normalize = some secret) (ho : Open w before secret) {result : SecretResult}
    (hh : result.hostId = host) (hi : result.requestId = r.requestId) (hp : Pending w host r secret result.revision s)
    (hproven : result.outcome = .applied → Proven s host secret result.revision) :
    SafeTo (rules w host r before) (Ends w host r before) (conclude secret result) s := by
  intro t ht
  have hpt := hp.rely ht
  refine ⟨⟨hh, hi, hpt.unsettled, secret, hn, hpt.assigned, fun h => (hproven h).later ht.toLater⟩, fun a u hu => ?_⟩
  have hend (err : Option Failure) (v : Snap H) (hv : Later u v) : Returnable w host r before v result err :=
    returnable_open hn ho fun h => ⟨(hpt.assigned.later hu.1).later hv, ((hproven h).later (ht.toLater.trans hu.1)).later hv⟩
  cases a with
  | error e => exact hend _ u (.refl u)
  | ok _ =>
    show SafeTo _ _ (if result.outcome = .applied then _ else _) u
    split_ifs
    · exact hend _ u (.refl u)
    · intro v hv
      refine ⟨trivial, fun expired x hx => ?_⟩
      cases expired with
      | true => exact hend _ x (hv.toLater.trans hx.1)
      | false => exact hend _ x (hv.toLater.trans hx.1)

/-- the outcome applied comes from an answer 200 that shows it -/
theorem judge_applied {result : SecretResult} {status : Subd.HostAgentStatus}
    {a : Option (ℕ × Option Subd.HostAgentStatus)} (h : (judge peer secret result status a).outcome = .applied) :
    ∃ body, a = some (200, body) ∧
      confirmed secret result.revision 200 (body.elim status (decoded status)) = true := by
  cases a with
  | none => simp [judge] at h
  | some a =>
    obtain ⟨code, body⟩ := a
    simp only [judge] at h
    split_ifs at h with hid hc hf
    · have hcode : code = 200 := by
        simp only [confirmed, Bool.and_eq_true, decide_eq_true_eq] at hc
        exact hc.1.1.1
      subst hcode
      exact ⟨body, rfl, hc⟩

theorem failure_safe {result : SecretResult} (hr : result.outcome ≠ .applied) (f : Failure) :
    SafeTo (rules w host r before) (Ends w host r before) (.ret (result, some f)) s := returnable_failure hr f

theorem unknown_outcome (r : SecretRequest) (host : String) : (r.unknown host).outcome ≠ .applied := by
  simp [SecretRequest.unknown]

theorem deliver_safe (hn : r.normalize = some secret) (ho : Open w before secret) (hname : Names s host peer)
    (result : SecretResult) (hh : result.hostId = host) (hi : result.requestId = r.requestId) (hp : Pending w host r secret result.revision s)
    (status : Subd.HostAgentStatus) :
    SafeTo (rules w host r before) (Ends w host r before) (deliver peer secret result status) s := by
  intro t ht
  have hpt := hp.rely ht
  refine ⟨⟨secret, _, hn, ho, rfl, hpt.assigned⟩, fun _ u hu v hv => ⟨trivial, fun a x hx => ?_⟩⟩
  have hrely : Rely host t x := hu.2.trans (hv.trans hx.2.1)
  have hpx := hpt.rely hrely
  have hrev : (judge peer secret result status a).revision = result.revision ∧
      (judge peer secret result status a).hostId = host ∧
      (judge peer secret result status a).requestId = r.requestId := by
    unfold judge
    split
    · exact ⟨rfl, hh, hi⟩
    · dsimp only
      split_ifs <;> exact ⟨rfl, hh, hi⟩
  have hproven : (judge peer secret result status a).outcome = .applied → Proven x host secret result.revision := by
    intro happlied
    obtain ⟨body, rfl, hc⟩ := judge_applied happlied
    obtain ⟨st, rfl, hst, hreq, hout, hk⟩ := hx.2.2 body rfl
    -- the status in the answer is the one the agent showed
    simp only [confirmed, Option.elim_some, decoded, Subd.SavedState.status, Bool.and_eq_true, decide_eq_true_eq] at hc
    have hname' : Names x host peer := hname.later (ht.toLater.trans hrely.toLater)
    exact ⟨peer, st, hname', (hx.1.logs peer).subset hst, hreq, hout, hc.1.2, hk⟩
  show SafeTo _ _ (if (a.any fun a => a.1 = 409) = true then _ else _) x
  split_ifs
  · exact returnable_open hn ho fun h => ⟨hrev.1 ▸ hpx.assigned, hrev.1 ▸ hproven h⟩
  · exact conclude_safe hn ho hrev.2.1 hrev.2.2 (hrev.1 ▸ hpx) fun h => hrev.1 ▸ hproven h

theorem allocate_safe (hn : r.normalize = some secret) (ho : Open w before secret) (hname : Names s host peer) {result : SecretResult}
    (hh : result.hostId = host) (hi : result.requestId = r.requestId) (hr : result.outcome ≠ .applied)
    (status : Subd.HostAgentStatus) :
    SafeTo (rules w host r before) (Ends w host r before) (allocate w peer secret result status) s := by
  intro t ht
  refine ⟨trivial, fun a u hu => ?_⟩
  cases a with
  | none => exact failure_safe hr _
  | some m =>
    obtain ⟨hheld, hmax⟩ := hu.2.2 m rfl
    show SafeTo _ _ (if 9223372036854775807 ≤ max m status.acceptedRevision then _ else _) u
    split_ifs
    · exact failure_safe hr _
    · intro v hv
      refine ⟨⟨hh, rfl, fun hheld' i row hrow => ?_⟩, fun ok x hx => ?_⟩
      · -- with the lock the rows are those the maximum was taken over
        obtain ⟨hheldu, hsame⟩ := hv.held hheld'
        obtain ⟨-, hsame'⟩ := hu.2.1.held hheldu
        have hle := hmax i row (by rw [hh, ← hsame', ← hsame, hrow])
        exact Nat.lt_succ_of_le (hle.trans (le_max_left _ _))
      · show SafeTo _ _ (if ok = true then _ else _) x
        split_ifs with hok
        · have hrow := hx.2 hok
          have hkey : (result.hostId, result.requestId) = (host, r.requestId) := by rw [hh, hi]
          simp only [HostStateRequest.key, hkey] at hrow
          have hname' : Names x host peer := hname.later ((ht.toLater.trans hu.1).trans (hv.toLater.trans hx.1))
          exact deliver_safe hn ho hname' { result with revision := max m status.acceptedRevision + 1 } hh hi
            ⟨fun _ => ⟨_, hrow, by simp⟩, _, hrow, rfl, rfl⟩ status
        · exact failure_safe (by exact hr) _

theorem contact_safe (hn : r.normalize = some secret) (ho : Open w before secret) (hname : Names s host peer)
    (result : SecretResult) (hh : result.hostId = host) (hi : result.requestId = r.requestId) (hr : result.outcome ≠ .applied) {stored : Bool}
    (hp : stored = true → Pending w host r secret result.revision s) :
    SafeTo (rules w host r before) (Ends w host r before) (contact w peer secret stored result) s := by
  intro t ht
  refine ⟨⟨secret, hn, ho⟩, fun a u hu => ?_⟩
  cases a with
  | none => exact failure_safe hr _
  | some status =>
    show SafeTo _ _ (if status.identity ≠ peer ∨ status.ready = false then _ else if stored then
      (if result.revision < status.acceptedRevision then _ else _) else _) u
    split_ifs with hid hs hrev
    · exact failure_safe hr _
    · exact failure_safe hr _
    · exact deliver_safe hn ho (hname.later (ht.toLater.trans hu.1)) result hh hi (((hp hs).rely ht).rely hu.2) status
    · exact allocate_safe hn ho (hname.later (ht.toLater.trans hu.1)) hh hi hr status

variable [DecidableEq H]

theorem resume_safe (hn : r.normalize = some secret) (hb : Remembered host r before s.rows)
    (hname : Names s host peer) {result : SecretResult}
    (hh : result.hostId = host) (hi : result.requestId = r.requestId) (hr : result.outcome ≠ .applied) :
    SafeTo (rules w host r before) (Ends w host r before) (resume w peer secret result) s := by
  intro t ht
  have hbt := hb.later ht.toLater
  refine ⟨trivial, fun a u hu => ?_⟩
  have hnameu : Names u host peer := hname.later (ht.toLater.trans hu.1)
  cases a with
  | none => exact failure_safe hr _
  | some o =>
    obtain ⟨hheld, hfind, hjust⟩ := hu.2.2 o rfl
    rw [hh, hi] at hfind
    cases o with
    | none =>
      refine contact_safe hn (fun row hrow => ?_) hnameu _ hh hi hr nofun
      obtain ⟨row', hrow', -⟩ := hbt row hrow
      simp [hrow'] at hfind
    | some row =>
      -- the row now, and the one the call began with
      have hold (row₀ : HostStateRequest H) (h₀ : before = some row₀) :
          row.fingerprint = row₀.fingerprint ∧ (row₀.outcome = .applied → row = row₀) := by
        obtain ⟨row', hrow', hf, ha⟩ := hbt row₀ h₀
        obtain rfl := Option.some.inj (hfind.trans hrow')
        exact ⟨hf, ha⟩
      simp only [Prog.ret_bind]
      split_ifs with hf ha
      · exact failure_safe (by exact hr) _
      · cases hres : row.result with
        | none => exact failure_safe (by exact hr) _
        | some saved =>
          obtain ⟨saved', secret', hs', hrev, hfp, hproven⟩ := hjust row rfl ha
          obtain rfl := Option.some.inj (hres.symm.trans hs')
          have hf' : row.fingerprint = w.fingerprint secret := not_not.mp hf
          obtain rfl := w.fingerprint_injective (hfp.symm.trans hf')
          refine ⟨fun _ => ⟨secret', hn, ?_, ?_⟩, fun row₀ secret h₀ hn' hne => ?_, fun row₀ secret h₀ hn' _ ha₀ _ => ?_⟩
          · exact Assigned.later ⟨row, hfind.symm, hf', hrev.symm⟩ hu.1
          · have hrow : row.hostId = host := congrArg Prod.fst (Table.key_of_find hfind.symm)
            exact hrow ▸ (hrev ▸ hproven).later hu.1
          · obtain rfl := Option.some.inj (hn.symm.trans hn')
            exact absurd ((hold row₀ h₀).1 ▸ hf') hne
          · rw [← (hold row₀ h₀).2 ha₀, hres]
      · have hf' : row.fingerprint = w.fingerprint secret := not_not.mp hf
        refine contact_safe hn (fun row₀ h₀ => ⟨(hold row₀ h₀).1 ▸ hf', fun ha₀ => ?_⟩) hnameu
          { result with revision := row.revision } hh hi hr fun _ => ?_
        · exact ha ((hold row₀ h₀).2 ha₀ ▸ ha₀)
        · exact Pending.rely ⟨fun _ => ⟨row, hfind.symm, ha⟩, row, hfind.symm, hf', rfl⟩ hu.2.1

omit [DecidableEq H] in
theorem loadTarget_safe (h : String) (hb : Remembered host r before s.rows) :
    SafeTo (rules w host r before)
      (fun a t => Remembered host r before t.rows ∧ ∀ target, a = .ok target → t.seen h target.providerId)
      (loadTarget h) s := by
  intro t ht
  refine ⟨trivial, fun a u hu => ?_⟩
  have hbu := (hb.later ht.toLater).later hu.1
  rcases a with _ | _ | l
  · exact ⟨hbu, by simp⟩
  · exact ⟨hbu, by simp⟩
  · simp only [Prog.ret_bind]
    cases l.check with
    | some f => exact ⟨hbu, by simp⟩
    | none =>
      intro v hv
      refine ⟨trivial, fun a x hx => ?_⟩
      have hbx := (hbu.later hv.toLater).later hx.1
      rcases a with _ | _ | z
      · exact ⟨hbx, by simp⟩
      · exact ⟨hbx, by simp⟩
      · refine ⟨hbx, fun target htarget => ?_⟩
        obtain rfl := Except.ok.inj htarget
        exact (hv.toLater.trans hx.1).seen _ _ (hu.2.2 l rfl)

theorem owned_safe (c : Controller) (hn : r.normalize = some secret) (hb : Remembered host r before s.rows)
    {result : SecretResult} (hh : result.hostId = host) (hi : result.requestId = r.requestId)
    (hr : result.outcome ≠ .applied) :
    SafeTo (rules w host r before) (Ends w host r before) (owned w c secret result) s := by
  refine safeTo_bind (SafeTo.mono (fun a t ht => ?_) (loadTarget_safe result.hostId hb))
  obtain ⟨hbt, hseen⟩ := ht
  cases a with
  | error f => exact failure_safe hr _
  | ok target =>
    dsimp only
    split_ifs
    · exact failure_safe (by exact hr) _
    · cases hp : w.peer c target.providerId with
      | none => exact failure_safe (by exact hr) _
      | some peer =>
        have hname : Names t host peer := by
          unfold World.peer at hp
          split_ifs at hp
          exact ⟨c.trustDomain, target.providerId, hh ▸ hseen target rfl, (Option.some.inj hp).symm⟩
        exact resume_safe hn hbt hname hh hi hr

/-- **Every call of Execute keeps to its rules.** -/
theorem execute_safe (w : World H) (c : Controller) (host : String) (r : SecretRequest)
    (before : Option (HostStateRequest H)) {s : Snap H} (hb : Remembered host r before s.rows) :
    Safe (rules w host r before) (execute w c host r) s := by
  refine safe_of_safeTo (fun _ _ => True) ?_
  unfold execute
  cases hn : r.normalize with
  | none => exact fun t ht => ⟨returnable_failure (unknown_outcome r host) _, fun _ _ _ => trivial⟩
  | some secret =>
    intro t ht
    refine ⟨rfl, fun a u hu => ?_⟩
    cases a with
    | error e => exact fun v hv => ⟨returnable_failure (unknown_outcome r host) _, fun _ _ _ => trivial⟩
    | ok _ =>
      have hbu := (hb.later ht.toLater).later hu.1
      show SafeTo _ _ ((owned w c secret (r.unknown host)).bind _) u
      refine safeTo_bind (SafeTo.mono (fun ended v hv => ?_) (owned_safe c hn hbu rfl rfl (unknown_outcome r host)))
      intro x hx
      refine ⟨rfl, fun _ y hy z hz => ⟨?_, fun _ _ _ => trivial⟩⟩
      exact ((hv.later hx.toLater).later hy.1).later hz.toLater

end Calls

/-! ## The system -/

def State.logs (s : State H) (p : String) : List (Subd.Event H) := (s.agents p).world.log

/-- what call `n` on `host` sees -/
def snap (s : State H) (n : ℕ) (host : String) : Snap H :=
  ⟨s.locks host = some n, s.requests, s.logs, fun h i => .located h i ∈ s.log⟩

/-- an entry of the log, read in a state that is not before it -/
def EntryOk (w : World H) (s : State H) : Entry → Prop
  | .located _ _ => True
  | .allocated h i v => ∃ row, s.requests.find (h, i) = some row ∧ row.revision = v
  | .contacted n => ∃ c secret, s.calls n = some c ∧ c.request.normalize = some secret ∧ Open w c.before secret
  | .recorded n result => ∃ c secret, s.calls n = some c ∧ result.hostId = c.host ∧
      result.requestId = c.request.requestId ∧ c.request.normalize = some secret ∧
      Assigned w c.host c.request s.requests secret result.revision ∧
      (result.outcome = .applied → Proven (snap s n c.host) c.host secret result.revision ∧
        ∃ row, s.requests.find (result.hostId, result.requestId) = some row ∧ row.outcome = .applied ∧
          row.result = some result)
  | .returned n result err => ∃ c, s.calls n = some c ∧
      Returnable w c.host c.request c.before (snap s n c.host) result err

/-- revisions grow with every allocation, and nothing is recorded after the outcome applied -/
def Follow : Entry → Entry → Prop
  | .allocated h i v, .allocated h' i' v' => h = h' → v' < v ∧ i ≠ i'
  | .recorded _ r, .recorded _ r' => r'.outcome = .applied → (r.hostId, r.requestId) ≠ (r'.hostId, r'.requestId)
  | _, _ => True

/-- what no step takes back -/
structure Grows (s t : State H) : Prop where
  calls : ∀ n c, s.calls n = some c → ∃ prog, t.calls n = some { c with prog := prog }
  rows : Grown s.requests t.requests
  logs : ∀ p, s.logs p <:+ t.logs p
  log : s.log <:+ t.log

theorem Grows.later {s t : State H} (h : Grows s t) (n m : ℕ) (host host' : String) :
    Later (snap s n host) (snap t m host') := ⟨h.rows, h.logs, fun _ _ hi => h.log.subset hi⟩

theorem EntryOk.grows {w : World H} {s t : State H} {e : Entry} (h : EntryOk w s e) (hg : Grows s t) :
    EntryOk w t e := by
  cases e with
  | located h' i => trivial
  | allocated h' i v =>
    obtain ⟨row, hrow, hr⟩ := h
    obtain ⟨row', hrow', -, hr', -⟩ := hg.rows _ row hrow
    exact ⟨row', hrow', hr'.trans hr⟩
  | contacted n =>
    obtain ⟨c, secret, hc, hn, ho⟩ := h
    obtain ⟨prog, hc'⟩ := hg.calls n c hc
    exact ⟨_, secret, hc', hn, ho⟩
  | recorded n result =>
    obtain ⟨c, secret, hc, hh, hi, hn, ha, hp⟩ := h
    obtain ⟨prog, hc'⟩ := hg.calls n c hc
    refine ⟨_, secret, hc', hh, hi, hn, ha.later (hg.later n n c.host c.host), fun happlied => ?_⟩
    obtain ⟨hproven, row, hrow, hout, hres⟩ := hp happlied
    obtain ⟨row', hrow', -, -, hsame⟩ := hg.rows _ row hrow
    obtain rfl := hsame hout
    exact ⟨hproven.later (hg.later n n c.host c.host), row', hrow', hout, hres⟩
  | returned n result err =>
    obtain ⟨c, hc, hr⟩ := h
    obtain ⟨prog, hc'⟩ := hg.calls n c hc
    exact ⟨_, hc', hr.later (hg.later n n c.host c.host)⟩

theorem Grown.put_new {t : Requests H} {row : HostStateRequest H} (h : t.find row.key = none) : Grown t (t.put row) := by
  intro k row' hrow'
  have hne : row.key ≠ k := by
    rintro rfl
    simp [h] at hrow'
  exact ⟨row', (Table.find_put_ne t hne).trans hrow', rfl, rfl, fun _ => rfl⟩

/-- storing an outcome on a row without a final one -/
theorem Grown.put_outcome {t : Requests H} {row : HostStateRequest H} (h : t.find row.key = some row)
    (ho : row.outcome ≠ .applied) (outcome : RequestOutcome) (result : Option SecretResult) :
    Grown t (t.put { row with outcome := outcome, result := result }) := by
  intro k row' hrow'
  by_cases hk : row.key = k
  · subst hk
    obtain rfl := Option.some.inj (h.symm.trans hrow')
    exact ⟨_, Table.find_put_self t _, rfl, rfl, fun ha => absurd ha ho⟩
  · have hne : HostStateRequest.key { row with outcome := outcome, result := result } ≠ k := hk
    exact ⟨row', (Table.find_put_ne t hne).trans hrow', rfl, rfl, fun _ => rfl⟩

section Exec
variable [DecidableEq H] {w : World H} {s : State H} {n : ℕ} {c : Call H} {a : Answers H} {q : Query H}

omit [DecidableEq H] in
/-- the row whose outcome is stored -/
theorem record_row (hw : guard w c.host c.request c.before (snap s n c.host) q) {result : SecretResult}
    {o : Option (String × Observability)} (hq : q = .record result o) (hl : s.locks c.host = some n) :
    ∃ row, s.requests.find (result.hostId, result.requestId) = some row ∧ row.key = (result.hostId, result.requestId) ∧
      row.outcome ≠ .applied := by
  subst hq
  obtain ⟨hh, hi, hrow, -⟩ := hw
  obtain ⟨row, hrow, ho⟩ := hrow hl
  rw [← hh, ← hi] at hrow
  exact ⟨row, hrow, Table.key_of_find hrow, ho⟩

/-- what a statement did, answered or not -/
theorem exec_insert (row : HostStateRequest H) : s.exec w n c.host a (.insert row) = (s, false) ∨
    (s.locks c.host = some n ∧ s.requests.find row.key = none ∧
      ∃ ok, s.exec w n c.host a (.insert row) = (s.insert row, ok)) := by
  simp only [State.exec]
  split_ifs with hi
  · exact .inr ⟨hi.1, hi.2.2.1, _, rfl⟩
  · exact .inl rfl

theorem exec_record (result : SecretResult) (o : Option (String × Observability)) :
    (s.exec w n c.host a (.record result o)).1 = s ∨
      (s.locks c.host = some n ∧ (s.exec w n c.host a (.record result o)).1 = s.record n result o) := by
  simp only [State.exec]
  split_ifs with hi
  · exact .inr ⟨hi.1, rfl⟩
  · exact .inr ⟨hi.1, rfl⟩
  · exact .inl rfl

/-- a request within its guard takes nothing back -/
theorem exec_rows (hg : guard w c.host c.request c.before (snap s n c.host) q) :
    Grown s.requests (s.exec w n c.host a q).1.requests := by
  cases q with
  | lock h =>
    simp only [State.exec]
    split <;> exact .refl _
  | insert row =>
    rcases exec_insert (w := w) (s := s) (n := n) (c := c) (a := a) row with h | ⟨-, hnone, ok, h⟩
    · rw [h]
      exact .refl _
    · rw [h]
      exact .put_new hnone
  | record result o =>
    rcases exec_record (w := w) (s := s) (n := n) (c := c) (a := a) result o with h | ⟨hl, h⟩
    · rw [h]
      exact .refl _
    · obtain ⟨row, hrow, hkey, ho⟩ := record_row hg rfl hl
      rw [h]
      simp only [State.record, hrow]
      exact .put_outcome (hkey ▸ hrow) ho _ _
  | _ => exact .refl _

/-- the agents and the other calls are as before -/
theorem exec_frame : (s.exec w n c.host a q).1.agents = s.agents ∧ (s.exec w n c.host a q).1.calls = s.calls := by
  cases q with
  | lock h =>
    simp only [State.exec]
    split <;> exact ⟨rfl, rfl⟩
  | insert row =>
    rcases exec_insert (w := w) (s := s) (n := n) (c := c) (a := a) row with h | ⟨-, -, ok, h⟩ <;> rw [h] <;>
      exact ⟨rfl, rfl⟩
  | record result o =>
    rcases exec_record (w := w) (s := s) (n := n) (c := c) (a := a) result o with h | ⟨-, h⟩ <;> rw [h] <;>
      exact ⟨rfl, rfl⟩
  | _ => exact ⟨rfl, rfl⟩

theorem exec_suffix : s.log <:+ (s.exec w n c.host a q).1.log := by
  cases q with
  | lock h =>
    simp only [State.exec]
    split <;> exact List.suffix_refl _
  | location h => exact List.suffix_append _ _
  | health p => exact List.suffix_cons _ _
  | send p e => exact List.suffix_cons _ _
  | finish result err => exact List.suffix_cons _ _
  | insert row =>
    rcases exec_insert (w := w) (s := s) (n := n) (c := c) (a := a) row with h | ⟨-, -, ok, h⟩
    · rw [h]
    · rw [h]
      exact List.suffix_cons _ _
  | record result o =>
    rcases exec_record (w := w) (s := s) (n := n) (c := c) (a := a) result o with h | ⟨-, h⟩
    · rw [h]
    · rw [h]
      exact List.suffix_cons _ _
  | _ => exact List.suffix_refl _

theorem exec_later (hg : guard w c.host c.request c.before (snap s n c.host) q) {m m' : ℕ} {host host' : String} :
    Later (snap s m host) (snap (s.exec w n c.host a q).1 m' host') := by
  refine ⟨exec_rows hg, fun p => ?_, fun _ _ hi => exec_suffix.subset hi⟩
  show (s.agents p).world.log <:+ ((s.exec w n c.host a q).1.agents p).world.log
  rw [exec_frame.1]

/-- a request that leaves the rows and the locks alone -/
theorem exec_quiet (hg : guard w c.host c.request c.before (snap s n c.host) q)
    (hrows : (s.exec w n c.host a q).1.requests = s.requests) (hlocks : (s.exec w n c.host a q).1.locks = s.locks) :
    Rely c.host (snap s n c.host) (snap (s.exec w n c.host a q).1 n c.host) := by
  refine ⟨exec_later hg, fun hheld => ⟨?_, fun i => ?_⟩⟩
  · simpa [snap, hlocks] using hheld
  · simp [snap, hrows]

/-- to another call a request within its guard is interference -/
theorem exec_others (hg : guard w c.host c.request c.before (snap s n c.host) q) (hw : waits s c.host a q = false)
    {m : ℕ} (hm : m ≠ n) (host : String) :
    Rely host (snap s m host) (snap (s.exec w n c.host a q).1 m host) := by
  refine ⟨exec_later hg, fun hheld => ?_⟩
  -- while the lock of this call's host is `n`'s, a call that holds a lock is on another host
  have hne (hl : s.locks c.host = some n) (hm' : s.locks host = some m) : host ≠ c.host := by
    rintro rfl
    exact hm (Option.some.inj (hm'.symm.trans hl))
  cases q with
  | lock h =>
    simp only [snap, State.exec] at hheld ⊢
    split at hheld
    · by_cases hh : host = c.host
      · subst hh
        simp only [Function.update_self, Option.some.injEq] at hheld
        exact absurd hheld.symm hm
      · dsimp only at hheld
        rw [Function.update_of_ne hh] at hheld
        exact ⟨hheld, fun _ => rfl⟩
    · exact ⟨hheld, fun _ => rfl⟩
  | insert row =>
    rcases exec_insert (w := w) (s := s) (n := n) (c := c) (a := a) row with h | ⟨hl, -, ok, h⟩
    · rw [h] at hheld ⊢
      exact ⟨hheld, fun _ => rfl⟩
    · rw [h] at hheld ⊢
      refine ⟨hheld, fun i => Table.find_put_ne _ fun hk => hne hl hheld ?_⟩
      exact (congrArg Prod.fst hk).symm.trans hg.1
  | record result o =>
    rcases exec_record (w := w) (s := s) (n := n) (c := c) (a := a) result o with h | ⟨hl, h⟩
    · rw [h] at hheld ⊢
      exact ⟨hheld, fun _ => rfl⟩
    · obtain ⟨row, hrow, hkey, -⟩ := record_row hg rfl hl
      rw [h] at hheld ⊢
      refine ⟨hheld, fun i => ?_⟩
      simp only [snap, State.record, hrow]
      refine Table.find_put_ne _ fun hk => hne hl hheld ?_
      exact (congrArg Prod.fst (hkey.symm.trans hk)).symm.trans hg.1
  | unlock h =>
    simp only [snap, State.exec] at hheld ⊢
    split_ifs at hheld with hl
    · by_cases hh : host = h
      · subst hh
        simp at hheld
      · rw [Function.update_of_ne hh] at hheld
        exact ⟨hheld, fun _ => trivial⟩
    · exact ⟨hheld, fun _ => trivial⟩
  | _ => exact ⟨hheld, fun _ => rfl⟩

omit [DecidableEq H] in
/-- the highest revision is above every row of the host -/
theorem le_maximum {k : String × String} {row : HostStateRequest H} (h : s.requests.find k = some row) :
    row.revision ≤ s.maximum k.1 := by
  have hmem : row ∈ s.requests.rows := (Table.find_eq_some.mp h).1
  have hkey : row.key = k := Table.key_of_find h
  have hle (l : List ℕ) (v : ℕ) (hv : v ∈ l) : v ≤ l.foldr max 0 := by
    induction l with
    | nil => simp at hv
    | cons b l ih =>
      rcases List.mem_cons.mp hv with rfl | hv
      · exact le_max_left _ _
      · exact (ih hv).trans (le_max_right _ _)
  refine hle _ _ (List.mem_map_of_mem (List.mem_filter.mpr ⟨hmem, ?_⟩))
  simp [← hkey, HostStateRequest.key]

omit [DecidableEq H] in
theorem read_some {α : Type} {held : Bool} {x y : α} (h : read held a x = some y) : held = true ∧ y = x := by
  unfold read at h
  split_ifs at h with hc
  exact ⟨hc.1, (Option.some.inj h).symm⟩

/-- an answer 200 shows the applied state of that content -/
theorem answeredWith_ok {x : Subd.Env H} {log : List (Subd.Event H)} (hs : Subd.Sound x log) {e : ExpectedHostState}
    {body : Option (SavedState H)} (h : answeredWith log e 200 body = true) :
    ∃ st, body = some st ∧ .reported st ∈ log ∧ st.request = e ∧ st.outcome = .applied ∧
      st.kubernetes = e.secret.map verifiedResult := by
  rw [answeredWith, if_neg (by decide), Bool.and_eq_true, List.any_eq_true] at h
  obtain ⟨hbody, l, hl, hp⟩ := h
  obtain ⟨post, rfl⟩ := (List.mem_tails _ _).mp hl
  obtain ⟨pre, rfl⟩ := List.isPrefixOf_iff_prefix.mp hp
  obtain ⟨st, rfl⟩ : ∃ st, body = some st := Option.isSome_iff_exists.mp (by simpa using hbody)
  -- the state shown with the answer is the head of the log before it
  have hanswered : Subd.Sound x (post ++ .answered e 200 :: (.reported st :: pre)) := hs
  obtain ⟨st', hhead, hout, rfl⟩ := hanswered.allowed rfl
  obtain rfl : st = st' := by simpa using hhead
  have hreported : Subd.Sound x ((post ++ [.answered st.request 200]) ++ .reported st :: pre) := by
    simpa [Subd.Reply.events] using hs
  exact ⟨st, rfl, by simp [Subd.Reply.events], rfl, hout, (hreported.allowed.2 hout).2⟩

/-- what the invariant says of an agent -/
def Fenced (w : World H) (s : State H) (p : String) : Prop :=
  (Subd.service (w.agent p)).Holds (Subd.FenceInv (w.agent p)) (Subd.FenceDown (w.agent p))
    (fun m v => Subd.FenceMem (w.agent p) m.saved v) (s.agents p)

theorem Fenced.sound {p : String} (h : Fenced w s p) : Subd.Sound (w.agent p) (s.logs p) := (Subd.fence_keeps.world h).sound

structure SecretInv (w : World H) (s : State H) : Prop where
  agents : ∀ p, Fenced w s p
  calls : ∀ n c, s.calls n = some c → Safe (rules w c.host c.request c.before) c.prog (snap s n c.host)
  justified : ∀ k row, s.requests.find k = some row → Justified w (snap s 0 "") row
  entries : ∀ e ∈ s.log, EntryOk w s e
  ordered : s.log.Pairwise Follow

/-- a request is answered as its rules say -/
theorem exec_answer (h : SecretInv w s) (hg : guard w c.host c.request c.before (snap s n c.host) q) :
    (rules w c.host c.request c.before).answer q (snap s n c.host) (s.exec w n c.host a q).2
      (snap (s.exec w n c.host a q).1 n c.host) := by
  refine ⟨exec_later hg, ?_⟩
  cases q with
  | insert row =>
    intro hok
    rcases exec_insert (w := w) (s := s) (n := n) (c := c) (a := a) row with hs | ⟨-, -, ok, hs⟩
    · simp [hs] at hok
    · simp only [snap, hs]
      exact Table.find_put_self _ row
  | location h' =>
    refine ⟨exec_quiet hg rfl rfl, fun l hl => ?_⟩
    have hl : read (s.locks c.host = some n) a (selectLocation s.fleet.db h') = some (some l) := hl
    simp [snap, State.exec, hl]
  | request h' i =>
    refine ⟨.refl _ _, fun o ho => ?_⟩
    obtain ⟨hl, rfl⟩ := read_some ho
    exact ⟨of_decide_eq_true (p := s.locks c.host = some n) hl, rfl, fun row hrow => h.justified _ row hrow⟩
  | maximum h' =>
    refine ⟨.refl _ _, fun m hm => ?_⟩
    obtain ⟨hl, rfl⟩ := read_some hm
    exact ⟨of_decide_eq_true (p := s.locks c.host = some n) hl, fun i row hrow => le_maximum hrow⟩
  | response p e =>
    refine ⟨.refl _ _, fun body hb => ?_⟩
    simp only [State.exec] at hb
    split at hb
    · simp at hb
    · rename_i code body' _
      split_ifs at hb with hans
      simp only [Option.some.injEq, Prod.mk.injEq] at hb
      obtain ⟨rfl, rfl⟩ := hb
      obtain ⟨st, rfl, hst⟩ := answeredWith_ok (h.agents p).sound hans
      exact ⟨st, rfl, hst⟩
  | lock h' => trivial
  | record result o => trivial
  | unlock h' => trivial
  | _ => exact exec_quiet hg rfl rfl

/-- the state after a request of call `n`, which goes on with `prog` -/
theorem exec_grows (hg : guard w c.host c.request c.before (snap s n c.host) q) (hc : s.calls n = some c)
    (prog : Exec H Unit) : Grows s ((s.exec w n c.host a q).1.continue n c prog) := by
  have hlater : Later (snap s n "") (snap (s.exec w n c.host a q).1 n "") := exec_later hg
  refine ⟨fun m d hd => ?_, exec_rows hg, hlater.logs, exec_suffix⟩
  · simp only [State.continue, exec_frame.2]
    by_cases hm : m = n
    · subst hm
      obtain rfl := Option.some.inj (hd.symm.trans hc)
      exact ⟨prog, Function.update_self ..⟩
    · exact ⟨d.prog, (Function.update_of_ne hm ..).trans hd⟩

/-- rows stay justified -/
theorem exec_justified (h : SecretInv w s) (hg : guard w c.host c.request c.before (snap s n c.host) q)
    (k : String × String) (row : HostStateRequest H) (hrow : (s.exec w n c.host a q).1.requests.find k = some row) :
    Justified w (snap (s.exec w n c.host a q).1 0 "") row := by
  have hold (hrow : s.requests.find k = some row) : Justified w (snap (s.exec w n c.host a q).1 0 "") row :=
    (h.justified k row hrow).later (exec_later hg)
  cases q with
  | lock h' =>
    refine hold ?_
    simp only [State.exec] at hrow
    split at hrow <;> exact hrow
  | insert row' =>
    rcases exec_insert (w := w) (s := s) (n := n) (c := c) (a := a) row' with hs | ⟨-, -, ok, hs⟩
    · exact hold (by simpa [hs] using hrow)
    · rw [hs] at hrow
      simp only [State.insert, Table.find_put] at hrow
      split_ifs at hrow
      · obtain rfl := Option.some.inj hrow
        exact fun ha => absurd (hg.2.1.symm.trans ha) (by decide)
      · exact hold hrow
  | record result o =>
    rcases exec_record (w := w) (s := s) (n := n) (c := c) (a := a) result o with hs | ⟨hl, hs⟩
    · exact hold (by simpa [hs] using hrow)
    · obtain ⟨row', hrow', hkey, -⟩ := record_row hg rfl hl
      rw [hs] at hrow
      simp only [State.record, hrow', Table.find_put] at hrow
      split_ifs at hrow
      · obtain rfl := Option.some.inj hrow
        obtain ⟨hh, hi, -, secret, -, ⟨row'', hrow'', hf, hr⟩, hp⟩ := id hg
        rw [← hh, ← hi] at hrow''
        obtain rfl := Option.some.inj (hrow'.symm.trans hrow'')
        have hhost : row'.hostId = c.host := (congrArg Prod.fst hkey).trans hh
        refine fun ha => ⟨result, secret, rfl, hr.symm, hf, ?_⟩
        simp only [hr, hhost]
        exact (hp ha).later (exec_later hg)
      · exact hold hrow
  | _ => exact hold hrow

/-- a request adds at most one entry, which holds from then on and may follow the earlier ones -/
theorem exec_log (h : SecretInv w s) (hg : guard w c.host c.request c.before (snap s n c.host) q)
    (hc : s.calls n = some c) (prog : Exec H Unit) : (s.exec w n c.host a q).1.log = s.log ∨
      ∃ e, (s.exec w n c.host a q).1.log = e :: s.log ∧ (∀ e' ∈ s.log, Follow e e') ∧
        EntryOk w ((s.exec w n c.host a q).1.continue n c prog) e := by
  have hgrows := exec_grows (a := a) hg hc prog
  obtain ⟨prog', hc'⟩ := hgrows.calls n c hc
  cases q with
  | lock h' =>
    simp only [State.exec]
    split <;> exact .inl rfl
  | location h' =>
    cases hl : (read (s.locks c.host = some n) a (selectLocation s.fleet.db h')).join with
    | none => exact .inl (by simp [State.exec, hl])
    | some l => exact .inr ⟨.located h' l.providerId, by simp [State.exec, hl], fun _ _ => trivial, trivial⟩
  | health p =>
    obtain ⟨secret, hn, ho⟩ := hg
    exact .inr ⟨_, rfl, fun _ _ => trivial, _, secret, hc', hn, ho⟩
  | send p e =>
    obtain ⟨secret, revision, hn, ho, -⟩ := hg
    exact .inr ⟨_, rfl, fun _ _ => trivial, _, secret, hc', hn, ho⟩
  | finish result err =>
    exact .inr ⟨_, rfl, fun _ _ => trivial, _, hc', Returnable.later hg (hgrows.later n n c.host c.host)⟩
  | insert row =>
    rcases exec_insert (w := w) (s := s) (n := n) (c := c) (a := a) row with hs | ⟨hl, hnone, ok, hs⟩
    · exact .inl (by rw [hs])
    · refine .inr ⟨.allocated row.hostId row.requestId row.revision, by rw [hs]; rfl, fun e' he' => ?_, row, ?_, rfl⟩
      · cases e' with
        | allocated h' i' v' =>
          rintro rfl
          obtain ⟨row', hrow', rfl⟩ := h.entries _ he'
          refine ⟨hg.2.2 hl i' row' (hg.1 ▸ hrow'), ?_⟩
          rintro rfl
          have hkey : s.requests.find (row.hostId, row.requestId) = none := hnone
          simp [hkey] at hrow'
        | _ => trivial
      · simp only [State.continue, hs]
        exact Table.find_put_self _ row
  | record result o =>
    rcases exec_record (w := w) (s := s) (n := n) (c := c) (a := a) result o with hs | ⟨hl, hs⟩
    · exact .inl (by rw [hs])
    · obtain ⟨row, hrow, hkey, hopen⟩ := record_row hg rfl hl
      refine .inr ⟨.recorded n result, by rw [hs]; rfl, fun e' he' => ?_, ?_⟩
      · cases e' with
        | recorded m result' =>
          intro happlied heq
          obtain ⟨_, _, -, -, -, -, -, hp⟩ := h.entries _ he'
          obtain ⟨-, row', hrow', hout, -⟩ := hp happlied
          rw [← heq, hrow] at hrow'
          obtain rfl := Option.some.inj hrow'
          exact hopen hout
        | _ => trivial
      · obtain ⟨hh, hi, -, secret, hn, ha, hp⟩ := hg
        refine ⟨_, secret, hc', hh, hi, hn, ha.later (hgrows.later n n c.host c.host), fun happlied => ?_⟩
        refine ⟨(hp happlied).later (hgrows.later n n c.host c.host), { row with outcome := _, result := _ }, ?_,
          happlied, rfl⟩
        simp only [State.continue, hs, State.record, hrow]
        rw [← hkey]
        exact Table.find_put_self s.requests { row with outcome := result.outcome, result := some result }
  | _ => exact .inl rfl

/-- the invariant after a change that adds nothing to the log -/
theorem SecretInv.of_grows (h : SecretInv w s) {t : State H} (hg : Grows s t) (hagents : ∀ p, Fenced w t p)
    (hcalls : ∀ n c, t.calls n = some c → Safe (rules w c.host c.request c.before) c.prog (snap t n c.host))
    (hrows : t.requests = s.requests) (hlog : t.log = s.log) : SecretInv w t where
  agents := hagents
  calls := hcalls
  justified k row hrow := Justified.later (s := snap s 0 "") (h.justified k row (hrows ▸ hrow)) (hg.later 0 0 "" "")
  entries e he := (h.entries e (hlog ▸ he)).grows hg
  ordered := hlog ▸ h.ordered

omit [DecidableEq H] in
theorem release_snap (m : ℕ) (host : String) : Rely host (snap s m host) (snap (s.release n) m host) := by
  refine ⟨⟨.refl _, fun _ => List.suffix_refl _, fun _ _ => id⟩, fun hheld => ⟨?_, fun _ => rfl⟩⟩
  simp only [snap, State.release] at hheld
  split_ifs at hheld
  exact hheld

theorem ask_inv (h : SecretInv w s) (hc : s.calls n = some c) {k : q.Answer → Exec H Unit} (hp : c.prog = .ask q k)
    (hw : waits s c.host a q = false) :
    SecretInv w ((s.exec w n c.host a q).1.continue n c (k (s.exec w n c.host a q).2)) := by
  have hsafe := h.calls n c hc
  rw [hp] at hsafe
  obtain ⟨hguard, hnext⟩ := hsafe.ask
  have hgrows := exec_grows (a := a) hguard hc (k (s.exec w n c.host a q).2)
  refine ⟨fun p => ?_, fun m d hd => ?_, fun key row hrow => exec_justified h hguard key row hrow, ?_, ?_⟩
  · show (Subd.service (w.agent p)).Holds _ _ _ ((s.exec w n c.host a q).1.agents p)
    rw [exec_frame.1]
    exact h.agents p
  · simp only [State.continue, exec_frame.2] at hd
    by_cases hm : m = n
    · subst hm
      rw [Function.update_self, Option.some.injEq] at hd
      subst hd
      exact hnext _ _ (exec_answer h hguard)
    · rw [Function.update_of_ne hm] at hd
      exact (h.calls m d hd).rely (exec_others hguard hw hm d.host)
  all_goals
    rcases exec_log (a := a) h hguard hc (k (s.exec w n c.host a q).2) with hlog | ⟨e, hlog, hfollow, hok⟩
  · intro e he
    exact (h.entries e (hlog ▸ he)).grows hgrows
  · intro e' he'
    rcases List.mem_cons.mp (hlog ▸ he' : e' ∈ e :: s.log) with rfl | he'
    · exact hok
    · exact (h.entries e' he').grows hgrows
  · exact hlog ▸ h.ordered
  · exact hlog ▸ List.pairwise_cons.mpr ⟨hfollow, h.ordered⟩

/-- **Every step keeps the invariant.** -/
theorem step_inv (h : SecretInv w s) (act : Act H) : SecretInv w (s.step w act) := by
  cases act with
  | fleet a =>
    exact h.of_grows ⟨fun n c hc => ⟨c.prog, hc⟩, .refl _, fun _ => List.suffix_refl _, List.suffix_refl _⟩ h.agents h.calls rfl rfl
  | agent p a =>
    simp only [State.step]
    split_ifs
    · have hlogs (p' : String) : s.logs p' <:+ (Function.update s.agents p ((Subd.service (w.agent p)).step (s.agents p) a)
          p').world.log := by
        by_cases hp : p' = p
        · subst hp
          rw [Function.update_self]
          exact Subd.step_log _ _ a
        · rw [Function.update_of_ne hp]
          exact List.suffix_refl _
      refine h.of_grows ⟨fun n c hc => ⟨c.prog, hc⟩, .refl _, hlogs, List.suffix_refl _⟩ (fun p' => ?_) (fun n c hc => ?_) rfl rfl
      · unfold Fenced
        by_cases hp : p' = p
        · subst hp
          simp only [Function.update_self]
          exact Subd.fence_keeps.step (h.agents p') a
        · simp only [Function.update_of_ne hp]
          exact h.agents p'
      · exact (h.calls n c hc).rely ⟨⟨.refl _, hlogs, fun _ _ => id⟩, fun hheld => ⟨hheld, fun _ => rfl⟩⟩
    · exact h
  | execute n c host r =>
    cases hn : s.calls n with
    | some d => simpa only [State.step, hn] using h
    | none =>
      simp only [State.step, hn]
      have hother (m : ℕ) (d : Call H) (hd : s.calls m = some d) : m ≠ n := by
        rintro rfl
        simp [hn] at hd
      refine h.of_grows ⟨fun m d hd => ⟨d.prog, ?_⟩, .refl _, fun _ => List.suffix_refl _, List.suffix_refl _⟩ h.agents (fun m d hd => ?_)
        rfl rfl
      · exact (Function.update_of_ne (hother m d hd) ..).trans hd
      · by_cases hm : m = n
        · subst hm
          simp only [Function.update_self, Option.some.injEq] at hd
          subst hd
          exact execute_safe w c host r _ fun row hrow => ⟨row, hrow, rfl, fun _ => rfl⟩
        · simp only [Function.update_of_ne hm] at hd
          exact h.calls m d hd
  | ask n a =>
    simp only [State.step]
    split
    · rename_i c hc
      split
      · rename_i q k hp
        split_ifs with hw
        · exact h
        · exact ask_inv h hc hp (by simpa using hw)
      · exact h
      · exact h
    · exact h
  | disconnect n =>
    exact h.of_grows ⟨fun m c hc => ⟨c.prog, hc⟩, .refl _, fun _ => List.suffix_refl _, List.suffix_refl _⟩ h.agents
      (fun m c hc => (h.calls m c hc).rely (release_snap m c.host)) rfl rfl
  | crash n =>
    cases hn : s.calls n with
    | none => simpa only [State.step, hn] using h
    | some c =>
      simp only [State.step, hn]
      refine h.of_grows ⟨fun m d hd => ?_, .refl _, fun _ => List.suffix_refl _, List.suffix_refl _⟩ h.agents (fun m d hd => ?_) rfl rfl
      · by_cases hm : m = n
        · subst hm
          obtain rfl := Option.some.inj (hd.symm.trans hn)
          exact ⟨.stop, Function.update_self ..⟩
        · exact ⟨d.prog, (Function.update_of_ne hm ..).trans hd⟩
      · by_cases hm : m = n
        · subst hm
          simp only [State.continue, Function.update_self, Option.some.injEq] at hd
          subst hd
          trivial
        · simp only [State.continue, Function.update_of_ne hm] at hd
          exact (h.calls m d hd).rely (release_snap m d.host)

end Exec

/-! ## Delivery -/

/-- the host's agent applied exactly the Secret of the call's request at the revision of that request, and reported the
Secret verified and any requested rollout ready -/
def Delivered (w : World H) (s : State H) (c : Call H) (result : SecretResult) : Prop :=
  ∃ secret p st, c.request.normalize = some secret ∧
    (∃ row, s.requests.find (c.host, c.request.requestId) = some row ∧ row.revision = result.revision) ∧
    (∃ td i, .located c.host i ∈ s.log ∧ p = subdIdentity td i) ∧
    .reported st ∈ s.logs p ∧ st.request = secretState result.revision secret ∧ st.outcome = .applied ∧
    st.kubernetes = some (verifiedResult secret) ∧
    Subd.Succeeded (w.agent p) (secretState result.revision secret) (s.logs p)

structure SecretDelivery [DecidableEq H] (w : World H) (s : State H) : Prop where
  /-- different requests of a host have different revisions, which grow in the order of their allocation -/
  increasing : s.log.Pairwise fun later earlier => ∀ h i v i' v', later = .allocated h i v →
    earlier = .allocated h i' v' → v' < v ∧ i ≠ i'
  /-- what was allocated is the request's revision for good -/
  allocated : ∀ h i v, .allocated h i v ∈ s.log → ∃ row, s.requests.find (h, i) = some row ∧ row.revision = v
  /-- nothing is recorded or returned as applied without the agent's evidence -/
  applied : ∀ n c result, s.calls n = some c → (.recorded n result ∈ s.log ∨ ∃ err, .returned n result err ∈ s.log) →
    result.outcome = .applied → Delivered w s c result
  /-- what an agent accepted bounds everything it applies afterwards -/
  superseded : ∀ p post pre e st, s.logs p = post ++ .invoked e :: pre →
    .reported st ∈ pre ∨ .persisted st ∈ pre → st.request.revision ≤ e.revision
  /-- a recorded outcome applied is the last one, and the row keeps it -/
  settled : ∀ post pre n result, s.log = post ++ .recorded n result :: pre → result.outcome = .applied →
    (∀ m result', .recorded m result' ∈ post →
      (result'.hostId, result'.requestId) ≠ (result.hostId, result.requestId)) ∧
    ∃ row, s.requests.find (result.hostId, result.requestId) = some row ∧ row.outcome = .applied ∧
      row.result = some result
  /-- a call that begins after that, with the same contents, returns the saved result or fails; it contacts nobody -/
  replayed : ∀ n c row secret, s.calls n = some c → c.before = some row → c.request.normalize = some secret →
    row.fingerprint = w.fingerprint secret → row.outcome = .applied →
    .contacted n ∉ s.log ∧ ∀ result, .returned n result none ∈ s.log → row.result = some result
  /-- and with the lock free and the host its Dominator's, it does return the saved result -/
  answers : ∀ n c host r row secret l z peer, s.calls n = none → s.locks host = none → r.normalize = some secret →
    s.requests.find (host, r.requestId) = some row → row.fingerprint = w.fingerprint secret → row.outcome = .applied →
    selectLocation s.fleet.db host = some l → l.check = none → s.fleet.db.zoneDominators.find l.zoneId = some z →
    c.zoneId ≠ "" → l.zoneId = c.zoneId → z.identity = c.ownIdentity → w.peer c l.providerId = some peer →
    ∃ saved, row.result = some saved ∧
      .returned n saved none ∈ (s.run w (.execute n c host r :: List.replicate 6 (.ask n {}))).log
  /-- a request ID that was used with other contents fails, and contacts nobody -/
  reused : ∀ n c row secret, s.calls n = some c → c.before = some row → c.request.normalize = some secret →
    row.fingerprint ≠ w.fingerprint secret →
    .contacted n ∉ s.log ∧ ∀ result err, .returned n result err ∈ s.log → err ≠ none

section Delivery
variable [DecidableEq H] {w : World H} {s : State H} {n : ℕ} {c : Call H}

theorem inv_init (w : World H) (cat : Capacity.Catalog) : SecretInv w (State.init cat) where
  agents _ := Subd.fence_init
  calls _ _ h := by simp [State.init] at h
  justified _ _ h := by simp [State.init] at h
  entries _ h := by simp [State.init] at h
  ordered := .nil

theorem run_inv (h : SecretInv w s) (acts : List (Act H)) : SecretInv w (s.run w acts) := by
  induction acts generalizing s with
  | nil => exact h
  | cons a acts ih => exact ih (step_inv h a)

/-- evidence is success -/
theorem Proven.delivered (h : SecretInv w s) {result : SecretResult} {secret : KubernetesSecret}
    (hn : c.request.normalize = some secret) (ha : Assigned w c.host c.request s.requests secret result.revision)
    (hp : Proven (snap s n c.host) c.host secret result.revision) : Delivered w s c result := by
  obtain ⟨row, hrow, -, hrev⟩ := ha
  obtain ⟨p, st, hname, hst, hreq, hout, -, hk⟩ := hp
  refine ⟨secret, p, st, hn, ⟨row, hrow, hrev⟩, hname, hst, hreq, hout, hk, ?_⟩
  obtain ⟨post, pre, hlog⟩ := List.append_of_mem hst
  have hlog : s.logs p = post ++ .reported st :: pre := hlog
  have hsound := (h.agents p).sound
  rw [hlog] at hsound ⊢
  obtain ⟨⟨happlied, hensured⟩, -⟩ := hsound.allowed.2 hout
  rw [hreq] at happlied hensured
  exact ⟨List.mem_append_right _ (List.mem_cons_of_mem _ happlied),
    fun k hk => List.mem_append_right _ (List.mem_cons_of_mem _ (hensured k hk))⟩

theorem SecretInv.applied (h : SecretInv w s) {result : SecretResult} (hc : s.calls n = some c)
    (he : .recorded n result ∈ s.log ∨ ∃ err, .returned n result err ∈ s.log) (hout : result.outcome = .applied) :
    Delivered w s c result := by
  rcases he with he | ⟨err, he⟩
  · obtain ⟨c', secret, hc', -, -, hn, ha, hp⟩ := h.entries _ he
    obtain rfl := Option.some.inj (hc.symm.trans hc')
    exact (hp hout).1.delivered h hn ha
  · obtain ⟨c', hc', hr⟩ := h.entries _ he
    obtain rfl := Option.some.inj (hc.symm.trans hc')
    obtain ⟨secret, hn, ha, hp⟩ := hr.applied hout
    exact hp.delivered h hn ha

theorem SecretInv.settled (h : SecretInv w s) {post pre : List Entry} {result : SecretResult}
    (hlog : s.log = post ++ .recorded n result :: pre) (hout : result.outcome = .applied) :
    (∀ m result', .recorded m result' ∈ post →
      (result'.hostId, result'.requestId) ≠ (result.hostId, result.requestId)) ∧
    ∃ row, s.requests.find (result.hostId, result.requestId) = some row ∧ row.outcome = .applied ∧
      row.result = some result := by
  constructor
  · intro m result' hm
    have hordered := h.ordered
    rw [hlog, List.pairwise_append] at hordered
    exact hordered.2.2 _ hm _ List.mem_cons_self hout
  · have he : .recorded n result ∈ s.log := hlog ▸ List.mem_append_right _ List.mem_cons_self
    obtain ⟨_, _, -, -, -, -, -, hp⟩ := h.entries _ he
    exact (hp hout).2

/-- a call whose row was not open did not contact the agent -/
theorem SecretInv.not_contacted (h : SecretInv w s) (hc : s.calls n = some c) {secret : KubernetesSecret}
    (hn : c.request.normalize = some secret) (ho : ¬Open w c.before secret) : .contacted n ∉ s.log := by
  intro he
  obtain ⟨c', secret', hc', hn', ho'⟩ := h.entries _ he
  obtain rfl := Option.some.inj (hc.symm.trans hc')
  obtain rfl := Option.some.inj (hn.symm.trans hn')
  exact ho ho'

/-- an undisturbed call for a settled request returns the saved result -/
theorem execute_returns {ctl : Controller} {host : String} {r : SecretRequest} {row : HostStateRequest H}
    {secret : KubernetesSecret} {l : Location} {z : Capacity.ZoneDominator} {peer : String} {saved : SecretResult}
    (hc : s.calls n = none) (hlock : s.locks host = none) (hn : r.normalize = some secret)
    (hrow : s.requests.find (host, r.requestId) = some row) (hf : row.fingerprint = w.fingerprint secret)
    (hout : row.outcome = .applied) (hsaved : row.result = some saved) (hl : selectLocation s.fleet.db host = some l)
    (hcheck : l.check = none) (hz : s.fleet.db.zoneDominators.find l.zoneId = some z) (hzone : ctl.zoneId ≠ "")
    (hown : l.zoneId = ctl.zoneId) (hid : z.identity = ctl.ownIdentity) (hpeer : w.peer ctl l.providerId = some peer) :
    .returned n saved none ∈ (s.run w (.execute n ctl host r :: List.replicate 6 (.ask n {}))).log := by
  -- the six requests are the lock, the location, the Dominator, the row, the unlock and the end
  rw [hown] at hz
  simp [State.run, State.step, List.replicate, hc, execute, hn, waits, hlock, State.exec, State.continue, owned,
    loadTarget, read, hl, hcheck, hz, hzone, hown, hid, hpeer, resume, hrow, hf, hout, hsaved, ask, Prog.bind,
    SecretRequest.unknown]

theorem SecretInv.delivery (h : SecretInv w s) : SecretDelivery w s where
  increasing := h.ordered.imp fun hf h i v i' v' h₁ h₂ => by
    subst h₁ h₂
    exact hf rfl
  allocated _ _ _ he := h.entries _ he
  applied _ _ _ hc he hout := h.applied hc he hout
  superseded p post pre e st hlog hst := by
    have hsound := (h.agents p).sound
    rw [hlog] at hsound
    exact hsound.allowed.2.2.2 st hst
  settled _ _ _ _ hlog hout := h.settled hlog hout
  replayed n c row secret hc hb hn hf hout := by
    refine ⟨h.not_contacted hc hn fun ho => (ho row hb).2 hout, fun result he => ?_⟩
    obtain ⟨c', hc', hr⟩ := h.entries _ he
    obtain rfl := Option.some.inj (hc.symm.trans hc')
    exact hr.replayed row secret hb hn hf hout rfl
  answers n c host r row secret l z peer hc hlock hn hrow hf hout hl hcheck hz hzone hown hid hpeer := by
    obtain ⟨saved, -, hsaved, -⟩ := h.justified _ _ hrow hout
    exact ⟨saved, hsaved, execute_returns hc hlock hn hrow hf hout hsaved hl hcheck hz hzone hown hid hpeer⟩
  reused n c row secret hc hb hn hf := by
    refine ⟨h.not_contacted hc hn fun ho => hf (ho row hb).1, fun result err he => ?_⟩
    obtain ⟨c', hc', hr⟩ := h.entries _ he
    obtain rfl := Option.some.inj (hc.symm.trans hc')
    exact hr.reused row secret hb hn hf

/-- **Secret operations are delivered exactly as recorded.** In every run of the fleet, its agents and any number of
Execute calls. -/
theorem secret_delivery (w : World H) (cat : Capacity.Catalog) (acts : List (Act H)) :
    SecretDelivery w ((State.init cat).run w acts) := (run_inv (inv_init w cat) acts).delivery

end Delivery

end Crane.HostOperations
