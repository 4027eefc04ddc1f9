/-
Subd's revision fence across failures and restarts.

Memory, the versions of the state file and what has been shown outside may all differ: a write that reports an error may
be on the disk, an outcome may be stored and not remembered. `Fits` relates one copy of the state to the log: whatever
was shown, invoked or answered is behind it or is its own request. Every version of the file fits, and so does memory;
each handler step adds an event to the log only when all copies fit it.
-/
import Crane.Subd.Server

namespace Crane.Subd

variable {H : Type} (x : Env H)

/-! ## The log -/

/-- Apply returned success for exactly this content, and so did EnsureSecret if there is a Secret -/
def Succeeded (e : ExpectedHostState) (log : List (Event H)) : Prop :=
  .applied e ∈ log ∧ ∀ s, e.secret = some s → .ensured (x.token e.revision) s ∈ log

/-- and `k` is what was reported about Kubernetes -/
def Enforced (e : ExpectedHostState) (k : Option KubernetesResult) (log : List (Event H)) : Prop :=
  Succeeded x e log ∧ k = e.secret.map verifiedResult

/-- which events may follow `past` -/
def Allowed (past : List (Event H)) : Event H → Prop
  | .reported s => (∀ s', .reported s' ∈ past → s'.request.revision ≤ s.request.revision ∧
      s'.appliedRevision ≤ s.appliedRevision) ∧ (s.outcome = .applied → Enforced x s.request s.kubernetes past)
  | .invoked e => (∃ s, .persisted s ∈ past ∧ s.request = e) ∧
      (∀ e', .invoked e' ∈ past → e'.revision = e.revision → e' = e) ∧
      (∀ e', .answered e' 200 ∈ past → e'.revision ≠ e.revision) ∧
      ∀ s, .reported s ∈ past ∨ .persisted s ∈ past → s.request.revision ≤ e.revision
  | .answered e code => code = 200 → ∃ s, past.head? = some (.reported s) ∧ s.outcome = .applied ∧ s.request = e
  | _ => True

def Sound : List (Event H) → Prop
  | [] => True
  | e :: past => Allowed x past e ∧ Sound past

variable {x}

theorem Sound.allowed {e : Event H} {pre post : List (Event H)} (h : Sound x (post ++ e :: pre)) : Allowed x pre e := by
  induction post with
  | nil => exact h.1
  | cons a post ih => exact ih h.2

/-- whoever is answered 200 was shown an applied state of that request -/
theorem Sound.answered {log : List (Event H)} (h : Sound x log) {e : ExpectedHostState} (he : .answered e 200 ∈ log) :
    ∃ s, .reported s ∈ log ∧ s.outcome = .applied ∧ s.request = e := by
  obtain ⟨post, pre, rfl⟩ := List.append_of_mem he
  obtain ⟨s, hs, hout⟩ := h.allowed rfl
  exact ⟨s, List.mem_append_right _ (List.mem_cons_of_mem _ (List.mem_of_head? hs)), hout⟩

/-! ## Copies of the state -/

/-- a copy of the state that nothing in the log is ahead of -/
structure Fits (x : Env H) (v : SavedState H) (log : List (Event H)) : Prop where
  persisted : ∀ s, .persisted s ∈ log → s.request.revision ≤ v.request.revision
  accepted : ∀ s, .reported s ∈ log → s.request.revision ≤ v.request.revision
  applied : ∀ s, .reported s ∈ log → s.appliedRevision ≤ v.appliedRevision
  done : ∀ s, .reported s ∈ log → s.outcome = .applied →
    s.request.revision < v.request.revision ∨ (s.request.revision = v.request.revision ∧ v.outcome = .applied)
  invoked : ∀ e, .invoked e ∈ log → e.revision < v.request.revision ∨ e = v.request
  success : v.outcome = .applied → Enforced x v.request v.kubernetes log
  bounded : v.appliedRevision ≤ v.request.revision

theorem Succeeded.cons {e : ExpectedHostState} {log : List (Event H)} (h : Succeeded x e log) (a : Event H) :
    Succeeded x e (a :: log) :=
  ⟨List.mem_cons_of_mem _ h.1, fun s hs => List.mem_cons_of_mem _ (h.2 s hs)⟩

section Fits
variable {v s : SavedState H} {log : List (Event H)}

/-- one more event: it matters only if it stores or shows a status or calls Apply -/
theorem Fits.cons (h : Fits x v log) {a : Event H}
    (hp : ∀ s, a = .persisted s → s.request.revision ≤ v.request.revision)
    (hr : ∀ s, a = .reported s → s.request.revision ≤ v.request.revision ∧ s.appliedRevision ≤ v.appliedRevision ∧
      (s.outcome = .applied →
        s.request.revision < v.request.revision ∨ (s.request.revision = v.request.revision ∧ v.outcome = .applied)))
    (hi : ∀ e, a = .invoked e → e.revision < v.request.revision ∨ e = v.request) : Fits x v (a :: log) where
  persisted s hs := (List.mem_cons.mp hs).elim (fun e => hp s e.symm) (h.persisted s)
  accepted s hs := (List.mem_cons.mp hs).elim (fun e => (hr s e.symm).1) (h.accepted s)
  applied s hs := (List.mem_cons.mp hs).elim (fun e => (hr s e.symm).2.1) (h.applied s)
  done s hs := (List.mem_cons.mp hs).elim (fun e => (hr s e.symm).2.2) (h.done s)
  invoked e he := (List.mem_cons.mp he).elim (fun e' => hi e e'.symm) (h.invoked e)
  success hv := ⟨(h.success hv).1.cons a, (h.success hv).2⟩
  bounded := h.bounded

/-- a status that was shown before may be shown again -/
theorem Fits.again (h : Fits x v log) (hs : .reported s ∈ log) : Fits x v (.reported s :: log) :=
  h.cons nofun (fun s' e => by obtain rfl := Event.reported.inj e; exact ⟨h.accepted s hs, h.applied s hs, h.done s hs⟩) nofun

/-- a copy fits its own status -/
theorem Fits.self (h : Fits x v log) : Fits x v (.reported v :: log) :=
  h.cons nofun (fun s e => by obtain rfl := Event.reported.inj e; exact ⟨le_rfl, le_rfl, fun ha => .inr ⟨rfl, ha⟩⟩) nofun

/-- nothing else that was shown is ahead of a copy's status -/
theorem Fits.allowed (h : Fits x v log) : Allowed x log (.reported v) :=
  ⟨fun s hs => ⟨h.accepted s hs, h.applied s hs⟩, h.success⟩

/-- a copy of the same request with another outcome -/
theorem Fits.relabel (h : Fits x v log) (hreq : s.request = v.request) (hle : v.appliedRevision ≤ s.appliedRevision)
    (hbound : s.appliedRevision ≤ s.request.revision) (hv : v.outcome ≠ .applied)
    (hs : s.outcome = .applied → Enforced x s.request s.kubernetes log) : Fits x s log where
  persisted a ha := hreq ▸ h.persisted a ha
  accepted a ha := hreq ▸ h.accepted a ha
  applied a ha := (h.applied a ha).trans hle
  done a ha hout := hreq ▸ (h.done a ha hout).elim .inl fun e => absurd e.2 hv
  invoked e he := hreq ▸ h.invoked e he
  success := hs
  bounded := hbound

/-- what a restart makes of a copy -/
theorem Fits.resumed (h : Fits x v log) : Fits x { v with outcome := v.outcome.resumed } log where
  persisted := h.persisted
  accepted := h.accepted
  applied := h.applied
  done s hs ha := (h.done s hs ha).imp_right fun e => ⟨e.1, by simp [e.2, Outcome.resumed]⟩
  invoked := h.invoked
  success hv := h.success (by cases ho : v.outcome <;> simp_all [Outcome.resumed])
  bounded := h.bounded

end Fits

/-! ## The invariant -/

/-- every version of the state file fits -/
structure FenceInv (x : Env H) (w : World H) : Prop where
  versions : ∀ v ∈ w.state.versions, Fits x (v.getD {}) w.log
  sound : Sound x w.log

/-- after a crash only one version is left -/
def FenceDown (x : Env H) (w : World H) : Prop := w.state.replaced = [] ∧ FenceInv x w

/-- memory fits as well, is what the view shows, and carries the digest of its request -/
structure FenceMem (x : Env H) (s : SavedState H) (w : World H) : Prop extends FenceInv x w where
  fits : Fits x s w.log
  digest : s.request.revision ≠ 0 → s.digest = some (x.digest s.request)
  shown : .reported s ∈ w.log

section Steps
variable {w : World H}

/-- a status is shown -/
theorem FenceInv.report {s : SavedState H} (h : FenceInv x w) (hs : Fits x s w.log)
    (hv : ∀ v ∈ w.state.versions, Fits x (v.getD {}) (.reported s :: w.log)) :
    FenceInv x { w with log := .reported s :: w.log } :=
  ⟨hv, hs.allowed, h.sound⟩

/-- an answer other than 200 -/
theorem FenceInv.refuse (h : FenceInv x w) (e : ExpectedHostState) {code : ℕ} (hc : code ≠ 200) :
    FenceInv x { w with log := .answered e code :: w.log } :=
  ⟨fun v hv => (h.versions v hv).cons nofun nofun nofun, fun e => absurd e hc, h.sound⟩

theorem FenceMem.refuse {s : SavedState H} (h : FenceMem x s w) (e : ExpectedHostState) {code : ℕ} (hc : code ≠ 200) :
    FenceMem x s { w with log := .answered e code :: w.log } :=
  ⟨h.toFenceInv.refuse e hc, h.fits.cons nofun nofun nofun, h.digest, List.mem_cons_of_mem _ h.shown⟩

/-- the status of memory is shown once more -/
theorem FenceMem.again {s : SavedState H} (h : FenceMem x s w) :
    FenceMem x s { w with log := .reported s :: w.log } where
  toFenceInv := h.toFenceInv.report h.fits fun v hv => (h.versions v hv).again h.shown
  fits := h.fits.self
  digest := h.digest
  shown := List.mem_cons_self

/-- 200 with an applied state -/
theorem FenceMem.accept {s : SavedState H} (h : FenceMem x s w) (hs : s.outcome = .applied) {e : ExpectedHostState}
    (he : s.request = e) :
    FenceMem x s { w with log := .answered e 200 :: .reported s :: w.log } where
  versions v hv := ((h.versions v hv).again h.shown).cons nofun nofun nofun
  sound := ⟨fun _ => ⟨s, rfl, hs, he⟩, h.again.sound⟩
  fits := h.fits.self.cons nofun nofun nofun
  digest := h.digest
  shown := List.mem_cons_of_mem _ List.mem_cons_self

/-- another version of the file, on the disk or not -/
theorem FenceInv.write {s : SavedState H} (h : FenceInv x w) (hs : Fits x s w.log) (r : Write) :
    FenceInv x { w with state := w.state.write s r } :=
  ⟨File.forall_write (P := fun v => Fits x (v.getD {}) w.log) hs h.versions r, h.sound⟩

/-- an update of the revision in memory that does not conflict is the request in memory: the digests are equal -/
theorem FenceMem.same_request {s : SavedState H} (h : FenceMem x s w) {e : ExpectedHostState} (he : e.revision ≠ 0)
    (hfresh : ¬Conflicts x s e) (hrev : e.revision = s.request.revision) : s.request = e := by
  rw [Conflicts, not_or, not_and, not_not] at hfresh
  have hdigest := h.digest (hrev ▸ he)
  rw [← hfresh.2 hrev, Option.some.injEq] at hdigest
  exact (x.digest_injective hdigest).symm

/-- an update that is neither behind memory nor a replay leads to an intent that fits -/
theorem FenceMem.fits_intent {s : SavedState H} (h : FenceMem x s w) {e : ExpectedHostState} (he : e.revision ≠ 0)
    (hfresh : ¬Conflicts x s e)
    (hreplay : ¬(e.revision = s.request.revision ∧ s.outcome = .applied)) :
    Fits x (s.intent x e) w.log := by
  have hle : s.request.revision ≤ e.revision := not_lt.mp fun hlt => hfresh (.inl hlt)
  refine ⟨fun a ha => (h.fits.persisted a ha).trans hle, fun a ha => (h.fits.accepted a ha).trans hle, h.fits.applied,
    fun a ha hout => ?_, fun e' he' => ?_, nofun, h.fits.bounded.trans hle⟩
  · rcases h.fits.done a ha hout with hlt | ⟨heq, hs⟩
    · exact .inl (hlt.trans_le hle)
    · exact .inl (heq ▸ lt_of_le_of_ne hle fun hrev => hreplay ⟨hrev.symm, hs⟩)
  · rcases h.fits.invoked e' he' with hlt | rfl
    · exact .inl (hlt.trans_le hle)
    · -- Apply was called for the request in memory: the same revision has the same content
      rcases hle.lt_or_eq with hlt | hrev
      · exact .inl hlt
      · exact .inr (h.same_request he hfresh hrev.symm)

/-- events of cluster joins -/
theorem FenceMem.cons {s : SavedState H} (h : FenceMem x s w) {a : Event H} (ha : Allowed x w.log a)
    (hp : ∀ s, a ≠ .persisted s) (hr : ∀ s, a ≠ .reported s) (hi : ∀ e, a ≠ .invoked e) :
    FenceMem x s { w with log := a :: w.log } where
  versions v hv := (h.versions v hv).cons (fun s e => absurd e (hp s)) (fun s e => absurd e (hr s))
    fun e he => absurd he (hi e)
  sound := ⟨ha, h.sound⟩
  fits := h.fits.cons (fun s e => absurd e (hp s)) (fun s e => absurd e (hr s)) fun e he => absurd he (hi e)
  digest := h.digest
  shown := List.mem_cons_of_mem _ h.shown

end Steps

/-! ## Carrying out an update -/

/-- the intent is the only version of the file and its status is shown -/
structure Enforcing (x : Env H) (intent : SavedState H) (w : World H) : Prop where
  versions : w.state.versions = [some intent]
  fits : Fits x intent w.log
  sound : Sound x w.log
  shown : .reported intent ∈ w.log
  persisted : .persisted intent ∈ w.log
  applying : intent.outcome = .applying
  digest : intent.digest = some (x.digest intent.request)

section Enforcing
variable {w : World H} {intent : SavedState H}

theorem Enforcing.inv (h : Enforcing x intent w) : FenceInv x w :=
  ⟨fun v hv => by rw [h.versions, List.mem_singleton] at hv; subst hv; exact h.fits, h.sound⟩

theorem Enforcing.mem (h : Enforcing x intent w) : FenceMem x intent w := ⟨h.inv, h.fits, fun _ => h.digest, h.shown⟩

/-- any event that is neither a status nor a call of Apply -/
theorem Enforcing.cons (h : Enforcing x intent w) {a : Event H} (ha : Allowed x w.log a) (hp : ∀ s, a ≠ .persisted s)
    (hr : ∀ s, a ≠ .reported s) (hi : ∀ e, a = .invoked e → e = intent.request) : Enforcing x intent { w with log := a :: w.log } where
  versions := h.versions
  fits := h.fits.cons (fun s e => absurd e (hp s)) (fun s e => absurd e (hr s)) fun e he => .inr (hi e he)
  sound := ⟨ha, h.sound⟩
  shown := List.mem_cons_of_mem _ h.shown
  persisted := List.mem_cons_of_mem _ h.persisted
  applying := h.applying
  digest := h.digest

/-- Apply is called for a durable intent, for the only content of its revision, and not after a 200 -/
theorem Enforcing.invoke (h : Enforcing x intent w) :
    Enforcing x intent { w with log := .invoked intent.request :: w.log } := by
  refine h.cons ⟨⟨intent, h.persisted, rfl⟩, fun e he hrev => ?_, fun e he hrev => ?_,
    fun s hs => hs.elim (h.fits.accepted s) (h.fits.persisted s)⟩ nofun nofun fun e he => ?_
  · exact (h.fits.invoked e he).resolve_left fun hlt => absurd hrev hlt.ne
  · obtain ⟨s, hs, hout, hsrev⟩ := h.sound.answered he
    rcases h.fits.done s hs hout with hlt | ⟨-, hout'⟩
    · exact hlt.ne (hsrev ▸ hrev)
    · rw [h.applying] at hout'
      cases hout'
  · exact (Event.invoked.inj he).symm

/-- the state after enforcement fits as well -/
theorem Enforcing.concluded (h : Enforcing x intent w) (result : Option KubernetesResult × Bool)
    (hok : result.2 = true → Enforced x intent.request result.1 w.log) : Fits x (intent.concluded result) w.log := by
  refine h.fits.relabel rfl ?_ ?_ (by rw [h.applying]; decide) fun ho => hok ?_
  · simp only [SavedState.concluded]
    split_ifs
    · exact h.fits.bounded
    · exact le_rfl
  · simp only [SavedState.concluded]
    split_ifs
    · exact le_rfl
    · exact h.fits.bounded
  · simp only [SavedState.concluded] at ho
    split_ifs at ho with hr
    exact hr

/-- the outcome is on the disk, and its status is shown -/
theorem conclude_stored (h : Enforcing x intent w) {result : Option KubernetesResult × Bool}
    (hok : result.2 = true → Enforced x intent.request result.1 w.log) :
    FenceMem x (intent.concluded result)
      (perform (.publish (intent.concluded result)) true (perform (.persist (intent.concluded result)) .synced w)) := by
  have hfits : Fits x (intent.concluded result) (.persisted (intent.concluded result) :: w.log) :=
    (h.concluded result hok).cons (fun s e => by obtain rfl := Event.persisted.inj e; exact le_rfl) nofun nofun
  refine ⟨⟨fun v hv => ?_, hfits.allowed, trivial, h.sound⟩, hfits.self, fun _ => h.digest, List.mem_cons_self⟩
  obtain rfl : v = some (intent.concluded result) := by simpa [perform] using hv
  exact hfits.self

/-- the outcome may be on the disk, but counts as interrupted -/
theorem conclude_lost (h : Enforcing x intent w) {result : Option KubernetesResult × Bool}
    (hok : result.2 = true → Enforced x intent.request result.1 w.log) {r : Write} (hr : r.ok = false) :
    FenceMem x { intent.concluded result with outcome := .interrupted, appliedRevision := intent.appliedRevision }
      (perform (.publish { intent.concluded result with outcome := .interrupted, appliedRevision := intent.appliedRevision })
        true (perform (.persist (intent.concluded result)) r w)) := by
  have hfits : Fits x { intent.concluded result with outcome := .interrupted, appliedRevision := intent.appliedRevision }
      w.log := h.fits.relabel rfl le_rfl h.fits.bounded (by rw [h.applying]; decide) nofun
  have hfinal := h.concluded result hok
  have hinv : FenceInv x (perform (.persist (intent.concluded result)) r w) := by
    simpa [perform, hr] using h.inv.write hfinal r
  refine ⟨hinv.report (by simpa [perform, hr] using hfits) fun v hv => ?_, ?_, fun _ => h.digest, List.mem_cons_self⟩
  · -- both versions carry the request that is shown, and neither applied revision is below
    have hle : intent.appliedRevision ≤ (v.getD {}).appliedRevision ∧ (v.getD {}).request = intent.request := by
      have hcases : v = some (intent.concluded result) ∨ v = some intent := by
        cases r with
        | synced => cases hr
        | failed => exact .inr (by simpa [perform, h.versions] using hv)
        | renamed => simpa [perform, h.versions] using hv
      rcases hcases with rfl | rfl
      · refine ⟨?_, rfl⟩
        simp only [Option.getD_some, SavedState.concluded]
        split_ifs
        · exact h.fits.bounded
        · exact le_rfl
      · exact ⟨le_rfl, rfl⟩
    refine (hinv.versions v hv).cons nofun (fun s' e => ?_) nofun
    obtain rfl := Event.reported.inj e
    exact ⟨(congrArg ExpectedHostState.revision hle.2).ge, hle.1, nofun⟩
  · have := hfits.self
    simpa [perform, hr] using this

end Enforcing

/-! ## The handlers -/

variable [DecidableEq H]

abbrev Maintained {α : Type} (x : Env H) (post : α → World H → Prop) (p : Handler H α) (w : World H) : Prop :=
  (service x).Maintains (FenceInv x) (FenceDown x) post p w

section Handlers
variable {w : World H} {α : Type} {post : α → World H → Prop} {s intent : SavedState H}

/-- a crash leaves one of the versions -/
theorem FenceInv.crash (h : FenceInv x w) (k : Crash) : FenceDown x ((service x).crash k none w) :=
  ⟨rfl, fun v hv => h.versions v (File.mem_versions_recover hv), h.sound⟩

theorem FenceInv.guard {q : Effect H} (h : FenceInv x w) (hb : FenceInv x (begin q w)) :
    (service x).Guard (FenceInv x) (FenceDown x) q w := by
  refine ⟨h, fun k => ?_⟩
  cases hk : k.begun with
  | true => simpa [service, Subd.crash, hk] using hb.crash k
  | false => simpa [service, Subd.crash, hk] using h.crash k

theorem maintained_ask {q : Effect H} {k : q.Answer → Handler H α} (h : FenceInv x w) (hb : FenceInv x (begin q w))
    (hk : ∀ r, Maintained x post (k r) (perform q r w)) : Maintained x post (.ask q k) w :=
  ⟨h.guard hb, hk⟩

theorem maintained_refuse {e : ExpectedHostState} {code : ℕ} (hc : code ≠ 200) (h : FenceMem x s w) :
    Maintained x (FenceMem x) (ask (.respond (.update e code none)) >>= fun _ => .ret s) w :=
  maintained_ask h.toFenceInv h.toFenceInv fun _ => h.refuse e hc

theorem enforce_maintained (h : Enforcing x intent w) :
    Maintained x (fun result w => Enforcing x intent w ∧ (result.2 = true → Enforced x intent.request result.1 w.log))
      (enforce x intent.request) w := by
  refine maintained_ask h.inv h.invoke.inv fun ok => ?_
  cases ok with
  | false => exact ⟨h.invoke, by simp⟩
  | true =>
    have happlied : Enforcing x intent (perform (.apply intent.request) true w) :=
      h.invoke.cons trivial (by simp) (by simp) (by simp)
    cases hs : intent.request.secret with
    | none => exact ⟨happlied, fun _ => ⟨⟨List.mem_cons_self, by simp [hs]⟩, by simp [hs]⟩⟩
    | some secret =>
      show Maintained x _ (if x.secrets then _ else _) _
      split_ifs
      · refine maintained_ask happlied.inv happlied.inv fun r => ?_
        cases r with
        | error k => exact ⟨happlied, by simp⟩
        | ok u =>
          refine ⟨happlied.cons trivial (by simp) (by simp) (by simp), fun _ => ⟨⟨List.mem_cons_of_mem _ List.mem_cons_self, ?_⟩, ?_⟩⟩
          · intro s' hs'
            obtain rfl : secret = s' := Option.some.inj (hs ▸ hs')
            exact List.mem_cons_self
          · simp [hs]
      · exact ⟨happlied, by simp⟩

theorem conclude_maintained (h : Enforcing x intent w) {result : Option KubernetesResult × Bool}
    (hok : result.2 = true → Enforced x intent.request result.1 w.log) :
    Maintained x (FenceMem x) (conclude intent result) w := by
  refine maintained_ask h.inv (h.inv.write (h.concluded result hok) .renamed) fun r => ?_
  show Maintained x _ (if r.ok then _ else _) _
  cases hr : r.ok with
  | true =>
    obtain rfl : r = .synced := by cases r <;> simp_all [Write.ok]
    have hstored := conclude_stored h hok
    rw [if_pos rfl]
    refine maintained_ask ?_ hstored.toFenceInv fun published => ?_
    · have hinv := h.inv.write (h.concluded result hok) .synced
      refine ⟨fun v hv => ?_, trivial, h.sound⟩
      obtain rfl : v = some (intent.concluded result) := by simpa [perform] using hv
      exact (hinv.versions _ hv).cons (fun s e => by obtain rfl := Event.persisted.inj e; exact le_rfl) nofun nofun
    · cases published with
      | false => exact maintained_refuse (by decide) hstored
      | true =>
        show Maintained x _ (if result.2 then _ else _) _
        cases hres : result.2 with
        | true =>
          have hout : (intent.concluded result).outcome = .applied := by simp [SavedState.concluded, hres]
          exact maintained_ask hstored.toFenceInv hstored.toFenceInv fun _ => hstored.accept hout rfl
        | false =>
          refine maintained_ask hstored.toFenceInv hstored.toFenceInv fun _ => ?_
          show FenceMem x _ _
          cases hsec : intent.request.secret.isSome with
          | true => simpa [perform, Reply.events, hsec] using hstored.again.refuse intent.request (show 500 ≠ 200 by decide)
          | false => simpa [perform, Reply.events, hsec] using hstored.refuse intent.request (show 500 ≠ 200 by decide)
  | false =>
    have hlost := conclude_lost h hok hr
    rw [if_neg (by decide)]
    refine maintained_ask ?_ hlost.toFenceInv fun _ => maintained_refuse (by decide) hlost
    simpa [perform, hr] using h.inv.write (h.concluded result hok) r

theorem carryOut_maintained (h : FenceMem x s w) {e : ExpectedHostState}
    (hfits : Fits x (s.intent x e) w.log) :
    Maintained x (FenceMem x) (carryOut x s e) w := by
  refine maintained_ask h.toFenceInv (h.toFenceInv.write hfits .renamed) fun r => ?_
  show Maintained x _ (if r.ok then _ else _) _
  cases hr : r.ok with
  | false =>
    have hmem : FenceMem x s (perform (.persist (s.intent x e)) r w) := by
      have hinv := h.toFenceInv.write hfits r
      exact ⟨by simpa [perform, hr] using hinv, by simpa [perform, hr] using h.fits, h.digest,
        by simpa [perform, hr] using h.shown⟩
    exact maintained_refuse (by decide) hmem
  | true =>
    obtain rfl : r = .synced := by cases r <;> simp_all [Write.ok]
    have hpersisted : Fits x (s.intent x e)
        (.persisted (s.intent x e) :: w.log) :=
      hfits.cons (fun a ha => by obtain rfl := Event.persisted.inj ha; exact le_rfl) nofun nofun
    have hinv : FenceInv x (perform (.persist (s.intent x e)) .synced w) := by
      refine ⟨fun v hv => ?_, trivial, h.sound⟩
      obtain rfl : v = some (s.intent x e) := by simpa [perform] using hv
      exact hpersisted
    have henforcing : Enforcing x (s.intent x e)
        (perform (.publish (s.intent x e)) true
          (perform (.persist (s.intent x e)) .synced w)) :=
      ⟨rfl, hpersisted.self, ⟨hpersisted.allowed, trivial, h.sound⟩, List.mem_cons_self,
        List.mem_cons_of_mem _ List.mem_cons_self, rfl, rfl⟩
    refine maintained_ask hinv henforcing.inv fun published => ?_
    cases published with
    | false => exact maintained_refuse (by decide) henforcing.mem
    | true =>
      show Maintained x _ ((enforce x e).bind (conclude (s.intent x e))) _
      refine Service.Maintains.bind (Service.Maintains.mono ?_ (enforce_maintained henforcing))
      rintro result w' ⟨hw', hok⟩
      exact conclude_maintained hw' hok

theorem updateState_maintained (h : FenceMem x s w) (u : Option HostStateUpdate) :
    Maintained x (FenceMem x) (updateState x s u) w := by
  unfold updateState
  cases hu : u.bind HostStateUpdate.accepted with
  | none => exact maintained_ask h.toFenceInv h.toFenceInv fun _ => h
  | some e =>
    have hrev : e.revision ≠ 0 := by
      obtain ⟨u', -, hu'⟩ := Option.bind_eq_some_iff.mp hu
      exact accepted_revision hu'
    refine maintained_ask h.toFenceInv h.toFenceInv fun cancelled => ?_
    cases cancelled with
    | true => exact maintained_refuse (by decide) h
    | false =>
      show Maintained x _ (if _ then _ else if _ then _ else _) _
      split_ifs with hconflict hreplay
      · exact maintained_refuse (by decide) h
      · exact maintained_ask h.toFenceInv h.toFenceInv fun _ =>
          h.accept hreplay.2 (h.same_request hrev hconflict hreplay.1)
      · exact carryOut_maintained h (h.fits_intent hrev hconflict hreplay)

/-- the effects of cluster joins and membership challenges -/
def Effect.aside : Effect H → Prop
  | .persistJoin _ | .joinCluster _ | .clusterMembership _ _ => True
  | .respond (.join _ _) | .respond (.membership _) | .respond .badRequest => True
  | _ => False

theorem FenceMem.aside {q : Effect H} (hq : q.aside) (h : FenceMem x s w) :
    (service x).Guard (FenceInv x) (FenceDown x) q w ∧ ∀ r, FenceMem x s ((service x).perform q r w) := by
  cases q with
  | persistJoin j => exact ⟨h.guard ⟨h.versions, h.sound⟩, fun r => ⟨⟨h.versions, h.sound⟩, h.fits, h.digest, h.shown⟩⟩
  | joinCluster r =>
    have hjoining : FenceMem x s { w with log := .joining r :: w.log } := h.cons trivial nofun nofun nofun
    refine ⟨h.guard hjoining.toFenceInv, fun ok => ?_⟩
    cases ok with
    | false => exact hjoining
    | true => exact hjoining.cons trivial nofun nofun nofun
  | clusterMembership m c =>
    have hproving : FenceMem x s { w with log := .proving m :: w.log } := h.cons trivial nofun nofun nofun
    exact ⟨h.guard hproving.toFenceInv, fun _ => hproving⟩
  | respond r =>
    refine ⟨h.guard h.toFenceInv, fun _ => ?_⟩
    cases r with
    | update e c b => exact hq.elim
    | join r c => exact h
    | membership c => exact h
    | badRequest => exact h
  | context => exact hq.elim
  | persist s => exact hq.elim
  | publish s => exact hq.elim
  | apply e => exact hq.elim
  | ensureSecret t s => exact hq.elim

omit [DecidableEq H] in
theorem joinContract_aside (j : ClusterJoinState H) (r : ClusterJoinRequest) :
    (joinContract x j r).Goes Effect.aside := by
  unfold joinContract
  split_ifs
  · refine ⟨trivial, fun w => ?_⟩
    cases w with
    | failed => exact ⟨trivial, fun _ => trivial⟩
    | renamed => exact ⟨trivial, fun _ => trivial⟩
    | synced =>
      refine ⟨trivial, fun ok => ?_⟩
      cases ok with
      | false => exact ⟨trivial, fun _ => ⟨trivial, fun _ => trivial⟩⟩
      | true =>
        refine ⟨trivial, fun w => ?_⟩
        cases w <;> exact ⟨trivial, fun _ => trivial⟩
  · exact ⟨trivial, fun _ => trivial⟩

theorem clusterJoin_aside (join : Option (ClusterJoinState H)) (r : Option ClusterJoinRequest) :
    (clusterJoin x join r).Goes Effect.aside := by
  unfold clusterJoin
  split
  · exact ⟨trivial, fun _ => trivial⟩
  · split
    · exact joinContract_aside _ _
    · split_ifs
      · exact ⟨trivial, fun _ => trivial⟩
      · exact joinContract_aside _ _

omit [DecidableEq H] in
theorem clusterMembership_aside (join : Option (ClusterJoinState H)) (challenge : Option String) :
    (clusterMembership x join challenge).Goes Effect.aside := by
  unfold clusterMembership
  split
  · exact ⟨trivial, fun _ => trivial⟩
  · split
    · exact ⟨trivial, fun _ => trivial⟩
    · refine ⟨trivial, fun ok => ?_⟩
      cases ok <;> exact ⟨trivial, fun _ => trivial⟩

theorem newServer_saved {m : Memory H} (h : newServer x w = some m) :
    m.saved = { w.state.current.getD {} with outcome := (w.state.current.getD {}).outcome.resumed } ∧
      (m.saved.request.revision ≠ 0 → m.saved.digest = some (x.digest m.saved.request)) := by
  unfold newServer at h
  obtain ⟨saved, hsaved, h⟩ := Option.bind_eq_some_iff.mp h
  obtain ⟨join, -, h⟩ := Option.bind_eq_some_iff.mp h
  obtain rfl : (⟨saved, join⟩ : Memory H) = m := Option.some.inj h
  cases hc : w.state.current with
  | none =>
    obtain rfl : {} = saved := by simpa [hc, loadSaved] using hsaved
    exact ⟨rfl, fun hne => absurd rfl hne⟩
  | some s =>
    rw [hc] at hsaved
    simp only [loadSaved, SavedState.load] at hsaved
    split_ifs at hsaved with hload
    obtain rfl := Option.some.inj hsaved
    exact ⟨rfl, fun _ => hload.2.1⟩

theorem boot_maintained (h : FenceDown x w) : Maintained x (fun m w => FenceMem x m.saved w) (boot x w) w := by
  obtain ⟨hone, hinv⟩ := h
  unfold boot
  cases hm : newServer x w with
  | none => exact ⟨hone, hinv⟩
  | some m =>
    obtain ⟨hsaved, hdigest⟩ := newServer_saved hm
    have hcurrent := hinv.versions w.state.current List.mem_cons_self
    have hfits : Fits x m.saved w.log := hsaved ▸ hcurrent.resumed
    have hmem : FenceMem x m.saved { w with log := .reported m.saved :: w.log } := by
      refine ⟨hinv.report hfits fun v hv => ?_, hfits.self, hdigest, List.mem_cons_self⟩
      -- the only version is the one that was loaded
      obtain rfl : v = w.state.current := by simpa [File.versions, hone] using hv
      refine hcurrent.cons (by simp) (fun s' e => ?_) (by simp)
      obtain rfl := Event.reported.inj e
      rw [hsaved]
      refine ⟨le_rfl, le_rfl, fun hout => .inr ⟨rfl, ?_⟩⟩
      cases ho : (w.state.current.getD {}).outcome <;> simp_all [Outcome.resumed]
    refine maintained_ask hinv hmem.toFenceInv fun published => ?_
    cases published with
    | true => exact hmem
    | false => exact ⟨hone, hmem.toFenceInv⟩

theorem fence_keeps : (service x).Keeps (FenceInv x) (FenceDown x) fun m w => FenceMem x m.saved w where
  down h := ⟨h.2, h.2.crash⟩
  ready h := ⟨h.toFenceInv, h.toFenceInv.crash⟩
  boot := boot_maintained
  handle c h := by
    cases c with
    | update u => exact Service.Maintains.bind (Service.Maintains.mono (fun _ _ h => h) (updateState_maintained h u))
    | clusterJoin r =>
      refine Service.Maintains.bind ?_
      exact Service.maintains_of_asks (clusterJoin_aside _ r) (fun q w hq hw => hw.aside hq) (fun _ _ h => h) h
    | clusterMembership c =>
      refine Service.Maintains.bind ?_
      exact Service.maintains_of_asks (clusterMembership_aside _ c) (fun q w hq hw => hw.aside hq) (fun _ _ h => h) h

end Handlers

/-! ## The revision fence -/

/-- what the log of an agent guarantees; newer events stand before older ones -/
structure RevisionFence (x : Env H) (log : List (Event H)) : Prop where
  /-- the revisions shown never decrease -/
  monotone : log.Pairwise fun later earlier => ∀ s s', later = .reported s → earlier = .reported s' →
    (s'.status x).acceptedRevision ≤ (s.status x).acceptedRevision ∧
      (s'.status x).appliedRevision ≤ (s.status x).appliedRevision
  /-- Apply is called for at most one content of a revision -/
  oneContent : ∀ e e', .invoked e ∈ log → .invoked e' ∈ log → e.revision = e'.revision → e = e'
  /-- and only after that request was durably written as the intent -/
  intended : ∀ post pre e, log = post ++ .invoked e :: pre → ∃ s, .persisted s ∈ pre ∧ s.request = e
  /-- an outcome applied or an expected version is shown only after success for exactly that content -/
  applied : ∀ post pre s, log = post ++ .reported s :: pre →
    (s.status x).outcome = .applied ∨ (s.status x).expectedVersion ≠ "" → Succeeded x s.request pre
  /-- after a 200 Apply is not called for that revision again -/
  final : ∀ post pre e e', log = post ++ .invoked e :: pre → .answered e' 200 ∈ pre → e'.revision ≠ e.revision

omit [DecidableEq H] in
theorem Sound.monotone {log : List (Event H)} (h : Sound x log) :
    log.Pairwise fun later earlier => ∀ s s', later = .reported s → earlier = .reported s' →
      (s'.status x).acceptedRevision ≤ (s.status x).acceptedRevision ∧
        (s'.status x).appliedRevision ≤ (s.status x).appliedRevision := by
  induction log with
  | nil => exact .nil
  | cons a log ih =>
    refine .cons (fun b hb s s' ha hb' => ?_) (ih h.2)
    subst ha hb'
    exact h.1.1 s' hb

omit [DecidableEq H] in
theorem Sound.oneContent {log : List (Event H)} (h : Sound x log) {e e' : ExpectedHostState} (he : .invoked e ∈ log)
    (he' : .invoked e' ∈ log) (hrev : e.revision = e'.revision) : e = e' := by
  induction log with
  | nil => cases he
  | cons a log ih =>
    rcases List.mem_cons.mp he with rfl | hold
    · rcases List.mem_cons.mp he' with heq | hold'
      · exact (Event.invoked.inj heq).symm
      · exact (h.1.2.1 e' hold' hrev.symm).symm
    · rcases List.mem_cons.mp he' with rfl | hold'
      · exact h.1.2.1 e hold hrev
      · exact ih h.2 hold hold'

omit [DecidableEq H] in
theorem fence_init : FenceDown x ({} : World H) := by
  refine ⟨rfl, fun v hv => ?_, trivial⟩
  obtain rfl : v = none := by simpa [File.versions] using hv
  constructor <;> simp

/-- the log of every run is sound -/
theorem sound_run (x : Env H) (acts : List (Act H)) : Sound x (run x acts).world.log :=
  (fence_keeps.world (fence_keeps.run fence_init acts)).sound

/-- **Subd's revision fence survives failures and restarts.** For every sequence of updates and joins, every answer of
the host and of the files, every crash and restart. -/
theorem revision_fence (x : Env H) (acts : List (Act H)) : RevisionFence x (run x acts).world.log := by
  have hsound := sound_run x acts
  refine ⟨hsound.monotone, fun e e' => hsound.oneContent, fun post pre e hlog => ?_, fun post pre s hlog hs => ?_,
    fun post pre e e' hlog => ?_⟩
  · rw [hlog] at hsound
    exact hsound.allowed.1
  · rw [hlog] at hsound
    refine (hsound.allowed.2 (hs.elim id fun hv => ?_)).1
    by_contra hout
    exact hv (if_neg fun h => hout h.1)
  · rw [hlog] at hsound
    exact hsound.allowed.2.2.1 e'

namespace Sample

def wanted : ExpectedHostState := { revision := 1, imageId := "img", track := "stable", version := "v1" }

def intent : SavedState Digest := SavedState.intent env {} wanted

def final : SavedState Digest := intent.concluded (none, true)

/-- the outcome of revision 1 is renamed into place, but its write reports an error and the agent crashes -/
def lostOutcome : List (Act Digest) :=
  [.start, .answer (.publish {}) true, .call (.update (some (update wanted))), .answer .context false,
    .answer (.persist intent) .synced, .answer (.publish intent) true, .answer (.apply wanted) true,
    .answer (.persist final) .renamed]

end Sample

-- a crash that keeps the renamed outcome: the restarted agent shows it as applied and answers a retry without Apply
example : (run Sample.env (Sample.lostOutcome ++ [.crash ⟨false, 0, 0⟩, .start, .answer (.publish Sample.final) true,
    .call (.update (some (update Sample.wanted))), .answer .context false,
    .answer (.respond (.update Sample.wanted 200 (some Sample.final))) ()])).world.log.take 2 =
      [.answered Sample.wanted 200, .reported Sample.final] := by
  decide +kernel

-- a crash that brings the intent back: the revision counts as interrupted, and a retry applies it again
example : (run Sample.env (Sample.lostOutcome ++ [.crash ⟨false, 1, 0⟩, .start])).process.pending =
    some (.publish { Sample.intent with outcome := .interrupted }) := by
  decide +kernel

end Crane.Subd
