/-
The store under concurrent transactions: any number of calls of `Calls`, each executed statement by statement under row
locks (`Crane.Lib.Interleave`), with the clock moving in between. Here are the machine at the store's types, the proof
rules for the statements that several calls share, and the topology, which no interleaving changes.
-/
import Crane.Capacity.Admissions
import Crane.Capacity.Writes
import Crane.Lib.Interleave

namespace Crane.Capacity

open Tx RowStore Interleave

/-- the committed database and the ended calls -/
abbrev StoreWorld := Interleave.World DB Err Reply Call

abbrev StoreAct := Interleave.Act Bool Call ℕ

abbrev StoreProtocol := Protocol DB Key Row Err Operation Reply Call

/-- the calls of the store interleaved in the order of `acts`, from a catalog -/
def concurrently (x : Externals) (cat : Catalog) (acts : List StoreAct) :
    Interleave.Sys DB Key Row Err Operation Bool Reply Call :=
  Interleave.run (code x) DB.tick (Interleave.start cat.db) acts

theorem DB.look_tick (n : ℕ) (d : DB) (k : Key) : (d.tick n).look k = d.look k := by cases k <;> rfl

section Rules
variable {P : StoreProtocol} {c : Call} {γ : Type} {Q : γ → Set Key → List Row → StoreWorld → Prop}
  {E : Err → Set Key → StoreWorld → Prop} {h : Set Key} {ws : List Row} {w : StoreWorld}

/-- the group row is locked, and the policy was read under that lock -/
theorem wp_loadPolicy_bind {id : String} {f : Policy → StoreTx γ}
    (hE : ∀ w', P.Rely h w w' → P.Inv w' → policyOf (putAll ws w'.db) id = none → E .noRows h w')
    (hf : ∀ w' p, P.Rely h w w' → P.Inv w' → policyOf (putAll ws w'.db) id = some p →
      WP P c Q E (f p) (h ∪ {.nodeGroup p.group.id}) ws w') :
    WP P c Q E ((loadPolicy id).bind f) h ws w := by
  refine wp_bind (wp_selectForUpdate_bind fun w' hr hi => ?_)
  cases hp : policyOf (putAll ws w'.db) id with
  | none => simpa [WP, orFail] using hE w' hr hi hp
  | some p => simpa [WP, orFail] using hf w' p hr hi hp

/-- the use of the pool is read between two points of the holder's interference -/
theorem wp_checkReservations {p : Policy} {nodes : ℤ} {Q : Unit → Set Key → List Row → StoreWorld → Prop}
    (hE : ∀ w', P.Rely h w w' → E .limit h w')
    (hf : ∀ w', P.Rely h w w' → P.Inv w' → Fits p (usedBy (putAll ws w'.db) p.group.nodePoolId) nodes → Q () h ws w') :
    WP P c Q E (checkReservations p nodes) h ws w := by
  refine wp_require_bind (fun _ => hE w (.refl h w)) fun hdiv => wp_select_bind fun w' hr hi => ?_
  unfold require
  split_ifs with hfit
  · exact hf w' hr hi ⟨hdiv, hfit⟩
  · exact hE w' hr

/-- an UPDATE of exactly one row -/
theorem wp_updateOne {q : DB → Option Row} {e : Err} {Q : Unit → Set Key → List Row → StoreWorld → Prop}
    (hE : ∀ h' w', E e h' w')
    (hQ : ∀ w' r, P.Rely h w w' → P.Inv w' → q (putAll ws w'.db) = some r → Q () (h ∪ {r.key}) (ws ++ [r]) w') :
    WP P c Q E (updateOne q e) h ws w := by
  refine wp_update_bind fun w' hr hi => wp_require (fun _ => hE _ _) fun hone => ?_
  cases hq : q (putAll ws w'.db) with
  | none => simp [hq] at hone
  | some r => simpa [Set.ofPred_eq_eq_singleton] using hQ w' r hr hi hq

end Rules

/-! ## Topology -/

/-- no row of the topology appears or vanishes, and groups stay where they are -/
structure SameTopology (cat : Catalog) (d : DB) : Prop where
  groups : ∀ i, (d.nodeGroups.find i).map NodeGroup.fixed = (cat.nodeGroups.find i).map NodeGroup.fixed
  pools : ∀ i, (d.nodePools.find i).isSome = (cat.nodePools.find i).isSome
  zones : ∀ i, (d.zones.find i).isSome = (cat.zones.find i).isSome
  clusters : ∀ i, (d.clusters.find i).isSome = (cat.clusters.find i).isSome
  memberships : ∀ i, (d.clusterZones.find i).isSome = (cat.clusterZones.find i).isSome

section Topology
variable {cat : Catalog} {d : DB} {x : Externals} {c : Call}

theorem SameTopology.put (h : SameTopology cat d) {r : Row} (hr : Follows x c (d.look r.key) r) :
    SameTopology cat (d.put r) := by
  cases r with
  | nodeGroup g' =>
    obtain ⟨g, hg, hf, -⟩ := hr.step
    have hg : d.nodeGroups.find g'.id = some g := by simpa [DB.look, Row.key] using hg
    exact { h with groups := fun i => (Table.map_find_put g' _ hg hf i).trans (h.groups i) }
  | nodePool p' =>
    obtain ⟨p, hp, -⟩ := hr.step
    have hp : d.nodePools.find p'.id = some p := by simpa [DB.look, Row.key] using hp
    exact { h with pools := fun i => (Table.isSome_find_put p' hp i).trans (h.pools i) }
  | zone z' =>
    obtain ⟨z, hz, -⟩ := hr.step
    have hz : d.zones.find z'.id = some z := by simpa [DB.look, Row.key] using hz
    exact { h with zones := fun i => (Table.isSome_find_put z' hz i).trans (h.zones i) }
  | cluster k' =>
    obtain ⟨k, hk⟩ := hr.step
    have hk : d.clusters.find k'.id = some k := by simpa [DB.look, Row.key] using hk
    exact { h with clusters := fun i => (Table.isSome_find_put k' hk i).trans (h.clusters i) }
  | clusterZone m' =>
    obtain ⟨m, hm⟩ := hr.step
    have hm : d.clusterZones.find m'.key = some m := by simpa [DB.look, Row.key] using hm
    exact { h with memberships := fun i => (Table.isSome_find_put m' hm i).trans (h.memberships i) }
  | _ => exact { h with }

theorem SameTopology.putAll (h : SameTopology cat d) {ws : List Row} (hf : Follow (Follows x c) d ws) :
    SameTopology cat (putAll ws d) :=
  hf.keeps (fun _ _ hr hd => hd.put hr) h

theorem SameTopology.clusterId (h : SameTopology cat d) (g : String) :
    (d.nodeGroups.find g).map NodeGroup.clusterId = (cat.nodeGroups.find g).map NodeGroup.clusterId := by
  have := congrArg (Option.map Prod.fst) (h.groups g)
  simpa [NodeGroup.fixed, Function.comp_def] using this

theorem policyOf_isSome {d : DB} {g : String} : (policyOf d g).isSome = true ↔ ∃ a, d.nodeGroups.find g = some a ∧
    (d.nodePools.find a.nodePoolId).isSome = true ∧ (d.zones.find a.zoneId).isSome = true ∧
    (d.clusters.find a.clusterId).isSome = true ∧ (d.clusterZones.find (a.clusterId, a.zoneId)).isSome = true := by
  simp only [policyOf, Option.bind_eq_bind, Option.isSome_iff_exists, Option.bind_eq_some_iff]
  constructor
  · rintro ⟨p, a, ha, q, hq, z, hz, k, hk, m, hm, -⟩
    exact ⟨a, ha, ⟨q, hq⟩, ⟨z, hz⟩, ⟨k, hk⟩, ⟨m, hm⟩⟩
  · rintro ⟨a, ha, ⟨q, hq⟩, ⟨z, hz⟩, ⟨k, hk⟩, ⟨m, hm⟩⟩
    exact ⟨_, a, ha, q, hq, z, hz, k, hk, m, hm, rfl⟩

/-- whether a group can be loaded is decided by the catalog -/
theorem SameTopology.policyOf (h : SameTopology cat d) (g : String) :
    (policyOf d g).isSome = true ↔ (policyOf cat.db g).isSome = true := by
  rw [policyOf_isSome, policyOf_isSome]
  constructor
  · rintro ⟨a, ha, hp, hz, hc, hm⟩
    obtain ⟨b, hb, hf⟩ := exists_of_map_eq (h.groups g) ha
    simp only [NodeGroup.fixed, Prod.mk.injEq] at hf
    rw [h.pools] at hp
    rw [h.zones] at hz
    rw [h.clusters] at hc
    rw [h.memberships] at hm
    rw [← hf.1] at hc hm
    rw [← hf.2.1] at hz hm
    rw [← hf.2.2.1] at hp
    exact ⟨b, hb, hp, hz, hc, hm⟩
  · rintro ⟨b, hb, hp, hz, hc, hm⟩
    obtain ⟨a, ha, hf⟩ := exists_of_map_eq (h.groups g).symm hb
    simp only [NodeGroup.fixed, Prod.mk.injEq] at hf
    refine ⟨a, ha, ?_, ?_, ?_, ?_⟩
    · rw [h.pools, hf.2.2.1]
      exact hp
    · rw [h.zones, hf.2.1]
      exact hz
    · rw [h.clusters, hf.1]
      exact hc
    · rw [h.memberships, hf.1, hf.2.1]
      exact hm

end Topology

end Crane.Capacity
