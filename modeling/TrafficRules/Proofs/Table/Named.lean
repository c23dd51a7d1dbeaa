import TrafficRules.Proofs.Table.Identity
/-!
# Named — flow-keyed rules with an id

A flow-keyed rule with an id answers to its id, under whatever key it is stored.  An addition looks for the rule of its
id in one chain only, that of its own hash.  So an id is stored once under each hash, and it is stored under two from
the moment a rule of the id is added with a tuple of another hash (`named_id_stored_twice`); nothing else makes two
rules share an id (`named_ids_unique_iff`).
-/
namespace TrafficRules
namespace Table

/-- No two stored flow-keyed rules share an id a caller gave. -/
def IdsUnique (t : Table) : Prop :=
  ∀ i, i ≠ noRuleId → (t.rules.filter fun r => r.classifier == .ifli && r.id == i).length ≤ 1

/-- The rule is stored with an id that a rule under another hash has. -/
def Strays (t : Table) (r : Rule) : Prop :=
  r.classifier = .ifli ∧ r.id ≠ noRuleId ∧ (∃ o, (t.add r).result = .ok o) ∧
    ∃ y ∈ t.rules, y.classifier = .ifli ∧ y.id = r.id ∧ y.key ≠ r.key

/-- The stored flow-keyed nodes of an id. -/
def namedCount (t : Table) (i : UInt32) : Nat := t.store.nodes.countP ((Selector.id i).names .ifli)

theorem idsUnique_iff {t : Table} : IdsUnique t ↔ ∀ i, i ≠ noRuleId → t.namedCount i ≤ 1 := by
  refine forall₂_congr fun i _ => ?_
  unfold rules namedCount
  rw [← List.countP_eq_length_filter, List.countP_map]
  rfl

/-- An incoming node with an id stands for the nodes of its id in the chain of its hash. -/
theorem sameIdentity_iff_of_named {i : UInt32} (hi : i ≠ noRuleId) {n : Node} (hn : (Selector.id i).names .ifli n = true)
    (m : Node) : m.sameIdentity n = true ↔ (Selector.id i).names .ifli m = true := by
  obtain ⟨hc, rfl⟩ := names_id_iff.1 hn
  rw [names_id_iff, Node.sameIdentity_iff, if_neg (fun h => hi h.2), hc]

theorem countP_named_key_le_one {t : Table} (h : Reachable t) {i : UInt32} (hi : i ≠ noRuleId) (k : UInt32) :
    t.store.nodes.countP (fun n => (Selector.id i).names .ifli n && n.key == k) ≤ 1 := by
  refine h.countP_le_one (fun n hn m => ?_)
  rw [Bool.and_eq_true, beq_iff_eq] at hn
  rw [Bool.and_eq_true, beq_iff_eq, sameIdentity_iff_of_named hi hn.1, hn.2, and_comm]

/-! ## One addition -/

section Added

variable {t : Table} {r : Rule} (h : Reachable t) (hu : IdsUnique t)
include h hu

/-- A rule that strays comes to stand beside the one of its id. -/
theorem not_idsUnique_of_strays (hs : Strays t r) : ¬ IdsUnique (t.add r).table := by
  obtain ⟨hc, hi, ⟨o, ho⟩, y, hy, hyc, hyi, hyk⟩ := hs
  obtain ⟨m, hm, rfl⟩ := List.mem_map.1 hy
  have hname : (Selector.id r.id).names .ifli (t.incoming r) = true := names_id_iff.2 ⟨hc, rfl⟩
  have hmname : (Selector.id r.id).names .ifli m = true := names_id_iff.2 ⟨hyc, hyi⟩
  have hsum := countP_accepted h.valid.store ho ((Selector.id r.id).names .ifli)
  have hpos : 0 < t.store.nodes.countP ((Selector.id r.id).names .ifli) := List.countP_pos_iff.2 ⟨m, hm, hmname⟩
  intro hu'
  have hone : (t.add r).table.store.nodes.countP ((Selector.id r.id).names .ifli) ≤ 1 := idsUnique_iff.1 hu' r.id hi
  rw [if_pos hname] at hsum
  cases hf : t.store.findSame (t.incoming r) with
  | none =>
    rw [hf, Option.toList_none, List.countP_nil] at hsum
    omega
  | some x =>
    -- the node replaced and the one under the other hash would have shared the id before
    obtain ⟨hx, hxk, hxsame⟩ := h.valid.store.of_findSame hf
    have hxname := (sameIdentity_iff_of_named hi hname x).1 hxsame
    obtain rfl := Node.eq_of_countP_le_one (idsUnique_iff.1 hu r.id hi) hx hm hxname hmname
    exact hyk hxk

/-- A rule that does not stray is the only one of its id. -/
theorem idsUnique_of_not_strays {o : Outcome} (ho : (t.add r).result = .ok o) (hs : ¬ Strays t r) :
    IdsUnique (t.add r).table := by
  refine idsUnique_iff.2 (fun i hi => ?_)
  have hone : t.store.nodes.countP ((Selector.id i).names .ifli) ≤ 1 := idsUnique_iff.1 hu i hi
  have hsum := countP_accepted h.valid.store ho ((Selector.id i).names .ifli)
  unfold namedCount
  by_cases hname : (Selector.id i).names .ifli (t.incoming r) = true
  · obtain ⟨hc, hri⟩ := names_id_iff.1 hname
    obtain rfl : r.id = i := hri
    rw [if_pos hname] at hsum
    cases hf : t.store.findSame (t.incoming r) with
    | none =>
      have hzero : t.store.nodes.countP ((Selector.id r.id).names .ifli) = 0 := by
        refine List.countP_eq_zero.2 (fun m hm hmname => ?_)
        obtain ⟨hmc, hmi⟩ := names_id_iff.1 hmname
        have hk : m.key = (t.incoming r).key := by
          by_contra hk
          exact hs ⟨hc, hi, ⟨o, ho⟩, m.rule, List.mem_map_of_mem hm, hmc, hmi, hk⟩
        have hsame := (sameIdentity_iff_of_named hi hname m).2 hmname
        rw [(h.valid.store.findSame_eq_none_iff _).1 hf m hm hk] at hsame
        cases hsame
      omega
    | some x =>
      have hxname := (sameIdentity_iff_of_named hi hname x).1 (h.valid.store.of_findSame hf).2.2
      rw [hf, Option.toList_some, List.countP_singleton, if_pos hxname] at hsum
      omega
  · rw [if_neg hname] at hsum
    omega

/-- **An addition makes two flow-keyed rules share an id exactly when it strays from the hash its id is stored under.** -/
theorem idsUnique_add_iff (r : Rule) : IdsUnique (t.add r).table ↔ ¬ Strays t r := by
  refine ⟨fun hu' hs => not_idsUnique_of_strays h hu hs hu', fun hs => ?_⟩
  rcases t.add_cases r with ⟨e, -, ht⟩ | ⟨⟨o, ho⟩, -⟩
  · rw [ht]
    exact hu
  · exact idsUnique_of_not_strays h hu ho hs

end Added

/-! ## Runs -/

theorem idsUnique_other {t : Table} (h : Reachable t) (hu : IdsUnique t) (c : Call) (hc : ∀ r, c ≠ .add r) :
    IdsUnique (t.step c).1 :=
  idsUnique_iff.2 (fun i hi => Nat.le_trans (countP_step_le h _ hc) (idsUnique_iff.1 hu i hi))

theorem idsUnique_fresh (config : TableConfig) (plugins : Plugins) : IdsUnique { config, plugins } := by
  refine idsUnique_iff.2 (fun i _ => ?_)
  show Store.empty.nodes.countP _ ≤ 1
  rw [Store.nodes_empty]
  exact Nat.zero_le 1

/-- **Along a run from a fresh table an id of a flow-keyed rule is stored at most once under each hash**, and at most
once in all exactly when no addition strays from the hash its id is stored under. -/
theorem named_ids_unique_iff (config : TableConfig) (plugins : Plugins) (cs : List Call) :
    (∀ pre, pre <+: cs → ∀ i k, i ≠ noRuleId → ((run pre { config, plugins }).1.rules.filter fun r =>
      r.classifier == .ifli && r.id == i && r.key == k).length ≤ 1) ∧
    ((∀ pre, pre <+: cs → IdsUnique (run pre { config, plugins }).1) ↔
      ∀ pre r, pre ++ [.add r] <+: cs → ¬ Strays (run pre { config, plugins }).1 r) := by
  have hfresh := Reachable.fresh config plugins
  constructor
  · intro pre _ i k hi
    unfold rules
    rw [← List.countP_eq_length_filter, List.countP_map]
    exact countP_named_key_le_one (run_reachable pre hfresh) hi k
  · exact along_run_iff idsUnique_add_iff idsUnique_other hfresh (idsUnique_fresh config plugins) cs

/-- The id 5 with a tuple of the hash 2, then with one of the hash 4. -/
def relocated : List Call :=
  [.add { id := 5, classifier := .ifli, flow := { dstPort := some 2 } },
    .add { id := 5, classifier := .ifli, flow := { dstPort := some 4 } }]

/-- Two rules share the id, and the deletion of the id leaves one. -/
theorem named_id_stored_twice :
    ((run relocated {}).1.rules.filter fun r => r.classifier == .ifli && r.id == 5).length = 2 ∧
    ((run (relocated ++ [.delete (.id 5) .ifli]) {}).1.rules.filter fun r =>
      r.classifier == .ifli && r.id == 5).length = 1 ∧
    ¬ IdsUnique (run relocated {}).1 :=
  ⟨by decide +kernel, by decide +kernel, fun h => absurd (h 5 (by decide)) (by decide +kernel)⟩

end Table
end TrafficRules
