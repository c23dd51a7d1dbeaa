import TrafficRules.Proofs.Engine.Observers
import TrafficRules.Proofs.RuleSet.Accepted
import TrafficRules.Proofs.RuleSet.Order
import TrafficRules.Proofs.Table.Answers
/-!
# Install — a rule set put into an empty table

A table that took each of a list of rules as a new one holds them in the order of a stable sort by precedence
(`Seeded.added`): a new rule goes behind all of its precedence.  Rules that pass their checks and stand for none before
them are taken so, as long as there is room (`Seeded.install`).  The check of a rule set settles that for its enabled
rules, so the set is installed whole, one by one or at once (`accepted_set_installs`).
-/
namespace TrafficRules

theorem RuleSet.enabledRules_cons (e : RuleEntry) (es : List RuleEntry) : (⟨e :: es⟩ : RuleSet).enabledRules =
    if e.enabled then e.rule :: (⟨es⟩ : RuleSet).enabledRules else (⟨es⟩ : RuleSet).enabledRules := by
  unfold enabledRules
  rw [List.filter_cons]
  split <;> rfl

namespace Table

/-- The table after additions, whatever they are answered. -/
def withRules : List Rule → Table → Table
  | [], t => t
  | r :: rs, t => withRules rs (t.add r).table

/-- Each of the rules in turn is taken as a new one. -/
def AllNew : List Rule → Table → Prop
  | [], _ => True
  | r :: rs, t => (∃ key, (t.add r).result = .ok (.added key)) ∧ AllNew rs (t.add r).table

theorem addAll_of_allNew : ∀ {rs : List Rule} {t : Table}, AllNew rs t → addAll rs t = .ok (withRules rs t)
  | [], _, _ => rfl
  | r :: rs, t, h => by
    obtain ⟨⟨key, hkey⟩, hrs⟩ := h
    rw [addAll, hkey]
    exact addAll_of_allNew hrs

theorem applyTo_of_allNew : ∀ {es : List RuleEntry} {t : Table} (sum : ApplySummary),
    AllNew (⟨es⟩ : RuleSet).enabledRules t →
    RuleSet.applyTo (fun t r => ((t.add r).table, (t.add r).result)) es sum t =
      (withRules (⟨es⟩ : RuleSet).enabledRules t,
        .ok { sum with
          added := sum.added + (⟨es⟩ : RuleSet).enabledRules.length
          skipped := sum.skipped + es.countP (!·.enabled) })
  | [], _, _, _ => rfl
  | e :: es, t, sum, h => by
    rw [RuleSet.enabledRules_cons] at h ⊢
    rw [RuleSet.applyTo, List.countP_cons]
    by_cases he : e.enabled = true
    · rw [if_pos he] at h ⊢
      obtain ⟨⟨key, hkey⟩, hrs⟩ := h
      simp only [he, if_true, hkey]
      rw [applyTo_of_allNew _ hrs]
      simp [withRules, Nat.add_assoc, Nat.add_comm 1]
    · rw [if_neg he] at h ⊢
      simp only [he]
      simp only [Bool.false_eq_true, if_false]
      rw [applyTo_of_allNew _ h]
      simp [Nat.add_assoc, Nat.add_comm 1]

/-! ## What a table of new rules holds -/

/-- **A new rule goes behind the rules of its precedence** and leaves the others as they are. -/
theorem filter_rules_added {t : Table} (h : Reachable t) {r : Rule} {key : Option UInt32}
    (ho : (t.add r).result = .ok (.added key)) (p : UInt8) : (t.add r).table.rules.filter (·.precedence == p) =
      t.rules.filter (·.precedence == p) ++ [r.normalized].filter (·.precedence == p) := by
  have hnone : t.store.findSame (t.incoming r) = none := by
    rcases add_outcome ho with ⟨hf, -⟩ | ⟨old, -, k, hk⟩
    · exact hf
    · cases hk
  have hstore : (t.add r).table.store = t.store.insert (t.incoming r) := by
    rw [store_of_accepted ho]
    unfold Store.put
    rw [hnone]
  rw [filter_rules, filter_rules, hstore, h.valid.store.nodes_insert]
  by_cases hp : r.normalized.precedence = p
  · have hpos : ((t.incoming r).rule.precedence == p) = true := beq_iff_eq.2 hp
    have hlevel : ∀ m : Node, (m.rule.precedence == p) = true → (t.incoming r).rule.bucket ≤ m.rule.bucket := fun m hm => by
      have hbucket : (t.incoming r).rule.bucket = m.rule.bucket := by
        unfold Rule.bucket
        rw [show (t.incoming r).rule.precedence = m.rule.precedence from hp.trans (beq_iff_eq.1 hm).symm]
      exact Fin.le_of_eq hbucket
    have hsingle : [r.normalized].filter (·.precedence == p) = [r.normalized] := List.filter_cons_of_pos (beq_iff_eq.2 hp)
    rw [Node.filter_placeIn_of_pos hpos hlevel, List.map_append, hsingle]
    rfl
  · have hneg : ((t.incoming r).rule.precedence == p) = false := beq_eq_false_iff_ne.2 hp
    have hnothing : [r.normalized].filter (·.precedence == p) = [] := List.filter_cons_of_neg (by simpa using hp)
    rw [Node.filter_placeIn_of_neg hneg, hnothing, List.append_nil]

/-- The table holds the rules, each added as a new one to a table without any. -/
structure Seeded (config : TableConfig) (plugins : Plugins) (rs : List Rule) (t : Table) : Prop where
  reachable : Reachable t
  config : t.config = config
  plugins : t.plugins = plugins
  rules : t.rules = Rule.byPrecedence (rs.map Rule.normalized)

namespace Seeded

variable {config : TableConfig} {plugins : Plugins} {rs : List Rule} {t : Table}

theorem of_empty (h : Reachable t) (he : t.rules = []) : Seeded t.config t.plugins [] t := ⟨h, rfl, rfl, he.trans List.mergeSort_nil.symm⟩

theorem mem_rules (h : Seeded config plugins rs t) {x : Rule} : x ∈ t.rules ↔ x ∈ rs.map Rule.normalized := by
  rw [h.rules]
  exact (Rule.byPrecedence_perm _).mem_iff

theorem size (h : Seeded config plugins rs t) : t.size = rs.length := by
  have hlen : t.rules.length = rs.length := by
    rw [h.rules, (Rule.byPrecedence_perm _).length_eq, List.length_map]
  rw [← hlen]
  exact h.reachable.valid.size_eq_length

/-- **One more new rule.** -/
theorem added (h : Seeded config plugins rs t) {r : Rule} {key : Option UInt32}
    (ho : (t.add r).result = .ok (.added key)) : Seeded config plugins (rs ++ [r]) (t.add r).table := by
  have hsettings := (IsChange.add r).settings t
  have hreach := h.reachable.add r
  refine ⟨hreach, hsettings.1.trans h.config, hsettings.2.trans h.plugins, ?_⟩
  refine Rule.eq_of_descending hreach.descending (Rule.descending_byPrecedence _) fun p => ?_
  calc (t.add r).table.rules.filter (·.precedence == p)
      = t.rules.filter (·.precedence == p) ++ [r.normalized].filter (·.precedence == p) := filter_rules_added h.reachable ho p
    _ = (rs.map Rule.normalized).filter (·.precedence == p) ++ [r.normalized].filter (·.precedence == p) := by
        rw [h.rules, Rule.filter_byPrecedence]
    _ = (Rule.byPrecedence ((rs ++ [r]).map Rule.normalized)).filter (·.precedence == p) := by
        rw [Rule.filter_byPrecedence, List.map_append, List.filter_append]
        rfl

/-- **A rule that passes its checks and stands for none of the others** is taken as a new one, if there is room. -/
theorem takes (h : Seeded config plugins rs t) {r : Rule} (hroom : rs.length < config.maxRules.toNat)
    (hfit : ¬ t.Unfit r) (hapart : ∀ old ∈ rs, ¬ r.StandsFor old) : ∃ key, (t.add r).result = .ok (.added key) := by
  rcases t.add_answers r with ⟨hfull, -⟩ | ⟨-, hunfit, -⟩ | ⟨-, -, ⟨old, key, hf, -⟩ | ⟨key, -, ho⟩⟩
  · unfold Full at hfull
    rw [h.config, h.size] at hfull
    exact absurd hroom (Nat.not_lt.2 hfull)
  · exact absurd hunfit hfit
  · obtain ⟨hold, -, hsame⟩ := h.reachable.valid.store.of_findSame hf
    obtain ⟨x, hx, hxold⟩ := List.mem_map.1 (h.mem_rules.1 (List.mem_map_of_mem hold))
    have hstands : r.StandsFor old.rule := (Node.sameIdentity_iff_standsFor old (t.incoming r)).1 hsame
    rw [← hxold] at hstands
    exact absurd hstands (hapart x hx)
  · exact ⟨key, ho⟩

/-- **Rules in a row**, each of them apart from those before it. -/
theorem install : ∀ {rs done : List Rule} {t : Table}, Seeded config plugins done t →
    (done ++ rs).length ≤ config.maxRules.toNat → (∀ r ∈ rs, ¬ ({ plugins } : Table).Unfit r) →
    (done ++ rs).Pairwise (fun old new => ¬ new.StandsFor old) →
    AllNew rs t ∧ Seeded config plugins (done ++ rs) (withRules rs t)
  | [], done, t, h, _, _, _ => by
    rw [List.append_nil]
    exact ⟨trivial, h⟩
  | r :: rs, done, t, h, hroom, hfit, hapart => by
    -- the rules done are carried along, since the next one has to stand for none of them
    have hsplit : done ++ r :: rs = (done ++ [r]) ++ rs := List.append_cons done r rs
    obtain ⟨hr, hrs⟩ := List.forall_mem_cons.1 hfit
    have hunfit : ¬ t.Unfit r := by
      unfold Unfit Barred
      rw [h.plugins]
      exact hr
    have hbefore : ∀ old ∈ done, ¬ r.StandsFor old := fun old hold =>
      (List.pairwise_append.1 hapart).2.2 old hold r List.mem_cons_self
    have hlt : done.length < config.maxRules.toNat := by
      rw [List.length_append, List.length_cons] at hroom
      omega
    obtain ⟨key, ho⟩ := h.takes hlt hunfit hbefore
    rw [hsplit] at hroom hapart ⊢
    obtain ⟨hall, hseeded⟩ := (h.added ho).install hroom hrs hapart
    exact ⟨⟨⟨key, ho⟩, hall⟩, hseeded⟩

end Seeded

theorem not_unfit_of_plain {r : Rule} (hf : r.fault? = none) (hw : r.isWlan = false) (t : Table) : ¬ t.Unfit r := by
  rintro (hfault | ⟨w, hc, hsome, -⟩)
  · rw [hf] at hfault
    cases hfault
  · rw [Rule.isWlan, hc, hsome] at hw
    cases hw

end Table

namespace Engine

/-- Between commands, with nobody to tell. -/
structure Bare (e : Engine) (t : Table) : Prop where
  idle : e.busy = false
  alone : e.notifier.observers = []
  table : e.table = t

theorem Bare.add {e : Engine} {t : Table} (h : Bare e t) (r : Rule) :
    Bare (e.write tell (·.add r)).1 (t.add r).table ∧ (e.write tell (·.add r)).2 = (t.add r).result := by
  obtain ⟨hi, ho, rfl⟩ := h
  rw [write_idle hi, announced_alone ho]
  exact ⟨⟨rfl, ho, rfl⟩, rfl⟩

/-- **An engine without observers does what its table does by itself.** -/
theorem Bare.apply {e : Engine} {t : Table} (h : Bare e t) (s : RuleSet) :
    Bare (e.perform (.apply s)).1 (t.apply s).1 ∧ (e.perform (.apply s)).2 = .applied (t.apply s).2 := by
  have happly : Bare (RuleSet.applyTo (fun e r => e.write tell (·.add r)) s.rules {} e).1 (t.apply s).1 ∧
      (RuleSet.applyTo (fun e r => e.write tell (·.add r)) s.rules {} e).2 = (t.apply s).2 :=
    RuleSet.applyTo_related (fun _ _ r he => he.add r) s.rules {} e t h
  exact ⟨happly.1, congrArg Reply.applied happly.2⟩

end Engine

namespace RuleSet

/-- **An accepted rule set is installed whole** on a fresh table that has room for its enabled rules, if no two flow-keyed
ones among them share a tuple and none asks for a validator: every one is new, the switched-off ones are skipped, and the
table holds the enabled rules by descending precedence, those of one precedence in their order in the set.  It is the
table that the set builds, and the table of a fresh engine that applies it. -/
theorem accepted_set_installs {s : RuleSet} (hs : s.fault? = none)
    (ht : s.enabledRules.Pairwise fun a b => a.classifier = .ifli → b.classifier = .ifli → a.flow.tuple ≠ b.flow.tuple)
    (hw : ∀ r ∈ s.enabledRules, r.isWlan = false) {config : TableConfig}
    (hroom : s.enabledRules.length ≤ config.maxRules.toNat) :
    let summary : ApplySummary := { added := s.enabledRules.length, modified := 0, skipped := s.rules.countP (!·.enabled) }
    ∃ t, Table.apply { config } s = (t, .ok summary) ∧ s.toTable config = .ok t ∧
      t.rules = Rule.byPrecedence
        (s.enabledRules.map fun r => { r with precedence := if r.precedence = 255 then 0 else r.precedence }) ∧
      (Engine.perform (.apply s) { table := { config } }).1.table = t ∧
      (Engine.perform (.apply s) { table := { config } }).2 = .applied (.ok summary) := by
  intro summary
  have hfit : ∀ r ∈ s.enabledRules, ¬ ({} : Table).Unfit r := fun r hr => by
    obtain ⟨e, he, -, rfl⟩ := mem_enabledRules.1 hr
    exact Table.not_unfit_of_plain ((fault?_eq_none_iff.1 hs).faultless e he) (hw _ hr) {}
  have hempty : Table.Seeded config {} [] { config } := .of_empty (.fresh config {}) (by
    show Store.empty.nodes.map (·.rule) = []
    rw [Store.nodes_empty]
    rfl)
  obtain ⟨hnew, hseeded⟩ : Table.AllNew s.enabledRules { config } ∧
      Table.Seeded config {} s.enabledRules (Table.withRules s.enabledRules { config }) :=
    hempty.install hroom hfit (apart_of_accepted hs ht)
  have hnormal : Rule.normalized = fun r => { r with precedence := if r.precedence = 255 then 0 else r.precedence } :=
    funext Rule.normalized_eq
  have happly : Table.apply { config } s = (Table.withRules s.enabledRules { config }, .ok summary) := by
    refine (Table.applyTo_of_allNew {} hnew).trans ?_
    simp [summary]
  have hbuilt : s.toTable config = .ok (Table.withRules s.enabledRules { config }) := by
    unfold toTable
    rw [Table.addAll_of_allNew hnew]
    rfl
  have hbare : Engine.Bare { table := { config } } { config } := ⟨rfl, rfl, rfl⟩
  obtain ⟨hengine, hreply⟩ := hbare.apply s
  rw [happly] at hengine hreply
  exact ⟨_, happly, hbuilt, hnormal ▸ hseeded.rules, hengine.table, hreply⟩

/-- Rules that share an id, a hash or a precedence, one of them switched off. -/
def patchwork : RuleSet :=
  ⟨[{ rule := { id := 1, classifier := .mesh, precedence := 255 } },
    { rule := { id := 2, classifier := .scs, precedence := 7 } },
    { rule := { classifier := .ifli, precedence := 7, flow := { dstPort := some 2 } } },
    { enabled := false, rule := { id := 3, classifier := .scs } },
    { rule := { id := 2, classifier := .ifli, flow := { srcPort := some 2 } } },
    { rule := { id := 2, classifier := .sawf, precedence := 9 } }]⟩

theorem accepted_set_installs_patchwork : patchwork.fault? = none ∧ patchwork.enabledRules.length = 5 ∧
    (∃ t, Table.apply { config := { maxRules := 5 } } patchwork = (t, .ok { added := 5, modified := 0, skipped := 1 }) ∧
      patchwork.toTable { maxRules := 5 } = .ok t) ∧
    (Table.apply { config := { maxRules := 5 } } patchwork).1.rules.map (fun r => (r.classifier, r.precedence)) =
      [(.sawf, 9), (.scs, 7), (.ifli, 7), (.mesh, 0), (.ifli, 0)] := by
  have hs : patchwork.fault? = none := by decide +kernel
  obtain ⟨t, happly, hbuilt, -⟩ := accepted_set_installs hs (by decide +kernel) (by decide +kernel)
    (show patchwork.enabledRules.length ≤ ({ maxRules := 5 } : TableConfig).maxRules.toNat by decide +kernel)
  exact ⟨hs, rfl, ⟨t, happly, hbuilt⟩, by decide +kernel⟩

end RuleSet
end TrafficRules
