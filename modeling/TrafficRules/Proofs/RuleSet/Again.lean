import TrafficRules.Proofs.RuleSet.Summary
/-!
# Again — a rule set applied twice

A table holds a rule as it is when an addition of the rule would take the place of that very rule (`Table.Holds`).  So it
does right after the addition, and it goes on as long as the rules that follow stand apart from it: they may edit its chain,
but they neither take its place nor come before it (`Holds.beside`).  So at the end of a set whose rules stand apart the
table holds all of them, and the second time each of them takes its own place (`applied_again_changes_nothing`).
-/
namespace TrafficRules

/-- Neither rule stands for the other. -/
def Rule.Apart (a b : Rule) : Prop := ¬ a.StandsFor b ∧ ¬ b.StandsFor a

/-- Between rules that do not share a tuple there is no difference which comes first. -/
theorem Rule.StandsFor.symm {a b : Rule} (ht : a.classifier = .ifli → b.classifier = .ifli → a.flow.tuple ≠ b.flow.tuple)
    (h : a.StandsFor b) : b.StandsFor a := by
  obtain ⟨hc, hsame⟩ := h
  split at hsame
  · rename_i hu
    have hifli := Classifier.isFlowKeyed_iff.1 hu.1
    exact absurd hsame.symm (ht hifli (hc.trans hifli))
  · rename_i hu
    refine ⟨hc.symm, ?_⟩
    rw [if_neg (by rwa [hc, hsame])]
    exact hsame.symm

namespace Table

/-- The rule is stored as it is, and there an addition of it would put it. -/
def Holds (t : Table) (r : Rule) : Prop := ∃ n, t.store.findSame (t.incoming r) = some n ∧ n.rule = r.normalized

variable {t : Table} {r x : Rule} {o : Outcome}

/-! ## One addition -/

theorem holds_added (h : Valid t) (ho : (t.add r).result = .ok o) : Holds (t.add r).table r := by
  refine ⟨t.incoming r, ?_, rfl⟩
  rw [store_of_accepted ho]
  exact h.store.findSame_put (t.incoming r)

/-- **A rule is held on beside one that stands apart from it.** -/
theorem Holds.beside (hr : Holds t r) (h : Valid t) (ho : (t.add x).result = .ok o) (ha : r.Apart x) :
    Holds (t.add x).table r := by
  obtain ⟨n, hf, hn⟩ := hr
  have hapart : (t.incoming x).sameIdentity (t.incoming r) = false := by
    rw [Bool.eq_false_iff, Ne, Node.sameIdentity_iff_standsFor]
    exact ha.1
  have hfound : n.sameIdentity (t.incoming x) = false := by
    rw [Bool.eq_false_iff, Ne, Node.sameIdentity_iff_standsFor, hn]
    exact ha.2
  refine ⟨n, ?_, hn⟩
  rw [store_of_accepted ho]
  exact h.store.findSame_put_beside hf hapart hfound

/-- **A rule that is held takes its own place**, and nothing moves. -/
theorem Holds.add (hr : Holds t r) (h : Valid t) (ho : (t.add r).result = .ok o) :
    (t.add r).table.rules = t.rules ∧ (t.add r).table.size = t.size := by
  obtain ⟨n, hf, hn⟩ := hr
  have hrules : (t.add r).table.rules = t.rules := by
    unfold rules
    rw [store_of_accepted ho]
    rcases h.store.nodes_put (t.incoming r) with ⟨old, A, B, hold, -, hnodes, hput⟩ | ⟨hmoves, -⟩
    · obtain rfl : old = n := Option.some.inj (hold.symm.trans hf)
      rw [hput, hnodes, List.map_append, List.map_append, List.map_cons, List.map_cons, hn]
      rfl
    · refine absurd ?_ (hmoves n hf)
      rw [hn]
      rfl
  have hone := size_accepted h ho
  rw [hf, Option.toList_some, List.length_singleton] at hone
  exact ⟨hrules, by omega⟩

/-! ## Rules in a row -/

/-- **What is added is held to the end** by rules that stand apart from each other, and so is what was held before and
stands apart from all of them. -/
theorem holds_withRules : ∀ {rs done : List Rule} {t : Table}, Valid t → AllTaken rs t → (done ++ rs).Pairwise Rule.Apart →
    (∀ r ∈ done, Holds t r) → ∀ r ∈ done ++ rs, Holds (withRules rs t) r
  | [], done, t, _, _, _, hdone => by
    rw [List.append_nil]
    exact hdone
  | x :: rs, done, t, h, ⟨⟨o, ho⟩, hrs⟩, hapart, hdone => by
    have hbefore : ∀ r ∈ done, r.Apart x := fun r hr => (List.pairwise_append.1 hapart).2.2 r hr x List.mem_cons_self
    rw [List.append_cons] at hapart ⊢
    refine holds_withRules (h.add x) hrs hapart fun r hr => ?_
    rcases List.mem_append.1 hr with hr | hr
    · exact (hdone r hr).beside h ho (hbefore r hr)
    · rw [List.mem_singleton.1 hr]
      exact holds_added h ho

theorem fit_of_allTaken : ∀ {rs : List Rule} {t : Table}, AllTaken rs t → ∀ r ∈ rs, ¬ t.Unfit r
  | [], _, _, _, hr => by cases hr
  | x :: rs, t, ⟨⟨o, ho⟩, hrs⟩, r, hr => by
    rcases List.mem_cons.1 hr with rfl | hr
    · exact fit_of_accepted ho
    · exact mt (unfit_congr (plugins_add t x) r).2 (fit_of_allTaken hrs r hr)

theorem valid_withRules : ∀ (rs : List Rule) {t : Table}, Valid t → Valid (withRules rs t)
  | [], _, h => h
  | r :: rs, _, h => valid_withRules rs (h.add r)

theorem settings_withRules : ∀ (rs : List Rule) (t : Table),
    (withRules rs t).config = t.config ∧ (withRules rs t).plugins = t.plugins
  | [], _ => ⟨rfl, rfl⟩
  | r :: rs, t => by
    obtain ⟨hconfig, hplugins⟩ := settings_withRules rs (t.add r).table
    exact ⟨hconfig.trans (config_add t r), hplugins.trans (plugins_add t r)⟩

/-- **Rules that are held and stand apart** are all taken once more, each of them in its own place. -/
theorem holds_again : ∀ {rs : List Rule} {t : Table}, Valid t → (∀ r ∈ rs, Holds t r) → ¬ t.Full → (∀ r ∈ rs, ¬ t.Unfit r) →
    rs.Pairwise Rule.Apart → AllTaken rs t ∧ replaced rs t = rs.length ∧ (withRules rs t).rules = t.rules
  | [], _, _, _, _, _, _ => ⟨trivial, rfl, rfl⟩
  | r :: rs, t, h, hheld, hroom, hfit, hapart => by
    obtain ⟨hr, hheld⟩ := List.forall_mem_cons.1 hheld
    obtain ⟨hfits, hfit⟩ := List.forall_mem_cons.1 hfit
    obtain ⟨hfirst, hapart⟩ := List.pairwise_cons.1 hapart
    obtain ⟨o, ho⟩ := taken_of_fit hroom hfits
    obtain ⟨hrules, hsize⟩ := hr.add h ho
    have hroom' : ¬ (t.add r).table.Full := by
      unfold Full
      rw [hsize, config_add]
      exact hroom
    obtain ⟨htaken, hcount, hsame⟩ := holds_again (h.add r)
      (fun x hx => (hheld x hx).beside h ho ⟨(hfirst x hx).2, (hfirst x hx).1⟩) hroom'
      (fun x hx => mt (unfit_congr (plugins_add t r) x).1 (hfit x hx)) hapart
    obtain ⟨n, hf, -⟩ := hr
    refine ⟨⟨⟨o, ho⟩, htaken⟩, ?_, hsame.trans hrules⟩
    rw [replaced, hf, hcount, Option.toList_some, List.length_singleton, List.length_cons, Nat.add_comm]

end Table

namespace RuleSet

/-- A set is applied again to what its application left, up to what the table has counted: an engine counts what its
observers ask for in between. -/
theorem apply_again {t t' : Table} (h : Table.Reachable t) {s : RuleSet} (hapart : s.enabledRules.Pairwise Rule.Apart)
    (htaken : Table.AllTaken s.enabledRules t)
    (hroom : (Table.withRules s.enabledRules t).size < t.config.maxRules.toNat)
    (hleft : ∃ counters, Table.withRules s.enabledRules t = { t' with counters }) :
    (t'.apply s).2 = .ok
      { added := 0, modified := s.enabledRules.length, skipped := s.rules.countP (!·.enabled) } ∧
    (t'.apply s).1.rules = t'.rules := by
  obtain ⟨counters, hcounted⟩ := hleft
  have hvalid := Table.valid_withRules s.enabledRules h.valid
  have hheld : ∀ r ∈ [] ++ s.enabledRules, Table.Holds (Table.withRules s.enabledRules t) r :=
    Table.holds_withRules h.valid htaken hapart fun r hr => absurd hr List.not_mem_nil
  obtain ⟨hconfig, hplugins⟩ := Table.settings_withRules s.enabledRules t
  rw [hcounted] at hvalid hheld hroom hconfig hplugins
  have hfull : ¬ t'.Full := by
    unfold Table.Full
    rw [show t'.config = t.config from hconfig]
    exact Nat.not_le.2 hroom
  have hfit : ∀ r ∈ s.enabledRules, ¬ t'.Unfit r := fun r hr =>
    mt (Table.unfit_congr hplugins r).1 (Table.fit_of_allTaken htaken r hr)
  obtain ⟨htaken', hall, hrules⟩ := Table.holds_again (t := t') ⟨hvalid.store, hvalid.serials⟩ hheld hfull hfit hapart
  have happly := Table.applyTo_of_allTaken {} htaken'
  have hanswer : (t'.apply s).2 = _ := congrArg Prod.snd happly
  rw [hanswer]
  refine ⟨?_, (congrArg (Table.rules ∘ Prod.fst) happly).trans hrules⟩
  rw [show Table.replaced (⟨s.rules⟩ : RuleSet).enabledRules t' = s.enabledRules.length from hall]
  simp

/-- **A rule set applied again changes nothing.**  Whatever rules the table held before, once an accepted set without a
tuple twice among its enabled flow-keyed rules has been applied and there is room left, the second application finds each
enabled rule in its place: none is added, all are modified, as many are skipped, and the same rules stand in the same order.
So it is on a table, and on an engine over it that observers are told by. -/
theorem applied_again_changes_nothing {t : Table} (h : Table.Reachable t) {s : RuleSet} (hs : s.fault? = none)
    (ht : s.enabledRules.Pairwise fun a b => a.classifier = .ifli → b.classifier = .ifli → a.flow.tuple ≠ b.flow.tuple)
    {sum : ApplySummary} (ho : (t.apply s).2 = .ok sum) (hroom : (t.apply s).1.size < t.config.maxRules.toNat) :
    let again : ApplySummary := { added := 0, modified := s.enabledRules.length, skipped := sum.skipped }
    ((t.apply s).1.apply s).2 = .ok again ∧ ((t.apply s).1.apply s).1.rules = (t.apply s).1.rules ∧
    ∀ e : Engine, e.busy = false → e.Obeys Command.isPlain → e.table = t →
      let e' := (e.perform (.apply s)).1
      (e.perform (.apply s)).2 = .applied (.ok sum) ∧ e'.table.rules = (t.apply s).1.rules ∧
      (e'.perform (.apply s)).2 = .applied (.ok again) ∧ (e'.perform (.apply s)).1.table.rules = e'.table.rules := by
  intro again
  have hapart : s.enabledRules.Pairwise Rule.Apart :=
    ((apart_of_accepted hs ht).and ht).imp fun ⟨hnew, htuples⟩ => ⟨mt (Rule.StandsFor.symm htuples) hnew, hnew⟩
  have htaken : Table.AllTaken s.enabledRules t := Table.allTaken_of_applied ho
  have happly := Table.applyTo_of_allTaken {} htaken
  have htable : (t.apply s).1 = Table.withRules s.enabledRules t := congrArg Prod.fst happly
  have hskipped : s.rules.countP (!·.enabled) = sum.skipped := by
    have hsum : Except.ok sum = _ := ho.symm.trans (congrArg Prod.snd happly)
    rw [Except.ok.inj hsum]
    exact (Nat.zero_add _).symm
  have hagain : ∀ t' : Table, (∃ counters, (t.apply s).1 = { t' with counters }) →
      (t'.apply s).2 = .ok again ∧ (t'.apply s).1.rules = t'.rules := by
    intro t' hleft
    rw [htable] at hleft hroom
    rw [show again = _ from congrArg (ApplySummary.mk 0 s.enabledRules.length) hskipped.symm]
    exact apply_again h hapart htaken hroom hleft
  obtain ⟨hanswer, hrules⟩ := hagain (t.apply s).1 ⟨_, rfl⟩
  refine ⟨hanswer, hrules, fun e hi hobeys he => ?_⟩
  subst he
  intro e'
  obtain ⟨hreply, ⟨counters, hcounted⟩, hi', hobeys'⟩ := Engine.perform_apply hi hobeys s
  obtain ⟨hreply', ⟨counters', hcounted'⟩, -⟩ := Engine.perform_apply hi' hobeys' s
  obtain ⟨hanswer', hrules'⟩ := hagain e'.table ⟨counters, hcounted⟩
  exact ⟨hreply.trans (congrArg Reply.applied ho), (congrArg Table.rules hcounted).symm,
    hreply'.trans (congrArg Reply.applied hanswer'), (congrArg Table.rules hcounted').symm.trans hrules'⟩

/-- Rules that share a key with those of the set, one of them an id stored under two hashes. -/
def crowded : Table :=
  let t := (Table.underOneKey.add { id := 2, classifier := .ifli, flow := { dstPort := some 2 } }).table
  (t.add { id := 2, classifier := .ifli, flow := { dstPort := some 4 } }).table

theorem applied_again_changes_nothing_crowded : patchwork.fault? = none ∧
    (crowded.apply patchwork).2 = .ok { added := 2, modified := 3, skipped := 1 } ∧
    ((crowded.apply patchwork).1.apply patchwork).2 = .ok { added := 0, modified := 5, skipped := 1 } ∧
    ((crowded.apply patchwork).1.apply patchwork).1.rules = (crowded.apply patchwork).1.rules ∧
    (crowded.apply patchwork).1.rules.map (fun r => (r.classifier, r.id, r.precedence)) =
      [(.sawf, 2, 9), (.scs, 2, 7), (.ifli, noRuleId, 7), (.ifli, noRuleId, 0), (.ifli, 2, 0), (.mesh, 1, 0),
        (.ifli, 2, 0)] := by
  have h : Table.Reachable crowded := (Table.reachable_underOneKey.add _).add _
  have hs : patchwork.fault? = none := by decide +kernel
  have ho : (crowded.apply patchwork).2 = .ok { added := 2, modified := 3, skipped := 1 } := by decide +kernel
  obtain ⟨hanswer, hrules, -⟩ := applied_again_changes_nothing h hs (by decide +kernel) ho (by decide +kernel)
  exact ⟨hs, ho, hanswer, hrules, by decide +kernel⟩

end RuleSet
end TrafficRules
