import TrafficRules.Proofs.RuleSet.Install
/-!
# Summary — what becomes of the rules of a set

Every enabled rule of an accepted set is taken where there is room and no validator objects; one that stands for a stored
rule takes its place instead of another place (`size_withRules`).  The check of a set tells names apart and leaves tuples
alone, so of its enabled rules one stands for an earlier one exactly when it is flow-keyed, has no id and has the tuple of
the earlier one.  On an empty table that is when the summary counts a modification (`accepted_set_summary`).
-/
namespace TrafficRules

/-- The rule goes by its tuple, which another flow-keyed rule has too. -/
def Rule.TakesTupleOf (new old : Rule) : Prop :=
  old.classifier = .ifli ∧ new.classifier = .ifli ∧ new.id = noRuleId ∧ new.flow.tuple = old.flow.tuple

theorem Rule.TakesTupleOf.standsFor {new old : Rule} (h : new.TakesTupleOf old) : new.StandsFor old := by
  obtain ⟨hold, hnew, hi, ht⟩ := h
  refine ⟨hold.trans hnew.symm, ?_⟩
  rw [if_pos ⟨Classifier.isFlowKeyed_iff.2 hnew, hi⟩]
  exact ht.symm

theorem Rule.TakesTupleOf.key_eq {new old : Rule} (h : new.TakesTupleOf old) : old.key = new.key := by
  obtain ⟨hold, hnew, -, ht⟩ := h
  simp [key, flowTuple?, hold, hnew, Classifier.isFlowKeyed, ht]

namespace Table

/-- Each of the rules in turn is accepted, as a new one or in the place of another. -/
def AllTaken : List Rule → Table → Prop
  | [], _ => True
  | r :: rs, t => (∃ o, (t.add r).result = .ok o) ∧ AllTaken rs (t.add r).table

/-- How many of the rules in turn stand for a stored one. -/
def replaced : List Rule → Table → Nat
  | [], _ => 0
  | r :: rs, t => (t.store.findSame (t.incoming r)).toList.length + replaced rs (t.add r).table

theorem replaced_le_length : ∀ (rs : List Rule) (t : Table), replaced rs t ≤ rs.length
  | [], _ => Nat.le_refl 0
  | r :: rs, t => by
    have ih := replaced_le_length rs (t.add r).table
    rw [replaced, List.length_cons]
    cases t.store.findSame (t.incoming r) with
    | none =>
      rw [Option.toList_none, List.length_nil]
      omega
    | some old =>
      rw [Option.toList_some, List.length_singleton]
      omega

/-! ## The summary of a set whose rules are taken -/

theorem applyTo_of_allTaken : ∀ {es : List RuleEntry} {t : Table} (sum : ApplySummary),
    AllTaken (⟨es⟩ : RuleSet).enabledRules t →
    RuleSet.applyTo (fun t r => ((t.add r).table, (t.add r).result)) es sum t =
      (withRules (⟨es⟩ : RuleSet).enabledRules t,
        .ok {
          added := sum.added + ((⟨es⟩ : RuleSet).enabledRules.length - replaced (⟨es⟩ : RuleSet).enabledRules t)
          modified := sum.modified + replaced (⟨es⟩ : RuleSet).enabledRules t
          skipped := sum.skipped + es.countP (!·.enabled) })
  | [], _, _, _ => rfl
  | e :: es, t, sum, h => by
    rw [RuleSet.enabledRules_cons] at h ⊢
    rw [RuleSet.applyTo, List.countP_cons]
    by_cases he : e.enabled = true
    · rw [if_pos he] at h ⊢
      obtain ⟨⟨o, ho⟩, hrs⟩ := h
      have hle := replaced_le_length (⟨es⟩ : RuleSet).enabledRules (t.add e.rule).table
      rcases add_outcome ho with ⟨hf, key, rfl⟩ | ⟨old, hf, key, rfl⟩
      · simp only [he, if_true, ho]
        rw [applyTo_of_allTaken _ hrs]
        simp only [withRules, replaced, hf, Option.toList_none, List.length_nil, List.length_cons, Bool.not_true,
          Bool.false_eq_true, if_false]
        congr 3 <;> omega
      · simp only [he, if_true, ho]
        rw [applyTo_of_allTaken _ hrs]
        simp only [withRules, replaced, hf, Option.toList_some, List.length_nil, List.length_cons, Bool.not_true,
          Bool.false_eq_true, if_false]
        congr 3 <;> omega
    · rw [if_neg he] at h ⊢
      simp only [he, Bool.false_eq_true, if_false]
      rw [applyTo_of_allTaken _ h]
      simp only [Bool.not_false, if_true]
      congr 3
      omega

/-- A set that is applied to its end had each of its rules taken. -/
theorem allTaken_of_applied : ∀ {es : List RuleEntry} {t : Table} {sum sum' : ApplySummary},
    (RuleSet.applyTo (fun t r => ((t.add r).table, (t.add r).result)) es sum t).2 = .ok sum' →
    AllTaken (⟨es⟩ : RuleSet).enabledRules t
  | [], _, _, _, _ => trivial
  | e :: es, t, sum, sum', h => by
    rw [RuleSet.enabledRules_cons]
    rw [RuleSet.applyTo] at h
    by_cases he : e.enabled = true
    · rw [if_pos he] at h ⊢
      cases ho : (t.add e.rule).result with
      | error err =>
        rw [ho] at h
        cases h
      | ok o =>
        refine ⟨⟨o, ho⟩, ?_⟩
        rw [ho] at h
        cases o <;> exact allTaken_of_applied h
    · rw [if_neg he] at h ⊢
      exact allTaken_of_applied h

/-- **Every accepted rule is one more**, but for those that take the place of another. -/
theorem size_withRules : ∀ {rs : List Rule} {t : Table}, Valid t → AllTaken rs t →
    (withRules rs t).size + replaced rs t = t.size + rs.length
  | [], _, _, _ => rfl
  | r :: rs, t, h, ht => by
    obtain ⟨⟨o, ho⟩, hrs⟩ := ht
    have ih := size_withRules (h.add r) hrs
    have hone := size_accepted h ho
    rw [withRules, replaced, List.length_cons]
    omega

/-! ## When rules are taken -/

theorem unfit_congr {t t' : Table} (hp : t'.plugins = t.plugins) (r : Rule) : t'.Unfit r ↔ t.Unfit r := by
  unfold Unfit Barred
  rw [hp]

theorem plugins_add (t : Table) (r : Rule) : (t.add r).table.plugins = t.plugins := ((IsChange.add r).settings t).2

theorem config_add (t : Table) (r : Rule) : (t.add r).table.config = t.config := ((IsChange.add r).settings t).1

theorem taken_of_fit {t : Table} {r : Rule} (hroom : ¬ t.Full) (hfit : ¬ t.Unfit r) : ∃ o, (t.add r).result = .ok o := by
  rcases t.add_answers r with ⟨hfull, -⟩ | ⟨-, hunfit, -⟩ | ⟨-, -, ⟨_, key, -, ho⟩ | ⟨key, -, ho⟩⟩
  · exact absurd hfull hroom
  · exact absurd hunfit hfit
  · exact ⟨_, ho⟩
  · exact ⟨_, ho⟩

/-- **Rules that pass their checks are taken as far as there is room.** -/
theorem allTaken_of_room : ∀ {rs : List Rule} {t : Table}, Valid t → t.size + rs.length ≤ t.config.maxRules.toNat →
    (∀ r ∈ rs, ¬ t.Unfit r) → AllTaken rs t
  | [], _, _, _, _ => trivial
  | r :: rs, t, h, hroom, hfit => by
    obtain ⟨hr, hrs⟩ := List.forall_mem_cons.1 hfit
    rw [List.length_cons] at hroom
    have hfull : ¬ t.Full := by
      unfold Full
      omega
    obtain ⟨o, ho⟩ := taken_of_fit hfull hr
    have hone : (withRules [r] t).size + replaced [r] t = t.size + 1 := size_withRules h ⟨⟨o, ho⟩, trivial⟩
    have hroom' : (t.add r).table.size + rs.length ≤ (t.add r).table.config.maxRules.toNat := by
      have hsize : (t.add r).table.size ≤ t.size + 1 := Nat.le_of_add_right_le (Nat.le_of_eq hone)
      rw [config_add]
      omega
    exact ⟨⟨o, ho⟩, allTaken_of_room (h.add r) hroom' fun x hx => mt (unfit_congr (plugins_add t r) x).1 (hrs x hx)⟩

/-! ## When one rule stands for another -/

theorem allNew_of_none_replaced : ∀ {rs : List Rule} {t : Table}, AllTaken rs t → replaced rs t = 0 → AllNew rs t
  | [], _, _, _ => trivial
  | r :: rs, t, ⟨⟨o, ho⟩, hrs⟩, hzero => by
    rw [replaced, Nat.add_eq_zero_iff] at hzero
    rcases add_outcome ho with ⟨-, key, rfl⟩ | ⟨old, hf, -⟩
    · exact ⟨⟨key, ho⟩, allNew_of_none_replaced hrs hzero.2⟩
    · rw [hf] at hzero
      cases hzero.1

theorem none_replaced_of_allNew : ∀ {rs : List Rule} {t : Table}, AllNew rs t → replaced rs t = 0
  | [], _, _ => rfl
  | r :: rs, t, ⟨⟨key, ho⟩, hrs⟩ => by
    rcases add_outcome ho with ⟨hf, -⟩ | ⟨_, -, key', hkey⟩
    · rw [replaced, hf, none_replaced_of_allNew hrs]
      rfl
    · cases hkey

/-- Rules that are all taken as new ones do not go by tuples of those before them. -/
theorem Seeded.apart_of_allNew {config : TableConfig} {plugins : Plugins} : ∀ {rs done : List Rule} {t : Table},
    Seeded config plugins done t → AllNew rs t →
    (∀ old ∈ done, ∀ new ∈ rs, ¬ new.TakesTupleOf old) ∧ rs.Pairwise fun old new => ¬ new.TakesTupleOf old
  | [], _, _, _, _ => ⟨fun _ _ _ hnew => absurd hnew List.not_mem_nil, List.Pairwise.nil⟩
  | r :: rs, done, t, h, ⟨⟨key, ho⟩, hrs⟩ => by
    obtain ⟨hbefore, hafter⟩ := (h.added ho).apart_of_allNew hrs
    have hfirst : ∀ old ∈ done, ¬ r.TakesTupleOf old := by
      intro old hold htakes
      obtain ⟨m, hm, hmrule⟩ := List.mem_map.1 (h.mem_rules.2 (List.mem_map_of_mem hold))
      have hstands : (t.incoming r).rule.StandsFor m.rule := by
        rw [hmrule]
        exact htakes.standsFor
      have hkey : m.key = (t.incoming r).key := by
        show m.rule.key = (t.incoming r).rule.key
        rw [hmrule]
        exact htakes.key_eq
      have hsame := (Node.sameIdentity_iff_standsFor m (t.incoming r)).2 hstands
      rcases add_outcome ho with ⟨hf, -⟩ | ⟨_, -, key', hkey'⟩
      · rw [(h.reachable.valid.store.findSame_eq_none_iff _).1 hf m hm hkey] at hsame
        cases hsame
      · cases hkey'
    refine ⟨fun old hold => List.forall_mem_cons.2 ⟨hfirst old hold, hbefore old (List.mem_append_left _ hold)⟩,
      List.pairwise_cons.2 ⟨hbefore r (List.mem_append_right _ List.mem_cons_self), hafter⟩⟩

end Table

namespace Engine

/-- **Between commands an engine applies a set as its table does by itself**, whoever is told: observers that leave the
plugins alone have no part in it but in what is counted. -/
theorem perform_apply {e : Engine} (hi : e.busy = false) (ho : e.Obeys Command.isPlain) (s : RuleSet) :
    (e.perform (.apply s)).2 = .applied (e.table.apply s).2 ∧
    (∃ counters, (e.table.apply s).1 = { (e.perform (.apply s)).1.table with counters }) ∧
    (e.perform (.apply s)).1.busy = false ∧ (e.perform (.apply s)).1.Obeys Command.isPlain := by
  have hstart : Unobserved e { table := e.table } := ⟨hi, ho, rfl, rfl, e.table.counters, rfl⟩
  have hbare : Bare { table := e.table } e.table := ⟨rfl, rfl, rfl⟩
  obtain ⟨hnext, hreply⟩ := hstart.performWith (leads_tell _) (c := .apply s) rfl
  obtain ⟨hbare', hanswer⟩ := hbare.apply s
  refine ⟨hreply.trans hanswer, ?_, hnext.idle, hnext.obeys⟩
  obtain ⟨counters, htable⟩ := hnext.table
  exact ⟨counters, hbare'.table.symm.trans htable⟩

end Engine

namespace RuleSet

/-- **In an accepted set a rule stands for an earlier one by its tuple only.** -/
theorem standsFor_iff_of_accepted {s : RuleSet} (h : s.fault? = none) :
    s.enabledRules.Pairwise fun old new => new.StandsFor old ↔ new.TakesTupleOf old := by
  have hsound := fault?_eq_none_iff.1 h
  have hd : s.enabledRules.Pairwise fun a b => a.id ≠ noRuleId → (a.classifier, a.id) ≠ (b.classifier, b.id) :=
    List.pairwise_map.2 (hsound.distinct.filter _)
  refine hd.imp_of_mem fun {old new} _ hnew hnames => ⟨fun hs => ?_, fun ht => ht.standsFor⟩
  obtain ⟨hc, hsame⟩ := hs
  split at hsame
  · rename_i hu
    have hifli := Classifier.isFlowKeyed_iff.1 hu.1
    exact ⟨hc.trans hifli, hifli, hu.2, hsame.symm⟩
  · rename_i hu
    have hi : old.id ≠ noRuleId := fun hi => by
      obtain ⟨e, he, -, rfl⟩ := mem_enabledRules.1 hnew
      exact hu ⟨hsound.named e he (hsame.symm.trans hi), hsame.symm.trans hi⟩
    exact absurd (Prod.ext hc hsame) (hnames hi)

theorem faultless_of_accepted {s : RuleSet} (h : s.fault? = none) : ∀ r ∈ s.enabledRules, r.fault? = none := by
  intro r hr
  obtain ⟨e, he, -, rfl⟩ := mem_enabledRules.1 hr
  exact (fault?_eq_none_iff.1 h).faultless e he

/-- None takes the place of another exactly when none goes by the tuple of one before it. -/
theorem none_replaced_iff_of_accepted {s : RuleSet} (hs : s.fault? = none) {t : Table} (h : Table.Reachable t)
    (he : t.rules = []) (hroom : s.enabledRules.length ≤ t.config.maxRules.toNat)
    (hfit : ∀ r ∈ s.enabledRules, ¬ t.Unfit r) (htaken : Table.AllTaken s.enabledRules t) :
    Table.replaced s.enabledRules t = 0 ↔ s.enabledRules.Pairwise fun old new => ¬ new.TakesTupleOf old := by
  have hseeded := Table.Seeded.of_empty h he
  constructor
  · intro hzero
    exact (hseeded.apart_of_allNew (Table.allNew_of_none_replaced htaken hzero)).2
  · intro hapart
    have hstands : s.enabledRules.Pairwise fun old new => ¬ new.StandsFor old :=
      ((standsFor_iff_of_accepted hs).and hapart).imp fun hboth => mt hboth.1.1 hboth.2
    have hunfit : ∀ r ∈ s.enabledRules, ¬ ({ plugins := t.plugins } : Table).Unfit r := fun r hr =>
      mt (Table.unfit_congr (t := t) rfl r).1 (hfit r hr)
    exact Table.none_replaced_of_allNew (hseeded.install hroom hunfit hstands).1

/-- **What becomes of an accepted set on an empty table** that has room for its enabled rules and whose validator turns
none of them down: every one of them is taken, as a new rule or in the place of another, and the rules added are the rules
stored.  None takes the place of another exactly when none goes by the tuple of one before it.  An engine over the table
answers alike. -/
theorem accepted_set_summary {s : RuleSet} (hs : s.fault? = none) {t : Table} (h : Table.Reachable t) (he : t.rules = [])
    (hroom : s.enabledRules.length ≤ t.config.maxRules.toNat) (hv : ∀ r ∈ s.enabledRules, ¬ t.Barred r) :
    ∃ sum : ApplySummary, (t.apply s).2 = .ok sum ∧ sum.added + sum.modified = s.enabledRules.length ∧
      sum.skipped = s.rules.countP (!·.enabled) ∧ (t.apply s).1.size = sum.added ∧
      (sum.modified = 0 ∧ (t.apply s).1.size = s.enabledRules.length ↔
        s.enabledRules.Pairwise fun old new => ¬ new.TakesTupleOf old) ∧
      ∀ e : Engine, e.busy = false → e.Obeys Command.isPlain → e.table = t →
        (e.perform (.apply s)).2 = .applied (.ok sum) ∧ (e.perform (.apply s)).1.table.rules = (t.apply s).1.rules := by
  have hsize : t.size = 0 := by
    show t.store.count = 0
    rw [h.valid.store.count, List.length_eq_zero_iff]
    exact List.map_eq_nil_iff.1 he
  have hfit : ∀ r ∈ s.enabledRules, ¬ t.Unfit r := by
    rintro r hr (hfault | hbarred)
    · rw [faultless_of_accepted hs r hr] at hfault
      cases hfault
    · exact hv r hr hbarred
  have htaken : Table.AllTaken s.enabledRules t := Table.allTaken_of_room h.valid (by omega) hfit
  have happly := Table.applyTo_of_allTaken {} htaken
  have hcount := Table.size_withRules h.valid htaken
  have hle := Table.replaced_le_length s.enabledRules t
  have hnone := none_replaced_iff_of_accepted hs h he hroom hfit htaken
  have hanswer : (t.apply s).2 = .ok {
      added := 0 + (s.enabledRules.length - Table.replaced s.enabledRules t)
      modified := 0 + Table.replaced s.enabledRules t
      skipped := 0 + s.rules.countP (!·.enabled) } := congrArg Prod.snd happly
  have htable : (t.apply s).1 = Table.withRules s.enabledRules t := congrArg Prod.fst happly
  refine ⟨_, hanswer, ?_, ?_, ?_, ?_, fun e hi ho het => ?_⟩
  · dsimp only
    omega
  · exact Nat.zero_add _
  · rw [htable]
    dsimp only
    omega
  · rw [htable, ← hnone]
    dsimp only
    omega
  · subst het
    obtain ⟨hreply, ⟨counters, hsame⟩, -⟩ := Engine.perform_apply hi ho s
    rw [hreply, hanswer, hsame]
    exact ⟨rfl, rfl⟩

/-- A rule with an id, a wireless one, and a rule without an id for the tuple of the first. -/
def overlaid : RuleSet :=
  ⟨[{ rule := { id := 5, classifier := .ifli, flow := { dstPort := some 2 } } },
    { rule := { id := 5, classifier := .sawf, wlan := some {} } },
    { enabled := false, rule := { id := 5, classifier := .scs } },
    { rule := { classifier := .ifli, precedence := 3, flow := { dstPort := some 2 } } }]⟩

/-- A table that has been in use and is empty again, with a validator. -/
def vacated : Table :=
  let t : Table := { config := { maxRules := 3 }, plugins := { validator := some fun _ => true } }
  ((t.add { id := 9, classifier := .mesh }).table.delete (.id 9) .mesh).table

theorem accepted_set_summary_overlaid : overlaid.fault? = none ∧ vacated.rules = [] ∧
    (∀ r ∈ overlaid.enabledRules, ¬ vacated.Barred r) ∧
    (∃ sum : ApplySummary, (vacated.apply overlaid).2 = .ok sum ∧ sum.added + sum.modified = 3 ∧ sum.skipped = 1 ∧
      (vacated.apply overlaid).1.size = sum.added) ∧
    (vacated.apply overlaid).2 = .ok { added := 2, modified := 1, skipped := 1 } := by
  have hs : overlaid.fault? = none := by decide +kernel
  have h : Table.Reachable vacated := .delete _ _ (.add _ (.fresh _ _))
  have he : vacated.rules = [] := by decide +kernel
  have hv : ∀ r ∈ overlaid.enabledRules, ¬ vacated.Barred r := by
    rintro r - ⟨w, -, -, hrefuses⟩
    have hno := hrefuses (fun _ => true) (by rfl)
    cases hno
  obtain ⟨sum, hanswer, htaken, hskipped, hsize, -⟩ := accepted_set_summary hs h he (by decide +kernel) hv
  exact ⟨hs, he, hv, ⟨sum, hanswer, htaken, hskipped, hsize⟩, by decide +kernel⟩

/-- Two rules without an id for one tuple. -/
def twins : RuleSet :=
  ⟨[{ rule := { classifier := .ifli, flow := { dstPort := some 80 } } },
    { rule := { classifier := .ifli, precedence := 1, flow := { dstPort := some 80 } } }]⟩

/-- The check accepts a set of which one rule is the other by its tuple, and the second takes the place of the first. -/
theorem twins_accepted : twins.fault? = none ∧ twins.enabledRules.length = 2 ∧
    (({} : Table).apply twins).2 = .ok { added := 1, modified := 1, skipped := 0 } ∧
    (({} : Table).apply twins).1.size = 1 := by
  refine ⟨?_, ?_, ?_, ?_⟩ <;> decide +kernel

end RuleSet
end TrafficRules
