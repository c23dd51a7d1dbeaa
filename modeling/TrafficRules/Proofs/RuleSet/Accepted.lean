import TrafficRules.Proofs.Store.Find
import TrafficRules.RuleSet
/-!
# Accepted — what the check of a rule set settles

The check of a rule set goes through its entries with the names taken so far, switched-off entries included, and finds
nothing exactly when every rule is sound by itself and no name is given twice (`fault?_eq_none_iff`).  It does not look at
tuples.  So of an accepted set no enabled rule stands for an earlier one, as far as the tuples of its flow-keyed rules
differ (`apart_of_accepted`).
-/
namespace TrafficRules

/-- An incoming rule stands for a stored one of its family: of its tuple if it is flow-keyed and has no id, else of its id. -/
def Rule.StandsFor (new old : Rule) : Prop :=
  old.classifier = new.classifier ∧
    if new.classifier.isFlowKeyed = true ∧ new.id = noRuleId then old.flow.tuple = new.flow.tuple else old.id = new.id

theorem Node.sameIdentity_iff_standsFor (n new : Node) : n.sameIdentity new = true ↔ new.rule.StandsFor n.rule :=
  sameIdentity_iff n new

namespace RuleSet

/-- Every rule is sound by itself, and no name is given twice or taken before. -/
structure Sound (taken : List (Classifier × UInt32)) (es : List RuleEntry) : Prop where
  faultless : ∀ e ∈ es, e.rule.fault? = none
  named : ∀ e ∈ es, e.rule.id = noRuleId → e.rule.classifier.isFlowKeyed = true
  untaken : ∀ e ∈ es, e.rule.id ≠ noRuleId → (e.rule.classifier, e.rule.id) ∉ taken
  distinct : es.Pairwise fun a b => a.rule.id ≠ noRuleId → (a.rule.classifier, a.rule.id) ≠ (b.rule.classifier, b.rule.id)

theorem entryFault?_eq_none_iff {i : Nat} {taken : List (Classifier × UInt32)} {r : Rule} :
    entryFault? i taken r = none ↔ r.fault? = none ∧ (r.id = noRuleId → r.classifier.isFlowKeyed = true) ∧
      (r.id ≠ noRuleId → (r.classifier, r.id) ∉ taken) := by
  unfold entryFault?
  cases r.fault? with
  | some f => simp
  | none =>
    by_cases hi : r.id = noRuleId
    · simp [hi]
    · simp [hi]

theorem sound_cons_iff (i : Nat) {taken : List (Classifier × UInt32)} {e : RuleEntry} {es : List RuleEntry} :
    Sound taken (e :: es) ↔ entryFault? i taken e.rule = none ∧
      Sound (if e.rule.id = noRuleId then taken else (e.rule.classifier, e.rule.id) :: taken) es := by
  rw [entryFault?_eq_none_iff]
  constructor
  · rintro ⟨hf, hn, hu, hd⟩
    rw [List.forall_mem_cons] at hf hn hu
    obtain ⟨he, hes⟩ := List.pairwise_cons.1 hd
    refine ⟨⟨hf.1, hn.1, hu.1⟩, hf.2, hn.2, fun x hx hxi => ?_, hes⟩
    split
    · exact hu.2 x hx hxi
    · rename_i hi
      exact fun hmem => (List.mem_cons.1 hmem).elim (fun heq => he x hx hi heq.symm) (hu.2 x hx hxi)
  · rintro ⟨⟨hf, hn, hu⟩, hfs, hns, hus, hes⟩
    refine ⟨List.forall_mem_cons.2 ⟨hf, hfs⟩, List.forall_mem_cons.2 ⟨hn, hns⟩, List.forall_mem_cons.2 ⟨hu, fun x hx hxi hmem => ?_⟩,
      List.pairwise_cons.2 ⟨fun x hx hi heq => ?_, hes⟩⟩
    · refine hus x hx hxi ?_
      split
      · exact hmem
      · exact List.mem_cons_of_mem _ hmem
    · have hxi : x.rule.id ≠ noRuleId := by
        rw [← (Prod.mk.inj heq).2]
        exact hi
      refine hus x hx hxi ?_
      rw [if_neg hi, heq]
      exact List.mem_cons_self

theorem faultFrom?_eq_none_iff : ∀ {i : Nat} {taken : List (Classifier × UInt32)} {es : List RuleEntry},
    faultFrom? i taken es = none ↔ Sound taken es
  | _, _, [] => ⟨fun _ => ⟨by simp, by simp, by simp, List.Pairwise.nil⟩, fun _ => rfl⟩
  | i, taken, e :: es => by
    rw [faultFrom?, sound_cons_iff i]
    cases entryFault? i taken e.rule with
    | some f => simp
    | none => simp [faultFrom?_eq_none_iff]

/-- **What the check accepts.** -/
theorem fault?_eq_none_iff {s : RuleSet} : s.fault? = none ↔ Sound [] s.rules := faultFrom?_eq_none_iff

theorem mem_enabledRules {s : RuleSet} {r : Rule} : r ∈ s.enabledRules ↔ ∃ e ∈ s.rules, e.enabled = true ∧ e.rule = r := by
  simp [enabledRules, and_assoc]

/-- **The enabled rules of an accepted set stand for none before them**, if no two flow-keyed ones share a tuple. -/
theorem apart_of_accepted {s : RuleSet} (h : s.fault? = none)
    (ht : s.enabledRules.Pairwise fun a b => a.classifier = .ifli → b.classifier = .ifli → a.flow.tuple ≠ b.flow.tuple) :
    s.enabledRules.Pairwise fun old new => ¬ new.StandsFor old := by
  have hsound := fault?_eq_none_iff.1 h
  have hd : s.enabledRules.Pairwise fun a b => a.id ≠ noRuleId → (a.classifier, a.id) ≠ (b.classifier, b.id) :=
    List.pairwise_map.2 (hsound.distinct.filter _)
  refine (ht.and hd).imp_of_mem fun {old new} _ hnew hapart hs => ?_
  obtain ⟨htuples, hnames⟩ := hapart
  obtain ⟨hc, hsame⟩ := hs
  split at hsame
  · rename_i hu
    have hifli := Classifier.isFlowKeyed_iff.1 hu.1
    exact htuples (hc.trans hifli) hifli hsame
  · rename_i hu
    have hi : old.id ≠ noRuleId := fun hi => by
      obtain ⟨e, he, -, rfl⟩ := mem_enabledRules.1 hnew
      exact hu ⟨hsound.named e he (hsame.symm.trans hi), hsame.symm.trans hi⟩
    exact hnames hi (Prod.ext hc hsame)

end RuleSet
end TrafficRules
