import TrafficRules.Proofs.Table.Follow
import TrafficRules.Proofs.Table.RoundTrip
/-!
# Independent — additions that commute

Seen from one precedence, the addition of a rule named by its id does one of two things (`rulesAt_added`): it joins the
rules of its own precedence, in the place of the rule of its name or behind them all, and from those of another precedence
it takes the rule of its name away.  Two additions of different names and precedences never join the same rules, and a rule
settles alike before and after another name is taken away (`filter_settleIn`).  Nor does an addition move what the other
one looks for.  So both are answered alike in either order and lead to the same rules (`independent_adds_commute`).
-/
namespace TrafficRules

namespace Rule

theorem sameName_comm (a b : Rule) : a.sameName b = b.sameName a := by
  rw [Bool.eq_iff_iff, sameName_iff, sameName_iff]
  exact ⟨fun h => ⟨h.1.symm, h.2.symm⟩, fun h => ⟨h.1.symm, h.2.symm⟩⟩

/-- Puts a rule in the place of the one of its name, or behind the others. -/
def settleIn (r : Rule) (rules : List Rule) : List Rule :=
  if rules.any (·.sameName r) then rules.map fun x => if x.sameName r then r else x else rules ++ [r]

theorem settleIn_cut {r old : Rule} {A B : List Rule} (hold : old.sameName r = true) (hA : ∀ x ∈ A, x.sameName r = false)
    (hB : ∀ x ∈ B, x.sameName r = false) : r.settleIn (A ++ old :: B) = A ++ r :: B := by
  have hany : (A ++ old :: B).any (·.sameName r) = true :=
    List.any_eq_true.2 ⟨old, List.mem_append_right A List.mem_cons_self, hold⟩
  rw [settleIn, if_pos hany, map_cut hold hA hB]

theorem settleIn_of_none {r : Rule} {rules : List Rule} (h : ∀ x ∈ rules, x.sameName r = false) :
    r.settleIn rules = rules ++ [r] := by
  have hany : ¬ rules.any (·.sameName r) = true := fun hany => by
    obtain ⟨x, hx, hname⟩ := List.any_eq_true.1 hany
    rw [h x hx] at hname
    cases hname
  rw [settleIn, if_neg hany]

/-- **A rule settles beside a name that goes.** -/
theorem filter_settleIn {r s : Rule} (hne : r.sameName s = false) (rules : List Rule) :
    (r.settleIn rules).filter (!·.sameName s) = r.settleIn (rules.filter (!·.sameName s)) := by
  have hkept : ∀ x : Rule, x.sameName r = true → x.sameName s = false := fun x hx => by
    obtain ⟨hc, hi⟩ := sameName_iff.1 hx
    rw [sameName, hc, hi]
    exact hne
  have hany : (rules.filter (!·.sameName s)).any (·.sameName r) = rules.any (·.sameName r) := by
    rw [List.any_filter]
    refine congrArg rules.any (funext fun x => ?_)
    cases hx : x.sameName r with
    | true => rw [hkept x hx]; rfl
    | false => exact Bool.and_false _
  rw [settleIn, settleIn, hany]
  split
  · rw [List.filter_map]
    refine congrArg (List.map _) (List.filter_congr fun x _ => ?_)
    show (!(if x.sameName r then r else x).sameName s) = !x.sameName s
    split
    · rename_i hx
      rw [hne, hkept x hx]
    · rfl
  · rw [List.filter_append, List.filter_cons_of_pos (by rw [hne]; rfl), List.filter_nil]

end Rule

theorem Store.findSame_of_id {r : Rule} (hc : r.classifier.isFlowKeyed = false) (s : Store) (k : Nat) :
    s.findSame (Node.ofRule k r) = s.find (.id r.id) r.classifier := by
  have hifli : r.classifier ≠ .ifli := Classifier.isFlowKeyed_eq_false_iff.1 hc
  rw [← find_selector s k fun he => absurd he hifli, Rule.selector_of_named fun hu => ?_]
  exact hifli (Classifier.isFlowKeyed_iff.1 hu.1)

namespace Table

/-- The rules of one precedence, in the order of evaluation. -/
def rulesAt (t : Table) (p : Fin Rule.precedenceCount) : List Rule := (t.store.buckets.get p).map (·.rule)

theorem rules_of_rulesAt {t t' : Table} (h : ∀ p, t.rulesAt p = t'.rulesAt p) : t.rules = t'.rules := by
  have hbuckets : t.store.buckets.map (List.map (·.rule)) = t'.store.buckets.map (List.map (·.rule)) :=
    Vector.ext fun p hp => by
      rw [Vector.getElem_map, Vector.getElem_map]
      exact h ⟨p, hp⟩
  have hrules : ∀ u : Table, u.rules = (u.store.buckets.map (List.map (·.rule))).toList.reverse.flatten := fun u => by
    rw [Vector.toList_map, ← List.map_reverse, ← List.map_flatten]
    rfl
  rw [hrules, hrules, hbuckets]

theorem rulesAt_eq {t : Table} (h : Valid t) (p : Fin Rule.precedenceCount) :
    t.rulesAt p = (t.store.nodes.filter (·.rule.bucket == p)).map (·.rule) := by
  rw [rulesAt, h.store.ranked.bucket_eq_filter]

/-! ## One addition, seen from one precedence -/

section Added

variable {t : Table} (h : Reachable t) {r : Rule} (hc : r.classifier.isFlowKeyed = false)
include h hc

theorem findSame_of_named {m : Node} (hm : m ∈ t.store.nodes) (hname : m.rule.sameName r = true) :
    t.store.findSame (t.incoming r) = some m := by
  obtain ⟨hmc, hmi⟩ := Rule.sameName_iff.1 hname
  have hfind := find_of_mem h hm (by rw [hmc, hc])
  rwa [hmc, hmi, ← Store.findSame_of_id hc t.store t.nextSerial] at hfind

/-- The rule of its name, if it is of its precedence, leaves it its slot. -/
theorem rulesAt_added_slot {old : Node} (hf : t.store.findSame (t.incoming r) = some old) (hb : old.rule.bucket = r.bucket)
    {A B : List Node} (hcut : t.store.nodes = A ++ old :: B) (hput : (t.add r).table.store.nodes = A ++ t.incoming r :: B) :
    (t.add r).table.rulesAt r.bucket = r.normalized.settleIn (t.rulesAt r.bucket) := by
  have hname : old.rule.sameName r.normalized = true := Rule.sameName_iff.2 (named_of_findSame h hf hc)
  have hother := Rule.sameName_congr hname
  obtain ⟨hA, hB⟩ := h.unnamed_around hcut (by rw [classifier_of_findSame h hf, hc])
  rw [rulesAt_eq (h.add r).valid, rulesAt_eq h.valid, hcut, hput, List.filter_append, List.filter_append,
    List.filter_cons_of_pos (by rw [bucket_incoming, beq_self_eq_true]), List.filter_cons_of_pos (by rw [hb, beq_self_eq_true]),
    List.map_append, List.map_append, List.map_cons, List.map_cons, Rule.settleIn_cut hname]
  · rfl
  · intro x hx
    obtain ⟨m, hm, rfl⟩ := List.mem_map.1 hx
    exact hother _ ▸ hA m (List.mem_filter.1 hm).1
  · intro x hx
    obtain ⟨m, hm, rfl⟩ := List.mem_map.1 hx
    exact hother _ ▸ hB m (List.mem_filter.1 hm).1

variable {o : Outcome} (ho : (t.add r).result = .ok o)
include ho

/-- From the rules of another precedence the rule of its name is gone. -/
theorem rulesAt_added_of_ne {p : Fin Rule.precedenceCount} (hp : p ≠ r.bucket) :
    (t.add r).table.rulesAt p = (t.rulesAt p).filter (!·.sameName r) := by
  have hnew : t.incoming r ∈ (t.add r).table.store.nodes := by
    rw [store_of_accepted ho]
    exact h.valid.store.mem_put_self _
  -- the one rule of the name is the one that came, and it stands elsewhere
  have hnamed : ∀ m ∈ (t.add r).table.store.nodes, (m.rule.bucket == p) = true → (!m.rule.sameName r) = true := by
    intro m hm hmp
    rw [Bool.not_eq_true', Bool.eq_false_iff]
    intro hname
    obtain ⟨hmc, hmi⟩ := Rule.sameName_iff.1 hname
    rw [(h.add r).eq_of_id hm hnew hc hmc hmi, bucket_incoming] at hmp
    exact hp (beq_iff_eq.1 hmp).symm
  rw [rulesAt_eq (h.add r).valid, rulesAt_eq h.valid, List.filter_map, ← Node.filter_filter_of_imp hnamed]
  refine congrArg (List.map _) ?_
  rw [show (t.add r).table.store.nodes.filter (!·.rule.sameName r) = t.store.nodes.filter (!·.rule.sameName r) from
    (add_agreeOn h ho hc).nodes]
  exact List.filter_comm _ _ _

/-- If no rule of its precedence has its name, it comes behind them. -/
theorem rulesAt_added_last (hf : ∀ old, t.store.findSame (t.incoming r) = some old → old.rule.bucket ≠ r.bucket)
    {L : List Node} (hL : L.Sublist t.store.nodes) (hput : (t.add r).table.store.nodes = Node.placeIn (t.incoming r) L) :
    (t.add r).table.rulesAt r.bucket = r.normalized.settleIn (t.rulesAt r.bucket) := by
  have hbucket : (t.incoming r).rule.bucket = r.bucket := bucket_incoming t r
  have hself : (t.incoming r).rule.sameName r = true := Rule.sameName_iff.2 ⟨rfl, rfl⟩
  have hnone : ∀ m ∈ t.store.nodes, (m.rule.bucket == r.bucket) = true → (!m.rule.sameName r) = true := by
    intro m hm hmb
    rw [Bool.not_eq_true', Bool.eq_false_iff]
    intro hname
    exact hf m (findSame_of_named h hc hm hname) (beq_iff_eq.1 hmb)
  have hagree : L.filter (!·.rule.sameName r) = t.store.nodes.filter (!·.rule.sameName r) := by
    have hadded : (t.add r).table.store.nodes.filter (!·.rule.sameName r) = t.store.nodes.filter (!·.rule.sameName r) :=
      (add_agreeOn h ho hc).nodes
    rwa [hput, Node.filter_placeIn_of_neg (by rw [hself]; rfl)] at hadded
  have hrest : L.filter (·.rule.bucket == r.bucket) = t.store.nodes.filter (·.rule.bucket == r.bucket) := by
    rw [← Node.filter_filter_of_imp hnone, ← hagree, Node.filter_filter_of_imp fun m hm => hnone m (hL.subset hm)]
  rw [rulesAt_eq (h.add r).valid, rulesAt_eq h.valid, hput,
    Node.filter_placeIn_of_pos (by rw [hbucket, beq_self_eq_true])
      (fun m hm => Fin.le_of_eq (hbucket.trans (beq_iff_eq.1 hm).symm)), hrest, List.map_append, Rule.settleIn_of_none]
  · rfl
  · intro x hx
    obtain ⟨m, hm, rfl⟩ := List.mem_map.1 hx
    obtain ⟨hm, hmb⟩ := List.mem_filter.1 hm
    exact Bool.not_eq_true' _ ▸ hnone m hm hmb

/-- The rules of its own precedence it joins. -/
theorem rulesAt_added_self : (t.add r).table.rulesAt r.bucket = r.normalized.settleIn (t.rulesAt r.bucket) := by
  have hnodes := h.valid.store.nodes_put (t.incoming r)
  rw [← store_of_accepted ho, bucket_incoming] at hnodes
  rcases hnodes with ⟨old, A, B, hf, hb, hcut, hput⟩ | ⟨hf, L, hL, hput⟩
  · exact rulesAt_added_slot h hc hf hb hcut hput
  · exact rulesAt_added_last h hc ho hf hL hput

/-- **One addition, seen from one precedence.** -/
theorem rulesAt_added (p : Fin Rule.precedenceCount) : (t.add r).table.rulesAt p =
    if p = r.bucket then r.normalized.settleIn (t.rulesAt p) else (t.rulesAt p).filter (!·.sameName r) := by
  split
  · rename_i hp
    rw [hp, rulesAt_added_self h hc ho]
  · rename_i hp
    exact rulesAt_added_of_ne h hc ho hp

end Added

/-! ## Two additions -/

/-- Tables with room, the same plugins and the same node to stand for answer an addition alike. -/
theorem result_congr {t t' : Table} (hroom : ¬ t.Full) (hroom' : ¬ t'.Full) (hp : t'.plugins = t.plugins) {r : Rule}
    (hf : t'.store.findSame (t'.incoming r) = t.store.findSame (t.incoming r)) : (t'.add r).result = (t.add r).result := by
  have hadm : admission t'.config t'.plugins t'.size r = admission t.config t.plugins t.size r := by
    unfold admission
    rw [if_neg (show ¬ t'.config.maxRules.toNat ≤ t'.size from hroom'),
      if_neg (show ¬ t.config.maxRules.toNat ≤ t.size from hroom), hp]
  rw [add_eq, add_eq, hadm]
  rcases admission t.config t.plugins t.size r with ⟨_ | e, calls⟩
  · show (t'.install r).result = (t.install r).result
    unfold incoming at hf
    unfold install
    dsimp only
    rw [hf]
    cases t.store.findSame (Node.ofRule t.nextSerial r) <;> rfl
  · rfl

section Two

variable {t : Table} (h : Reachable t) (hroom : t.size + 2 ≤ t.config.maxRules.toNat) {r s : Rule}
  (hr : r.classifier.isFlowKeyed = false) (hs : s.classifier.isFlowKeyed = false) (hname : r.sameName s = false)
include h hroom hr hs hname

/-- **What a rule is answered** does not depend on whether another one came before it. -/
theorem result_beside : ((t.add s).table.add r).result = (t.add r).result := by
  cases hres : (t.add s).result with
  | error e => rw [((IsChange.add s).of_error hres).1]
  | ok o =>
    obtain ⟨hconfig, hplugins⟩ := (IsChange.add s).settings t
    have hone := size_accepted h.valid hres
    refine result_congr ?_ ?_ hplugins ?_
    · unfold Full
      omega
    · unfold Full
      rw [hconfig]
      omega
    · show Store.findSame _ (Node.ofRule _ r) = Store.findSame _ (Node.ofRule _ r)
      rw [Store.findSame_of_id hr, Store.findSame_of_id hr]
      refine (add_agreeOn h hres hs).find (by simp [Selector.isKeyed, hr]) fun n hn => ?_
      rw [Bool.not_eq_true', Bool.eq_false_iff]
      intro hns
      obtain ⟨hrc, hri⟩ := names_id_iff.1 hn
      obtain ⟨hsc, hsi⟩ := names_id_iff.1 hns
      rw [Rule.sameName_iff.2 ⟨hrc.symm.trans hsc, hri.symm.trans hsi⟩] at hname
      cases hname

/-- **Where both are taken**, each precedence ends up with the same rules. -/
theorem rulesAt_beside {o o' : Outcome} (ho : (t.add r).result = .ok o) (ho' : (t.add s).result = .ok o')
    (hb : r.bucket ≠ s.bucket) (p : Fin Rule.precedenceCount) :
    ((t.add r).table.add s).table.rulesAt p = ((t.add s).table.add r).table.rulesAt p := by
  have hname' : s.sameName r = false := Rule.sameName_comm r s ▸ hname
  have hrs := (result_beside h hroom hs hr hname').trans ho'
  have hsr := (result_beside h hroom hr hs hname).trans ho
  rw [rulesAt_added (h.add r) hs hrs, rulesAt_added (h.add s) hr hsr, rulesAt_added h hr ho, rulesAt_added h hs ho']
  by_cases hpr : p = r.bucket
  · have hps : p ≠ s.bucket := hpr ▸ hb
    rw [if_pos hpr, if_pos hpr, if_neg hps, if_neg hps]
    exact Rule.filter_settleIn (r := r.normalized) hname _
  · rw [if_neg hpr, if_neg hpr]
    by_cases hps : p = s.bucket
    · rw [if_pos hps, if_pos hps]
      exact (Rule.filter_settleIn (r := s.normalized) hname' _).symm
    · rw [if_neg hps, if_neg hps]
      exact List.filter_comm _ _ _

end Two

theorem answer_of_room {t : Table} (hroom : ¬ t.Full) (r : Rule) : (∃ key, (t.add r).result = .ok (.added key)) ∨
    (∃ key, (t.add r).result = .ok (.modified key)) ∨ ∃ reason, (t.add r).result = .error (.invalidEntry reason) := by
  rcases t.add_answers r with ⟨hfull, -⟩ | ⟨-, -, hreason⟩ | ⟨-, -, ⟨old, key, -, ho⟩ | ⟨key, -, ho⟩⟩
  · exact absurd hfull hroom
  · exact Or.inr (Or.inr hreason)
  · exact Or.inr (Or.inl ⟨key, ho⟩)
  · exact Or.inl ⟨key, ho⟩

/-- **Independent additions commute.**  In a table with room for two more, rules of families named by id that differ in
name and in the precedence they are stored at are each answered alike whichever is added first, as a new rule, as one in
the place of another or as refused for its own sake; and either order leads to the same rules in the same order. -/
theorem independent_adds_commute {t : Table} (h : Reachable t) (hroom : t.size + 2 ≤ t.config.maxRules.toNat) {r s : Rule}
    (hr : r.classifier ≠ .ifli) (hs : s.classifier ≠ .ifli) (hname : (r.classifier, r.id) ≠ (s.classifier, s.id))
    (hprec : (if r.precedence = 255 then 0 else r.precedence) ≠ if s.precedence = 255 then 0 else s.precedence) :
    ((t.add s).table.add r).result = (t.add r).result ∧ ((t.add r).table.add s).result = (t.add s).result ∧
    (∀ x ∈ [r, s], (∃ key, (t.add x).result = .ok (.added key)) ∨ (∃ key, (t.add x).result = .ok (.modified key)) ∨
      ∃ reason, (t.add x).result = .error (.invalidEntry reason)) ∧
    ((t.add r).table.add s).table.rules = ((t.add s).table.add r).table.rules := by
  have hr := Classifier.isFlowKeyed_eq_false_iff.2 hr
  have hs := Classifier.isFlowKeyed_eq_false_iff.2 hs
  have hrs : r.sameName s = false := Bool.eq_false_iff.2 fun hn =>
    hname (Prod.ext (Rule.sameName_iff.1 hn).1 (Rule.sameName_iff.1 hn).2)
  have hsr : s.sameName r = false := Rule.sameName_comm r s ▸ hrs
  have hbucket : r.bucket ≠ s.bucket := by
    have hstored : ∀ x : Rule, x.normalized.precedence = if x.precedence = 255 then 0 else x.precedence := fun x =>
      congrArg Rule.precedence x.normalized_eq
    intro hb
    apply hprec
    rw [← hstored, ← hstored, ← UInt8.toNat_inj, r.precedence_normalized, s.precedence_normalized, hb]
  have hfirst := result_beside h hroom hr hs hrs
  have hsecond := result_beside h hroom hs hr hsr
  have hfree : ¬ t.Full := by
    unfold Full
    omega
  refine ⟨hfirst, hsecond, fun x _ => answer_of_room hfree x, ?_⟩
  -- a rule that is refused is refused in either order and changes nothing
  cases hres : (t.add r).result with
  | error e => rw [((IsChange.add r).of_error hres).1, ((IsChange.add r).of_error (hfirst.trans hres)).1]
  | ok o =>
    cases hres' : (t.add s).result with
    | error e => rw [((IsChange.add s).of_error hres').1, ((IsChange.add s).of_error (hsecond.trans hres')).1]
    | ok o' => exact rules_of_rulesAt (rulesAt_beside h hroom hr hs hrs hres hres' hbucket)

/-- Rules of one id and two families, each of which moves out of the precedence that the other one moves into. -/
theorem independent_adds_commute_underOneKey :
    let up : Rule := { id := 2, classifier := .scs, precedence := 7 }
    let down : Rule := { id := 2, classifier := .sawf, precedence := 255 }
    ((underOneKey.add down).table.add up).result = .ok (.modified none) ∧
    ((underOneKey.add up).table.add down).result = .ok (.modified none) ∧
    ((underOneKey.add up).table.add down).table.rules = ((underOneKey.add down).table.add up).table.rules ∧
    ((underOneKey.add up).table.add down).table.rules.map (fun r => (r.classifier, r.precedence)) =
      [(.scs, 7), (.ifli, 0), (.sawf, 0)] := by
  intro up down
  have hroom : underOneKey.size + 2 ≤ underOneKey.config.maxRules.toNat := by decide +kernel
  obtain ⟨hup, hdown, -, hrules⟩ := independent_adds_commute reachable_underOneKey hroom
    (show up.classifier ≠ .ifli by decide) (show down.classifier ≠ .ifli by decide) (by decide) (by decide)
  exact ⟨hup.trans (by decide +kernel), hdown.trans (by decide +kernel), hrules, by decide +kernel⟩

end Table
end TrafficRules
