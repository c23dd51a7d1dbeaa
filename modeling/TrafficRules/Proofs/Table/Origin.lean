import TrafficRules.Proofs.Table.Run
/-!
# Origin — the addition a stored rule comes from

What is stored after a call was stored before it, or the call added it and its rule passed the checks of that moment
(`mem_step`).  Two things follow by induction: in a reachable table every stored rule passes its own check
(`Reachable.faultless`), and after a run every node is one that was there from the start or that one call of the run
stored, and no call has taken its place since (`run_origin`).
-/
namespace TrafficRules

theorem Rule.fault?_normalized (r : Rule) : r.normalized.fault? = r.fault? := rfl

theorem Rule.fault?_eq_none_iff {r : Rule} : r.fault? = none ↔ r.output.priority < Action.noMatchCode ∧
    (∀ n ∈ r.output.vlanPcpRemark, n ≤ 7) ∧ r.flow.fault? = none ∧ ∀ w ∈ r.wlan, w.fault? = none := by
  unfold fault?
  by_cases hp : r.output.priority < Action.noMatchCode
  · rw [if_neg (UInt8.not_le.2 hp), and_iff_right hp]
    cases hv : r.output.vlanPcpRemark.filter (7 < ·) with
    | some n =>
      obtain ⟨hn, hlt⟩ := Option.filter_eq_some_iff.1 hv
      refine iff_of_false (Option.some_ne_none _) fun h => ?_
      exact UInt8.not_le.2 (of_decide_eq_true hlt) (h.1 n hn)
    | none =>
      have hn : ∀ n ∈ r.output.vlanPcpRemark, n ≤ 7 := by simpa [Option.filter_eq_none_iff] using hv
      rw [and_iff_right hn]
      cases hf : r.flow.fault? with
      | some f => simp
      | none => cases hw : r.wlan <;> simp
  · rw [if_pos (UInt8.not_lt.1 hp)]
    simp [hp]

theorem Rule.priority_lt_of_faultless {r : Rule} (h : r.fault? = none) : r.output.priority < Action.noMatchCode :=
  (fault?_eq_none_iff.1 h).1

namespace Table

theorem faultless_of_accepted {t : Table} {r : Rule} {o : Outcome} (ho : (t.add r).result = .ok o) : r.fault? = none := by
  have hfit := fit_of_accepted ho
  cases hf : r.fault? with
  | none => rfl
  | some f => exact absurd (Or.inl (by rw [hf]; rfl)) hfit

theorem consulted_of_accepted {t : Table} {r : Rule} {o : Outcome} (ho : (t.add r).result = .ok o) :
    (t.add r).consulted = t.validatorCalls r := by
  have hf := faultless_of_accepted ho
  unfold add at ho ⊢
  rw [hf] at ho ⊢
  split at ho
  · cases ho
  · rename_i hroom
    rw [if_neg hroom]
    cases t.wlanRefusal? r <;> rfl

/-- A wireless rule is accepted by a validator, which was asked about its parameters. -/
theorem validated_of_accepted {t : Table} {r : Rule} {o : Outcome} (ho : (t.add r).result = .ok o)
    (hc : r.classifier = .sawf) {w : WlanParams} (hw : r.wlan = some w) :
    (∃ v, t.plugins.validator = some v ∧ v (.ofRule w) = true) ∧
      (t.add r).consulted = [⟨.validate, .ofRule w, true⟩] := by
  have hq : wlanQuestion? r = some (.ofRule w) := by
    unfold wlanQuestion? Rule.isWlan
    rw [hc, hw]
    rfl
  obtain ⟨v, hv, ha⟩ : ∃ v, t.plugins.validator = some v ∧ v (.ofRule w) = true := by
    by_contra hnone
    refine fit_of_accepted ho (Or.inr ⟨w, hc, hw, fun v hv => ?_⟩)
    exact Bool.eq_false_iff.2 fun ha => hnone ⟨v, hv, ha⟩
  refine ⟨⟨v, hv, ha⟩, ?_⟩
  rw [consulted_of_accepted ho, validatorCalls, hq, hv]
  dsimp only
  rw [ha]

/-! ## One call -/

/-- **A node is stored already, or the call adds it.** -/
theorem mem_step {t : Table} (h : Reachable t) (c : Call) {n : Node} (hn : n ∈ (t.step c).1.store.nodes) :
    n ∈ t.store.nodes ∨ ∃ r, c = .add r ∧ n = t.incoming r ∧ ∃ o, (t.add r).result = .ok o := by
  rcases c.add_or_not with ⟨r, rfl⟩ | hc
  · have hn : n ∈ (t.add r).table.store.nodes := hn
    rcases t.add_cases r with ⟨e, -, hsame⟩ | ⟨ho, hput, -⟩
    · rw [hsame] at hn
      exact Or.inl hn
    · rw [hput] at hn
      rcases h.valid.store.mem_put hn with rfl | hn
      · exact Or.inr ⟨r, rfl, rfl, ho⟩
      · exact Or.inl hn
  · obtain ⟨q, hnodes, -⟩ := step_filters h c hc
    rw [hnodes] at hn
    exact Or.inl (List.mem_filter.1 hn).1

theorem faultless_step {t : Table} (h : Reachable t) (ht : ∀ n ∈ t.store.nodes, n.rule.fault? = none) (c : Call) :
    ∀ n ∈ (t.step c).1.store.nodes, n.rule.fault? = none := by
  intro n hn
  rcases mem_step h c hn with hn | ⟨r, rfl, rfl, o, ho⟩
  · exact ht n hn
  · exact (Rule.fault?_normalized r).trans (faultless_of_accepted ho)

theorem plugins_step (t : Table) (c : Call) : (t.step c).1.plugins = t.plugins ∨ c = .plug (t.step c).1.plugins := by
  cases c with
  | add r => exact Or.inl ((IsChange.add r).settings t).2
  | delete sel c => exact Or.inl ((IsChange.delete sel c).settings t).2
  | flush c => exact Or.inl ((IsChange.flush c).settings t).2
  | plug plugins => exact Or.inr rfl
  | _ => exact Or.inl rfl

/-! ## Every reachable table -/

/-- **Every stored rule passes its check.** -/
theorem Reachable.faultless {t : Table} (h : Reachable t) : ∀ n ∈ t.store.nodes, n.rule.fault? = none := by
  induction h with
  | fresh config plugins =>
    intro n hn
    have hn : n ∈ Store.empty.nodes := hn
    rw [Store.nodes_empty] at hn
    cases hn
  | add r h ih => exact faultless_step h ih (.add r)
  | delete sel c h ih => exact faultless_step h ih (.delete sel c)
  | flush c h ih => exact faultless_step h ih (.flush c)
  | count x _ ih => exact ih
  | plug plugins _ ih => exact ih

theorem Reachable.precedence_lt {t : Table} (h : Reachable t) {n : Node} (hn : n ∈ t.store.nodes) :
    n.rule.precedence.toNat < Rule.precedenceCount := by
  rw [h.valid.store.ranked.precedence_eq hn]
  exact n.rule.bucket.isLt

/-! ## Every run -/

/-- **A node was there from the start and stayed, or one call of the run stored it** and it stayed from then on. -/
theorem run_origin : ∀ (cs : List Call) {t : Table}, Reachable t → ∀ {n : Node}, n ∈ (run cs t).1.store.nodes →
    (∀ mid, mid <+: cs → n ∈ (run mid t).1.store.nodes) ∨
    ∃ pre r post, cs = pre ++ .add r :: post ∧ n = (run pre t).1.incoming r ∧
      (∃ o, ((run pre t).1.add r).result = .ok o) ∧
      ∀ mid, mid <+: post → n ∈ (run (pre ++ .add r :: mid) t).1.store.nodes
  | [], _, _, n, hn => Or.inl fun mid hmid => by rwa [List.prefix_nil.1 hmid]
  | c :: cs, t, h, n, hn => by
    rcases run_origin cs (step_reachable h c) hn with hstays | ⟨pre, r, post, rfl, hrest⟩
    · rcases mem_step h c (hstays [] (List.nil_prefix)) with hbefore | ⟨r, rfl, hnew, ho⟩
      · left
        intro mid hmid
        rcases List.prefix_cons_iff.1 hmid with rfl | ⟨rest, rfl, hrest⟩
        · exact hbefore
        · exact hstays rest hrest
      · exact Or.inr ⟨[], r, cs, rfl, hnew, ho, hstays⟩
    · exact Or.inr ⟨c :: pre, r, post, rfl, hrest⟩

theorem run_plugins : ∀ (cs : List Call) (t : Table),
    (run cs t).1.plugins = t.plugins ∨ .plug (run cs t).1.plugins ∈ cs
  | [], _ => Or.inl rfl
  | c :: cs, t => by
    rcases run_plugins cs (t.step c).1 with hsame | hmem
    · rcases plugins_step t c with hstep | hplug
      · exact Or.inl (hsame.trans hstep)
      · right
        rw [run, hsame, ← hplug]
        exact List.mem_cons_self
    · exact Or.inr (List.mem_cons_of_mem c hmem)

end Table
end TrafficRules
