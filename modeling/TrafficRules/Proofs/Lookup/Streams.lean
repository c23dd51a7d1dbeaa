import TrafficRules.Proofs.Lookup.Turns
/-!
# Streams — stream classification on its own and as a pass of a flow

A request for stream classification scans one family; the stream pass of a flow scans that family merged with another, and
comes after the service-aware rules.  The one is a narrower search in the same list, so a hit of the wider that the narrower
is for is its hit as well (`selected_of_wider`), and a hit of the narrower has one of the wider before it or is that.  So
the two lookups agree on the rules they share (`stream_lookups_agree`).
-/
namespace TrafficRules

theorem Scan.stream_of_scs {p : Plugins} {i : FlowInput} {r : Rule} (h : (scs i).Matches p r) : (stream i).Matches p r :=
  ⟨Or.inl h.1, by rw [h.1]; exact h.2⟩

theorem PriorityDecision.ofHit_eq_iff {hit : Option (UInt8 × UInt32)} {p : UInt8} {id : UInt32} :
    ofHit hit = ⟨some p, some id⟩ ↔ hit = some (p, id) := by
  rcases hit with - | ⟨p', id'⟩ <;> simp [ofHit]

theorem Node.flowDecision_ruleType (n : Node) : n.flowDecision.ruleType =
    match n.rule.classifier with
    | .sawf => some .sawf
    | .ifli => some .ifli
    | _ => some .sawfScs := by
  unfold flowDecision
  cases n.rule.classifier <;> rfl

namespace Table

variable {t : Table} {i : FlowInput}

/-! ## The two searches -/

theorem selected_of_wider (scan wide : Scan) (hw : ∀ r, scan.Matches t.plugins r → wide.Matches t.plugins r) {n : Node}
    (hn : t.selected wide = some n) (hmatch : scan.Matches t.plugins n.rule) : t.selected scan = some n := by
  obtain ⟨-, before, after, hnodes, hbefore⟩ := (selected_eq_some_iff wide).1 hn
  exact (selected_eq_some_iff scan).2 ⟨hmatch, before, after, hnodes, fun m hm hearlier => hbefore m hm (hw m.rule hearlier)⟩

theorem scsHit_of_streamHit {n : Node} (hn : t.streamHit i = some n) (hc : n.rule.classifier = .scs) :
    t.scsHit i = some n := by
  obtain ⟨-, -, ha⟩ := of_selected (.stream i) hn
  rw [hc] at ha
  exact selected_of_wider (.scs i) (.stream i) (fun _ => Scan.stream_of_scs) hn ⟨hc, ha⟩

theorem streamHit_of_scsHit (h : Valid t) {n : Node} (hn : t.scsHit i = some n) :
    ∃ m, t.streamHit i = some m ∧ n.rule.precedence ≤ m.rule.precedence := by
  obtain ⟨hmem, hmatch⟩ := of_selected (.scs i) hn
  have hboth := Scan.stream_of_scs hmatch
  cases hm : t.streamHit i with
  | none => exact absurd hboth ((selected_eq_none_iff (.stream i)).1 hm n hmem)
  | some m => exact ⟨m, rfl, precedence_le_of_selected h (.stream i) hm hmem hboth⟩

/-! ## The flow -/

theorem classifyFlow_eq_selects (t : Table) (i : FlowInput) :
    t.classifyFlow i = ((t.selects (.sawf i)).map Node.flowDecision).getD {} :=
  Decision.sawf.inj (decide_eq_answer t (.sawf i))

theorem classifyFlow_of_selects {m : Node} (hm : t.selects (.sawf i) = some m) : t.classifyFlow i = m.flowDecision := by
  rw [classifyFlow_eq_selects, hm]
  rfl

theorem selects_of_scsHit (h : Valid t) (hdev : i.destDev.isSome = true) {n : Node} (hn : t.scsHit i = some n) :
    (∃ m, t.sawfHit i = some m ∧ t.selects (.sawf i) = some m) ∨
      t.sawfHit i = none ∧ ∃ m, t.streamHit i = some m ∧ n.rule.precedence ≤ m.rule.precedence ∧
        t.selects (.sawf i) = some m := by
  have hmem := (of_selected (.scs i) hn).1
  have he : t.store.isEmpty = false := Bool.eq_false_iff.2 (mt h.store.isEmpty_iff.1 (List.ne_nil_of_mem hmem))
  have hc : t.consults i = true := by
    unfold consults
    rw [hdev, he]
    rfl
  have hs : t.selects (.sawf i) = (t.sawfHit i).or ((t.streamHit i).or (t.ifliHit i)) := if_pos hc
  rw [hs]
  cases hsawf : t.sawfHit i with
  | some m => exact Or.inl ⟨m, rfl, rfl⟩
  | none =>
    obtain ⟨m, hm, hle⟩ := streamHit_of_scsHit h hn
    exact Or.inr ⟨rfl, m, hm, hle, by rw [hm]; rfl⟩

theorem ruleType_of_scsHit (h : Valid t) (hdev : i.destDev.isSome = true) {n : Node} (hn : t.scsHit i = some n) :
    (t.classifyFlow i).ruleType = some .sawf ∨ (t.classifyFlow i).ruleType = some .sawfScs := by
  rcases selects_of_scsHit h hdev hn with ⟨m, hm, hs⟩ | ⟨-, m, hm, -, hs⟩
  · have hc := (of_selected (.sawf i) hm).2.1
    rw [classifyFlow_of_selects hs, Node.flowDecision_ruleType, hc]
    exact Or.inl rfl
  · have hc := (of_selected (.stream i) hm).2.1
    rw [classifyFlow_of_selects hs, Node.flowDecision_ruleType]
    rcases hc with hc | hc <;> rw [hc] <;> exact Or.inr rfl

theorem classifyScs_eq_iff {p : UInt8} {id : UInt32} : t.classifyScs i = ⟨some p, some id⟩ ↔
    ∃ n, t.scsHit i = some n ∧ n.rule.output.priority = p ∧ n.rule.id = id := by
  unfold classifyScs
  rw [PriorityDecision.ofHit_eq_iff]
  simp

theorem classifier_of_streamHit (hplain : ∀ r ∈ t.rules, r.classifier = .sawfScs → r.flow.accepts i .sawfScs = false)
    {m : Node} (hm : t.streamHit i = some m) : m.rule.classifier = .scs := by
  obtain ⟨hmem, hc, ha⟩ := of_selected (.stream i) hm
  refine hc.resolve_right fun hc => ?_
  rw [hc, hplain m.rule (List.mem_map_of_mem hmem) hc] at ha
  cases ha

/-- **Stream classification and the lookup of a flow agree.**  Where the former hits a rule the flow is a match, of the
service-aware rules or of the stream pass; without a service-aware rule to match the rule selected has no lower precedence,
and if the stream pass has no rule of the other family either it is the same rule.  A rule of the plain family that the
stream pass selects is the one stream classification answers from; and where a flow is answered by neither of these passes,
stream classification finds nothing. -/
theorem stream_lookups_agree (h : Reachable t) (hdev : i.destDev.isSome = true) :
    (∀ p id, t.classifyScs i = ⟨some p, some id⟩ →
      (t.classifyFlow i).isMatch = true ∧
      ((t.classifyFlow i).ruleType = some .sawf ∨ (t.classifyFlow i).ruleType = some .sawfScs) ∧
      ((∀ r ∈ t.rules, ¬ (Scan.sawf i).Matches t.plugins r) →
        (∃ m, t.selects (.sawf i) = some m ∧ t.classifyFlow i = m.flowDecision ∧
          ∀ r ∈ t.rules, r.classifier = .scs → r.id = id → r.precedence ≤ m.rule.precedence) ∧
        ((∀ r ∈ t.rules, r.classifier = .sawfScs → r.flow.accepts i .sawfScs = false) →
          (t.classifyFlow i).ruleId = some id ∧ (t.classifyFlow i).priority = p))) ∧
    (∀ n, t.streamHit i = some n → n.rule.classifier = .scs →
      t.classifyScs i = ⟨some n.rule.output.priority, some n.rule.id⟩) ∧
    ((t.classifyFlow i).isMatch = false ∨ (t.classifyFlow i).ruleType = some .ifli → t.classifyScs i = {}) := by
  refine ⟨?_, fun n hn hc => classifyScs_eq_iff.2 ⟨n, scsHit_of_streamHit hn hc, rfl, rfl⟩, fun hother => ?_⟩
  · intro p id hscs
    obtain ⟨n, hn, rfl, rfl⟩ := classifyScs_eq_iff.1 hscs
    have htype := ruleType_of_scsHit h.valid hdev hn
    refine ⟨?_, htype, fun hno => ?_⟩
    · unfold FlowDecision.isMatch
      rcases htype with htype | htype <;> rw [htype] <;> rfl
    rcases selects_of_scsHit h.valid hdev hn with ⟨m, hm, -⟩ | ⟨-, m, hm, hle, hs⟩
    · obtain ⟨hmem, hmatch⟩ := of_selected (.sawf i) hm
      exact absurd hmatch (hno m.rule (List.mem_map_of_mem hmem))
    refine ⟨⟨m, hs, classifyFlow_of_selects hs, fun r hr hc hid => ?_⟩, fun hplain => ?_⟩
    · obtain ⟨n', hn', rfl⟩ := List.mem_map.1 hr
      obtain ⟨hmem, hnc, -⟩ := of_selected (.scs i) hn
      rw [h.eq_of_id hn' hmem (by rw [hnc]; rfl) (hc.trans hnc.symm) hid]
      exact hle
    · -- the pass selects a rule of the plain family, so it is the rule of the narrower scan
      have hc := classifier_of_streamHit hplain hm
      cases hn.symm.trans (scsHit_of_streamHit hm hc)
      rw [classifyFlow_of_selects hs]
      unfold Node.flowDecision
      rw [hc]
      exact ⟨rfl, rfl⟩
  · cases hn : t.scsHit i with
    | none =>
      unfold classifyScs
      rw [hn]
      rfl
    | some n =>
      unfold FlowDecision.isMatch at hother
      rcases ruleType_of_scsHit h.valid hdev hn with htype | htype <;> rw [htype] at hother <;> simp at hother

/-- A rule for every pass, that of the plain family naming a station behind an interface. -/
def everyPass : Table :=
  (run [.add { id := 5, classifier := .scs, precedence := 4, flow := { dstMac := some ⟨2, 0, 0, 0, 0, 1⟩, dstIfindex := some 3 }
               output := { priority := 6 } },
    .add { id := 6, classifier := .sawfScs, precedence := 9, flow := { dstPort := some 443 } },
    .add { id := 5, classifier := .sawf, precedence := 1, flow := { dstPort := some 80 } },
    .add { classifier := .ifli, flow := { dstPort := some 22 } }] {}).1

/-- A flow that leaves by the interface, to the address of the interface itself. -/
def toStation (port : UInt16) : FlowInput :=
  { dstPort := port, devAddr := ⟨2, 0, 0, 0, 0, 1⟩, dstIfindex := some 3, destDev := some "wlan0" }

theorem stream_lookups_agree_everyPass :
    everyPass.classifyScs (toStation 443) = ⟨some 6, some 5⟩ ∧ (everyPass.classifyFlow (toStation 443)).ruleId = some 6 ∧
    (∃ m, everyPass.selects (.sawf (toStation 443)) = some m ∧
      ∀ r ∈ everyPass.rules, r.classifier = .scs → r.id = 5 → r.precedence ≤ m.rule.precedence) ∧
    (everyPass.classifyFlow (toStation 80)).isMatch = true ∧
    ((everyPass.classifyFlow (toStation 1)).ruleId = some 5 ∧ (everyPass.classifyFlow (toStation 1)).priority = 6) ∧
    (everyPass.classifyFlow { dstPort := 22, destDev := some "wlan0" }).ruleType = some .ifli ∧
    everyPass.classifyScs { dstPort := 22, destDev := some "wlan0" } = {} := by
  have h : Reachable everyPass := run_reachable _ (.fresh {} {})
  have hscs : everyPass.classifyScs (toStation 443) = ⟨some 6, some 5⟩ := by decide +kernel
  have hifli : (everyPass.classifyFlow { dstPort := 22, destDev := some "wlan0" }).ruleType = some .ifli := by decide +kernel
  have hunserved : ∀ port, everyPass.sawfHit (toStation port) = none →
      ∀ r ∈ everyPass.rules, ¬ (Scan.sawf (toStation port)).Matches everyPass.plugins r := by
    intro port hnone r hr
    obtain ⟨n, hn, rfl⟩ := List.mem_map.1 hr
    exact (selected_eq_none_iff (.sawf (toStation port))).1 hnone n hn
  obtain ⟨-, -, hother⟩ := (stream_lookups_agree h (i := toStation 443) rfl).1 6 5 hscs
  obtain ⟨hmatch, -, -⟩ := (stream_lookups_agree h (i := toStation 80) rfl).1 6 5 (by decide +kernel)
  obtain ⟨-, -, hsame⟩ := (stream_lookups_agree h (i := toStation 1) rfl).1 6 5 (by decide +kernel)
  obtain ⟨⟨m, hm, -, hle⟩, -⟩ := hother (hunserved 443 (by decide +kernel))
  exact ⟨hscs, by decide +kernel, ⟨m, hm, hle⟩, hmatch, (hsame (hunserved 1 (by decide +kernel))).2 (by decide +kernel),
    hifli, (stream_lookups_agree h rfl).2.2 (Or.inr hifli)⟩

end Table
end TrafficRules
