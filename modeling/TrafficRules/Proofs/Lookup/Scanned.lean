import TrafficRules.Lookup
import TrafficRules.Proofs.Table.Stays
/-!
# Scanned — rules found in evaluation order

Every lookup but that by hash scans the rules of its families in evaluation order and answers from the first that
matches (`selected_eq_some_iff`).  After any run that is the rule of the highest precedence among those that match and,
of several, the one that has had it for the longest (`scan_selects_dominant`).
-/
namespace TrafficRules

inductive Scan where
  /-- For the priority of a frame and for its latency parameters. -/
  | mesh (frame : Frame)
  | sawf (flow : FlowInput)
  /-- For a flow that no service-aware rule matches. -/
  | stream (flow : FlowInput)
  | scs (flow : FlowInput)
  | mscs (flow : FlowInput)

namespace Scan

/-- The rules a scan is for.  One with wireless parameters matches when the query callback says so. -/
def Matches (p : Plugins) : Scan → Rule → Prop
  | mesh f, r => r.classifier = .mesh ∧ r.mesh.accepts f = true
  | sawf i, r => r.classifier = .sawf ∧ match r.wlan with
    | some w => ∃ v, p.query = some v ∧ v (Table.wlanFlowQuestion w i) = true
    | none => r.flow.accepts i .sawf = true
  | stream i, r => (r.classifier = .scs ∨ r.classifier = .sawfScs) ∧ r.flow.accepts i r.classifier = true
  | scs i, r => r.classifier = .scs ∧ r.flow.accepts i .scs = true
  | mscs i, r => r.classifier = .mscs ∧ r.flow.accepts i .mscs = true ∧ ∃ m, r.mscs = some m ∧ m.admits i.priority = true

/-- The check a scan makes of each node. -/
def accepts (p : Plugins) : Scan → Node → Bool
  | mesh f, n => n.rule.classifier == .mesh && n.rule.mesh.accepts f
  | sawf i, n => n.rule.classifier == .sawf && Table.sawfAccepts p i n
  | stream i, n => n.rule.classifier.isScsLike && n.rule.flow.accepts i n.rule.classifier
  | scs i, n => n.rule.classifier == .scs && n.rule.flow.accepts i .scs
  | mscs i, n => n.rule.classifier == .mscs && (n.rule.flow.accepts i .mscs && n.rule.mscs.any (·.admits i.priority))

theorem accepts_iff {p : Plugins} {scan : Scan} {n : Node} : scan.accepts p n = true ↔ scan.Matches p n.rule := by
  cases scan with
  | mesh f => simp [accepts, Matches]
  | sawf i =>
    rw [accepts, Matches, Bool.and_eq_true, beq_iff_eq, Table.sawfAccepts]
    refine and_congr_right' ?_
    cases n.rule.wlan with
    | none => exact Iff.rfl
    | some w => simp [Plugins.ask?, Option.getD_eq_iff]
  | stream i =>
    rw [accepts, Matches, Bool.and_eq_true]
    refine and_congr_left' ?_
    cases n.rule.classifier <;> decide
  | scs i => simp [accepts, Matches]
  | mscs i => simp [accepts, Matches, Option.any_eq_true]

theorem not_flowKeyed_of_matches {p : Plugins} {scan : Scan} {r : Rule} (h : scan.Matches p r) :
    r.classifier.isFlowKeyed = false := by
  cases scan with
  | stream i => rcases h.1 with hc | hc <;> rw [hc] <;> rfl
  | _ => rw [h.1]; rfl

end Scan

namespace Table

/-- The rule each scan is answered from. -/
def selected (t : Table) : Scan → Option Node
  | .mesh f => t.meshHit f
  | .sawf i => t.sawfHit i
  | .stream i => t.streamHit i
  | .scs i => t.scsHit i
  | .mscs i => t.mscsHit i

theorem selected_eq (t : Table) (scan : Scan) : t.selected scan = t.store.nodes.find? (scan.accepts t.plugins) := by
  cases scan <;> exact Node.find?_filter _ _ _

theorem selected_eq_none_iff {t : Table} (scan : Scan) :
    t.selected scan = none ↔ ∀ n ∈ t.store.nodes, ¬ scan.Matches t.plugins n.rule := by
  rw [selected_eq, List.find?_eq_none]
  exact forall₂_congr fun n _ => by rw [Scan.accepts_iff]

theorem selected_eq_some_iff {t : Table} (scan : Scan) {n : Node} : t.selected scan = some n ↔
    scan.Matches t.plugins n.rule ∧ ∃ before after, t.store.nodes = before ++ n :: after ∧
      ∀ m ∈ before, ¬ scan.Matches t.plugins m.rule := by
  rw [selected_eq, List.find?_eq_some_iff_append]
  refine and_congr Scan.accepts_iff (exists₂_congr fun before after => and_congr_right' (forall₂_congr fun m _ => ?_))
  rw [← Scan.accepts_iff, Bool.not_eq_true', Bool.not_eq_true]

theorem of_selected {t : Table} (scan : Scan) {n : Node} (hn : t.selected scan = some n) :
    n ∈ t.store.nodes ∧ scan.Matches t.plugins n.rule := by
  obtain ⟨hmatch, before, after, hnodes, -⟩ := (selected_eq_some_iff scan).1 hn
  refine ⟨?_, hmatch⟩
  rw [hnodes]
  exact List.mem_append_right _ List.mem_cons_self

theorem precedence_le_of_selected {t : Table} (h : Valid t) (scan : Scan) {n m : Node} (hn : t.selected scan = some n)
    (hm : m ∈ t.store.nodes) (hmatch : scan.Matches t.plugins m.rule) : m.rule.precedence ≤ n.rule.precedence := by
  have hmem := (of_selected scan hn).1
  rw [selected_eq] at hn
  refine (h.store.ranked.precedence_le_iff hmem (h.store.ranked.precedence_eq hm)).2 ?_
  by_cases he : m = n
  · subst he
    exact Fin.le_refl _
  · exact Node.rel_of_find? h.store.ranked.pairwise_nodes hn hm (Scan.accepts_iff.2 hmatch) he

/-- **A scan selects the dominant rule.**  After any run nothing is selected when nothing stored matches; and what is
selected matches, and every other rule that does has a lower precedence, or the same and has had it since a later call. -/
theorem scan_selects_dominant (config : TableConfig) (plugins : Plugins) (cs : List Call) (scan : Scan) :
    let t := (run cs { config, plugins }).1
    let stays := Stays.ofLog (run cs { config, plugins }).2
    (t.selected scan = none ↔ ∀ n ∈ t.store.nodes, ¬ scan.Matches t.plugins n.rule) ∧
    ∀ n, t.selected scan = some n → n ∈ t.store.nodes ∧ scan.Matches t.plugins n.rule ∧
      ∀ m ∈ t.store.nodes, m ≠ n → scan.Matches t.plugins m.rule →
        m.rule.precedence < n.rule.precedence ∨ m.rule.precedence = n.rule.precedence ∧
          ∃ k l, stays.of n = some ⟨n.rule.bucket, k⟩ ∧ stays.of m = some ⟨m.rule.bucket, l⟩ ∧ k < l := by
  intro t stays
  have hranked := (run_reachable cs (.fresh config plugins)).valid.store.ranked
  have hchron : Stays.Chronological _ stays t.store.nodes := run_chronological config plugins cs
  rw [selected_eq]
  constructor
  · rw [List.find?_eq_none]
    exact forall₂_congr fun n _ => by rw [Scan.accepts_iff]
  intro n hf
  have hn := List.mem_of_find?_eq_some hf
  have hmatch := Scan.accepts_iff.1 (List.find?_some hf)
  refine ⟨hn, hmatch, fun m hm hne hmm => ?_⟩
  have hpn := hranked.precedence_eq hn
  have hpm := hranked.precedence_eq hm
  rcases Node.rel_of_find? hchron.ordered hf hm (Scan.accepts_iff.2 hmm) hne with hlt | ⟨heq, hstays⟩
  · exact Or.inl (UInt8.lt_iff_toNat_lt.2 (by rw [hpm, hpn]; exact hlt))
  · exact Or.inr ⟨UInt8.toNat_inj.1 (by rw [hpm, hpn, heq]),
      hstays (Scan.not_flowKeyed_of_matches hmatch) (Scan.not_flowKeyed_of_matches hmm)⟩

/-- Two rules of one precedence, the first of which leaves it and comes back. -/
def returned : List Call :=
  [.add { id := 1, classifier := .scs, precedence := 7 }, .add { id := 2, classifier := .sawfScs, precedence := 7 },
    .add { id := 1, classifier := .scs, precedence := 255 }, .add { id := 1, classifier := .scs, precedence := 7 }]

example : ((run (returned.take 2) {}).1.selected (.stream {})).map (·.rule.id) = some 1 ∧
    ((run returned {}).1.selected (.stream {})).map (·.rule.id) = some 2 := by decide +kernel

end Table
end TrafficRules
