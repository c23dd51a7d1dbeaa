import TrafficRules.Proofs.Lookup.Families
import TrafficRules.Proofs.Table.Left
import TrafficRules.Proofs.Table.Origin
/-!
# Gated — wireless rules pass a plugin twice

A wireless rule is let in by the validator of the moment it is added at, and it matches a flow only if the query callback
says so.  The first gate asks whether the rule is of the service-aware family and carries wireless parameters, the second
whether it carries them, of the rules of that family: the same rules.  So what is stored was let in by the call that stored
it, and while the query callback is silent a flow is decided as if the wireless rules were deleted
(`wireless_rules_gated`).
-/
namespace TrafficRules

theorem Rule.isWlan_of_ne {r : Rule} (h : r.classifier ≠ .sawf) : r.isWlan = false := by
  unfold isWlan
  rw [beq_eq_false_iff_ne.2 h]
  rfl

theorem Rule.isWlan_iff {r : Rule} : r.isWlan = true ↔ r.classifier = .sawf ∧ ∃ w, r.wlan = some w := by
  unfold isWlan
  rw [Bool.and_eq_true, beq_iff_eq, Option.isSome_iff_exists]

namespace Table

/-! ## The gates -/

/-- The table lets a wireless rule in: the validator it has at the moment is asked about the parameters and accepts them. -/
def LetsIn (t : Table) (r : Rule) (w : WlanParams) : Prop :=
  r.classifier = .sawf ∧ r.wlan = some w ∧ (∃ o, (t.add r).result = .ok o) ∧
    (∃ v, t.plugins.validator = some v ∧ v (.ofRule w) = true) ∧ (t.add r).consulted = [⟨.validate, .ofRule w, true⟩]

def withoutWlan (t : Table) : Table := deleteEach (t.rules.filter (·.isWlan)) t

theorem left_withoutWlan {t : Table} (h : Reachable t) : Left (fun n => !n.rule.isWlan) t t.withoutWlan :=
  left_deleteEach_filter h fun r hr => by
    rw [(Rule.isWlan_iff.1 hr).1]
    rfl

theorem classifyFlow_withoutWlan {t : Table} (h : Reachable t) (hq : ∀ v, t.plugins.query = some v → ∀ q, v q = false)
    (i : FlowInput) : t.withoutWlan.classifyFlow i = t.classifyFlow i := by
  have hleft := left_withoutWlan h
  have hdry : ∀ {n : Node}, n.rule.isWlan = false → (!n.rule.isWlan) = true := fun hn => by rw [hn]; rfl
  rw [classifyFlow_eq h.valid, classifyFlow_eq hleft.reachable.valid]
  refine congrArg (fun d : Option FlowDecision => if i.destDev.isSome then d.getD {} else {}) ?_
  refine flowDecision_agrees (hleft.agreeOn h) hleft.plugins (fun n hn => hdry ?_) (fun n hn => hdry ?_) fun n hn => hdry ?_
  · obtain ⟨-, hmatch⟩ := Scan.accepts_iff.1 hn
    cases hw : n.rule.wlan with
    | none =>
      unfold Rule.isWlan
      rw [hw]
      exact Bool.and_false _
    | some w =>
      rw [hw] at hmatch
      obtain ⟨v, hv, hyes⟩ := hmatch
      rw [hq v hv] at hyes
      cases hyes
  · rcases (Scan.accepts_iff.1 hn).1 with hc | hc <;> exact Rule.isWlan_of_ne (by rw [hc]; decide)
  · exact Rule.isWlan_of_ne (by rw [hn]; decide)

/-- **Wireless rules are gated at both ends.**  After any run from a fresh table, with callbacks registered and unregistered
between the calls as it may be, every stored wireless rule stems from a call of the run that the validator of that moment
let it in by, and that no later call has taken the place of; so none is stored if there never was a validator.  And on any
reachable table without a query callback, or with one that always says no, every flow is decided as on the table with the
wireless rules deleted. -/
theorem wireless_rules_gated (config : TableConfig) (plugins : Plugins) (cs : List Call) :
    let fresh : Table := { config, plugins }
    (∀ n ∈ (run cs fresh).1.store.nodes, ∀ w, n.rule.classifier = .sawf → n.rule.wlan = some w →
      ∃ pre r post, cs = pre ++ .add r :: post ∧ (run pre fresh).1.LetsIn r w ∧ n = (run pre fresh).1.incoming r ∧
        ∀ mid, mid <+: post → n ∈ (run (pre ++ .add r :: mid) fresh).1.store.nodes) ∧
    (plugins.validator = none → (∀ p, .plug p ∈ cs → p.validator = none) →
      ∀ r ∈ (run cs fresh).1.rules, r.isWlan = false) ∧
    ∀ t, Reachable t → (∀ v, t.plugins.query = some v → ∀ q, v q = false) →
      t.withoutWlan.rules = t.rules.filter (!·.isWlan) ∧ ∀ i, t.withoutWlan.classifyFlow i = t.classifyFlow i := by
  intro fresh
  have hfresh : Reachable fresh := .fresh config plugins
  have hempty : fresh.store.nodes = [] := Store.nodes_empty
  have hgate : ∀ n ∈ (run cs fresh).1.store.nodes, ∀ w, n.rule.classifier = .sawf → n.rule.wlan = some w →
      ∃ pre r post, cs = pre ++ .add r :: post ∧ (run pre fresh).1.LetsIn r w ∧ n = (run pre fresh).1.incoming r ∧
        ∀ mid, mid <+: post → n ∈ (run (pre ++ .add r :: mid) fresh).1.store.nodes := by
    intro n hn w hc hw
    rcases run_origin cs hfresh hn with hstays | ⟨pre, r, post, hcut, rfl, ⟨o, ho⟩, hstays⟩
    · have hstart : n ∈ fresh.store.nodes := hstays [] List.nil_prefix
      rw [hempty] at hstart
      cases hstart
    · exact ⟨pre, r, post, hcut, ⟨hc, hw, ⟨o, ho⟩, validated_of_accepted ho hc hw⟩, rfl, hstays⟩
  refine ⟨hgate, fun hnone hplug r hr => ?_, fun t h hq => ⟨?_, classifyFlow_withoutWlan h hq⟩⟩
  · obtain ⟨n, hn, rfl⟩ := List.mem_map.1 hr
    refine Bool.eq_false_iff.2 fun hwlan => ?_
    obtain ⟨hc, w, hw⟩ := Rule.isWlan_iff.1 hwlan
    obtain ⟨pre, r, post, rfl, ⟨-, -, -, ⟨v, hv, -⟩, -⟩, -⟩ := hgate n hn w hc hw
    rcases run_plugins pre fresh with hsame | hmem
    · rw [hsame] at hv
      cases hnone.symm.trans hv
    · cases (hplug _ (List.mem_append_left _ hmem)).symm.trans hv
  · exact (left_withoutWlan h).rules (p := fun r => !r.isWlan)

def guest : WlanParams := { ssid := "guest" }

/-- Wireless rules added before there is a validator, under it and after it, the second of them twice. -/
def guestRun : List Call :=
  let open₁ : Plugins := { validator := some (WlanPolicy.verdict { ssid := some "guest" }) }
  [.add { id := 3, classifier := .sawf, flow := { dstPort := some 80 } }, .add { id := 4, classifier := .sawf, wlan := some guest },
    .plug open₁, .add { id := 1, classifier := .sawf, precedence := 3, wlan := some guest },
    .add { id := 2, classifier := .sawf, wlan := some { ssid := "staff" } },
    .add { id := 1, classifier := .sawf, precedence := 7, wlan := some guest }, .plug (open₁.unregister .validate),
    .add { id := 1, classifier := .sawf, precedence := 9, wlan := some guest }]

/-- The wireless rule stored is the second of its id, and a flow is decided by the rule it stands before. -/
theorem wireless_rules_gated_guest :
    let t := (run guestRun {}).1
    t.rules.map (fun r => (r.id, r.precedence, r.isWlan)) = [(1, 7, true), (3, 0, false)] ∧
    (∃ pre r post, guestRun = pre ++ .add r :: post ∧ (run pre {}).1.LetsIn r guest ∧ r.normalized.precedence = 7) ∧
    (run (guestRun.take 2) {}).1.rules.map (·.id) = [3] ∧
    (∀ r ∈ (run (guestRun.take 2) {}).1.rules, r.isWlan = false) ∧
    t.withoutWlan.rules = t.rules.filter (!·.isWlan) ∧
    (t.classifyFlow { dstPort := 80, destDev := some "eth0" }).ruleId = some 3 ∧
    t.withoutWlan.classifyFlow { dstPort := 80, destDev := some "eth0" } =
      t.classifyFlow { dstPort := 80, destDev := some "eth0" } := by
  intro t
  obtain ⟨hgate, -, hdry⟩ := wireless_rules_gated {} {} guestRun
  obtain ⟨-, hnone, -⟩ := wireless_rules_gated {} {} (guestRun.take 2)
  obtain ⟨n, hn, hc, hw, hp⟩ : ∃ n ∈ t.store.nodes, n.rule.classifier = .sawf ∧ n.rule.wlan = some guest ∧
      n.rule.precedence = 7 := by decide +kernel
  obtain ⟨pre, r, post, hcut, hin, rfl, -⟩ := hgate n hn guest hc hw
  obtain ⟨hleft, hflow⟩ := hdry t (run_reachable guestRun (.fresh {} {})) (fun v hv => by cases hv)
  refine ⟨by decide +kernel, ⟨pre, r, post, hcut, hin, hp⟩, by decide +kernel, hnone rfl fun p hplug => ?_, hleft,
    by decide +kernel, hflow _⟩
  simp [guestRun] at hplug

end Table
end TrafficRules
