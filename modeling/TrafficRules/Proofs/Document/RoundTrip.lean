import TrafficRules.Proofs.Document.PlainRecords
import TrafficRules.Proofs.Document.Records
/-!
# RoundTrip — rules and rule sets read back

A rule set is written with every rule and every field of it that counts, and read back it is the same set; so is every
rule, from its document and from the JSON text of it (`rules_read_back`).  What is left out is what counts in its
absence.  The switch of an entry stands among the fields of its rule, and none of them has its name.
-/
namespace TrafficRules

open Value (ReadsBack)

namespace Rule

/-- The latency parameters as they are written, which they are unless they are zero. -/
def writtenLatency? (r : Rule) : Option Latency := if r.latency.isZero then none else some r.latency

theorem writtenLatency?_getD (r : Rule) : r.writtenLatency?.getD {} = r.latency := by
  unfold writtenLatency? Latency.isZero
  split
  · next h => exact (beq_iff_eq.1 h).symm
  · rfl

theorem toFields_eq (r : Rule) : r.toFields =
    ("id", .u32 r.id) :: ("classifier", r.classifier.toValue) :: ("precedence", .u8 r.precedence) ::
      ("mesh", r.mesh.toValue) :: ("flow", r.flow.toValue) :: ("output", r.output.toValue) ::
      (Value.presentField "latency" Latency.toValue r.writtenLatency? ++
        (Value.presentField "mscs" MscsParams.toValue r.mscs ++
          Value.presentField "wlan" WlanParams.toValue r.wlan)) := by
  unfold toFields writtenLatency?
  cases r.latency.isZero <;> simp [Value.presentField]

/-- **The names of the fields**, in their order, some of them left out. -/
theorem names_sublist (r : Rule) : (r.toFields.map (·.1)).Sublist fieldNames := by
  rw [toFields_eq]
  simp only [List.map_cons, List.map_append]
  have hrest := (Value.names_presentField "latency" Latency.toValue r.writtenLatency?).append
    ((Value.names_presentField "mscs" MscsParams.toValue r.mscs).append
      (Value.names_presentField "wlan" WlanParams.toValue r.wlan))
  exact (((((hrest.cons_cons _).cons_cons _).cons_cons _).cons_cons _).cons_cons _).cons_cons _

/-- **The fields of a rule read back**, in either form. -/
theorem ofFields?_toFields (r : Rule) (isHeld : Bool) : ofFields? (r.toFields.form isHeld) = some r := by
  rw [toFields_eq]
  simp [ofFields?, Value.readsBack_u32.back, Classifier.readsBack.back, Value.readsBack_u8.back,
    MeshMatch.readsBack.back, FlowMatch.readsBack.back, RuleOutput.readsBack.back, Latency.readsBack.presentOr,
    writtenLatency?_getD, MscsParams.readsBack.present, WlanParams.readsBack.present]

theorem readsBack : ReadsBack ofValue? toValue where
  back isHeld r := by
    rw [ofValue?, toValue, Fields.fields?_form, Option.bind_some, ofFields?_toFields]
  null := rfl

theorem ofFields?_cons {name : String} (h : name ∉ fieldNames) (v : Value) (fs : Fields) :
    ofFields? ((name, v) :: fs) = ofFields? fs := by
  have hne : ∀ n ∈ fieldNames, name ≠ n := fun n hn he => h (he.symm ▸ hn)
  simp only [fieldNames, List.forall_mem_cons] at hne
  simp [ofFields?, Fields.optional, Entries.required, Entries.withDefault, hne]

end Rule

namespace RuleEntry

/-- **An entry reads back**, as written and as it is held by then. -/
theorem ofFields?_form (e : RuleEntry) (isHeld : Bool) :
    ofFields? (Fields.form isHeld (("enabled", .bool e.enabled) :: e.rule.toFields)) = some e := by
  have hheld : (Fields.form isHeld (("enabled", .bool e.enabled) :: e.rule.toFields)).map (fun f => (f.1, f.2.held)) =
      Fields.form true (("enabled", .bool e.enabled) :: e.rule.toFields) :=
    Fields.form_held isHeld _
  have hname : "enabled" ∉ Rule.fieldNames := by decide
  have hfresh : "enabled" ∉ e.rule.toFields.map (·.1) := fun hn => hname (e.rule.names_sublist.subset hn)
  have henabled : (Fields.form isHeld (("enabled", .bool e.enabled) :: e.rule.toFields)).withDefault "enabled" true
      Value.bool? = some e.enabled := by
    rw [Fields.withDefault_form, Entries.get?_cons_self hfresh]
    exact Value.readsBack_bool.back isHeld e.enabled
  have hrule : Rule.ofFields? (Fields.form true (("enabled", .bool e.enabled) :: e.rule.toFields)) = some e.rule := by
    rw [Fields.form, List.map_cons, Rule.ofFields?_cons hname]
    exact e.rule.ofFields?_toFields true
  rw [ofFields?, henabled, hheld, hrule]
  rfl

theorem ofValue?_toValue (e : RuleEntry) : ofValue? e.toValue = some e := by
  have h := ofFields?_form e false
  rw [Fields.form_false] at h
  exact h

end RuleEntry

theorem RuleSet.ofValue?_toValue (s : RuleSet) : ofValue? s.toValue = some s := by
  have hrules := Value.list?_map RuleEntry.ofValue?_toValue s.rules
  simp [ofValue?, toValue, Value.fields?, Entries.withDefault, hrules]

/-! ## As text -/

theorem Rule.plain {depth : Nat} (r : Rule) : Json.Plain (depth + 5) r.toValue := by
  have hnames : fieldNames.Nodup := by decide
  refine .record (hnames.sublist r.names_sublist) ?_
  rw [toFields_eq]
  simp only [List.forall_mem_cons, List.forall_mem_append]
  exact ⟨Json.plain_u32 _, r.classifier.plain, Json.plain_u8 _, r.mesh.plain, r.flow.plain, r.output.plain,
    Json.plain_presentField Latency.plain _, Json.plain_presentField MscsParams.plain _,
    Json.plain_presentField WlanParams.plain _⟩

/-! ## What is left out -/

/-- A field of this name is left out. -/
def Fields.Omits (fs : Fields) (name : String) : Prop := name ∉ fs.map (·.1)

theorem Fields.Omits.withDefault {fs : Fields} {name : String} (h : fs.Omits name) {α : Type} {absent a : α}
    {read : Value → Option α} (hr : fs.withDefault name absent read = some a) : a = absent := by
  rw [Entries.withDefault, Entries.get?_of_not_mem h] at hr
  exact (Option.some.inj hr).symm

theorem Rule.omits_iff (r : Rule) : (r.toFields.Omits "latency" ↔ r.latency = {}) ∧
    (r.toFields.Omits "mscs" ↔ r.mscs = none) ∧ (r.toFields.Omits "wlan" ↔ r.wlan = none) := by
  unfold Fields.Omits
  rw [toFields_eq]
  refine ⟨?_, by simp, by simp⟩
  have hlatency : r.writtenLatency?.isSome = false ↔ r.latency = {} := by
    by_cases hz : r.latency = {} <;> simp [writtenLatency?, Latency.isZero, hz]
  simpa using hlatency

theorem Rule.absent {fs : Fields} {r : Rule} (h : ofFields? fs = some r) :
    (fs.Omits "id" → r.id = noRuleId) ∧ (fs.Omits "precedence" → r.precedence = 0) ∧ (fs.Omits "mesh" → r.mesh = {}) ∧
    (fs.Omits "flow" → r.flow = {}) ∧ (fs.Omits "output" → r.output = {}) ∧ (fs.Omits "latency" → r.latency = {}) ∧
    (fs.Omits "mscs" → r.mscs = none) ∧ (fs.Omits "wlan" → r.wlan = none) := by
  simp only [ofFields?, Option.bind_eq_bind, Option.bind_eq_some_iff, Option.some.injEq] at h
  obtain ⟨id, hid, -, -, precedence, hprecedence, mesh, hmesh, flow, hflow, output, houtput, latency, hlatency,
    mscs, hmscs, wlan, hwlan, rfl⟩ := h
  exact ⟨fun h => h.withDefault hid, fun h => h.withDefault hprecedence, fun h => h.withDefault hmesh,
    fun h => h.withDefault hflow, fun h => h.withDefault houtput, fun h => h.withDefault hlatency,
    fun h => h.withDefault hmscs, fun h => h.withDefault hwlan⟩

theorem RuleOutput.absent {v : Value} {fs : Fields} {o : RuleOutput} (hv : v.fields? fieldNames 1 = some fs)
    (h : ofValue? v = some o) : (fs.Omits "dscp_remark" → o.dscpRemark = none) ∧
      (fs.Omits "vlan_pcp_remark" → o.vlanPcpRemark = none) ∧ (fs.Omits "service_class_id" → o.serviceClassId = none) ∧
      (fs.Omits "ipv4_frag_thresh" → o.ipv4FragThresh = none) ∧ (fs.Omits "ae_type" → o.acceleration = .default) := by
  rw [ofValue?, hv] at h
  simp only [Option.bind_eq_bind, Option.bind_some, Option.bind_eq_some_iff, Option.some.injEq] at h
  obtain ⟨-, -, dscp, hdscp, pcp, hpcp, service, hservice, frag, hfrag, acceleration, hacceleration, rfl⟩ := h
  exact ⟨fun h => h.withDefault hdscp, fun h => h.withDefault hpcp, fun h => h.withDefault hservice,
    fun h => h.withDefault hfrag, fun h => h.withDefault hacceleration⟩

theorem Ipv4Match.absent {v : Value} {fs : Fields} {m : Ipv4Match} (hv : v.fields? ["addr", "mask"] 1 = some fs)
    (h : ofValue? v = some m) : fs.Omits "mask" → m.mask = none := by
  rw [ofValue?, hv] at h
  simp only [Option.bind_eq_bind, Option.bind_some, Option.bind_eq_some_iff, Option.some.injEq] at h
  obtain ⟨-, -, mask, hmask, rfl⟩ := h
  exact fun h => h.withDefault hmask

theorem Ipv6Match.absent {v : Value} {fs : Fields} {m : Ipv6Match} (hv : v.fields? ["addr", "mask"] 1 = some fs)
    (h : ofValue? v = some m) : fs.Omits "mask" → m.mask = none := by
  rw [ofValue?, hv] at h
  simp only [Option.bind_eq_bind, Option.bind_some, Option.bind_eq_some_iff, Option.some.injEq] at h
  obtain ⟨-, -, mask, hmask, rfl⟩ := h
  exact fun h => h.withDefault hmask

/-- **Rules read back.**  A rule set read from its document is the same set, and a rule read from its document or from
the JSON text of it the same rule; an entry is, too, when it has been held in between.  A rule leaves out its latency
parameters where they are zero and its other parameters where it has none, and whatever a document leaves out is read
as what counts in its absence.  No two fields of an entry have one name. -/
theorem rules_read_back :
    (∀ s : RuleSet, RuleSet.ofValue? s.toValue = some s) ∧
    (∀ r : Rule, Rule.ofValue? r.toValue = some r ∧
      (Json.parse? (Json.compact r.toValue)).bind Rule.ofValue? = some r) ∧
    (∀ (e : RuleEntry) (isHeld : Bool),
      RuleEntry.ofFields? (Fields.form isHeld (("enabled", .bool e.enabled) :: e.rule.toFields)) = some e ∧
      (("enabled", Value.bool e.enabled) :: e.rule.toFields |>.map (·.1)).Nodup) ∧
    (∀ r : Rule, (r.toFields.Omits "latency" ↔ r.latency = {}) ∧ (r.toFields.Omits "mscs" ↔ r.mscs = none) ∧
      (r.toFields.Omits "wlan" ↔ r.wlan = none)) ∧
    (∀ (fs : Fields) (r : Rule), Rule.ofFields? fs = some r →
      (fs.Omits "id" → r.id = noRuleId) ∧ (fs.Omits "precedence" → r.precedence = 0) ∧
      (fs.Omits "mesh" → r.mesh = {}) ∧ (fs.Omits "flow" → r.flow = {}) ∧ (fs.Omits "output" → r.output = {}) ∧
      (fs.Omits "latency" → r.latency = {}) ∧ (fs.Omits "mscs" → r.mscs = none) ∧
      (fs.Omits "wlan" → r.wlan = none)) ∧
    (∀ (v : Value) (fs : Fields) (o : RuleOutput), v.fields? RuleOutput.fieldNames 1 = some fs →
      RuleOutput.ofValue? v = some o →
      (fs.Omits "dscp_remark" → o.dscpRemark = none) ∧ (fs.Omits "vlan_pcp_remark" → o.vlanPcpRemark = none) ∧
      (fs.Omits "service_class_id" → o.serviceClassId = none) ∧
      (fs.Omits "ipv4_frag_thresh" → o.ipv4FragThresh = none) ∧
      (fs.Omits "ae_type" → o.acceleration = .default)) ∧
    (∀ (v : Value) (fs : Fields), v.fields? ["addr", "mask"] 1 = some fs → fs.Omits "mask" →
      (∀ m, Ipv4Match.ofValue? v = some m → m.mask = none) ∧ ∀ m, Ipv6Match.ofValue? v = some m → m.mask = none) := by
  refine ⟨RuleSet.ofValue?_toValue, fun r => ⟨Rule.readsBack.back false r, ?_⟩,
    fun e isHeld => ⟨e.ofFields?_form isHeld, ?_⟩, Rule.omits_iff, fun _ _ h => Rule.absent h,
    fun _ _ _ hv h => RuleOutput.absent hv h,
    fun _ _ hv hm => ⟨fun _ h => Ipv4Match.absent hv h hm, fun _ h => Ipv6Match.absent hv h hm⟩⟩
  · have hdepth : Json.Plain Json.depthLimit r.toValue := r.plain
    rw [Json.parse?_compact hdepth, Option.bind_some]
    exact Rule.readsBack.back false r
  · have hnames : ("enabled" :: Rule.fieldNames).Nodup := by decide
    exact hnames.sublist (e.rule.names_sublist.cons_cons "enabled")

/-- Documents that say no more than they need: a family, a priority, an address. -/
theorem rules_read_back_bare :
    (∃ r, Rule.ofFields? [("classifier", .text "ifli")] = some r ∧ r.id = noRuleId ∧
      r.output.priority = Action.useDscpCode ∧ r.latency.isZero = true ∧ r.wlan = none) ∧
    (∃ o, RuleOutput.ofValue? (.record [("priority", .u8 5)]) = some o ∧ o.dscpRemark = none ∧
      o.ipv4FragThresh = none ∧ o.acceleration = .default) ∧
    (∃ m, Ipv4Match.ofValue? (.record [("addr", .text "10.0.0.1")]) = some m ∧ m.mask = none) ∧
    (∃ m, Ipv6Match.ofValue? (.record [("addr", .text "fe80::1")]) = some m ∧ m.mask = none) := by
  obtain ⟨-, -, -, -, hrule, houtput, hmatch⟩ := rules_read_back
  have homits : ∀ {name n : String} {v : Value}, name ≠ n → Fields.Omits [(n, v)] name := fun hn => by
    simpa [Fields.Omits] using hn
  refine ⟨?_, ?_, ?_, ?_⟩
  · have hread : Rule.ofFields? [("classifier", .text "ifli")] = some { classifier := .ifli } := by decide +kernel
    obtain ⟨hid, -, -, -, hout, hlatency, -, hwlan⟩ := hrule _ _ hread
    refine ⟨_, hread, hid (homits (by decide)), ?_, ?_, hwlan (homits (by decide))⟩
    · rw [hout (homits (by decide))]
    · rw [hlatency (homits (by decide))]
      rfl
  · have hread : RuleOutput.ofValue? (.record [("priority", .u8 5)]) = some { priority := 5 } := by decide +kernel
    obtain ⟨hdscp, -, -, hfrag, hacceleration⟩ := houtput _ _ _ rfl hread
    exact ⟨_, hread, hdscp (homits (by decide)), hfrag (homits (by decide)), hacceleration (homits (by decide))⟩
  · have hread : Ipv4Match.ofValue? (.record [("addr", .text "10.0.0.1")]) =
        some { addr := .ofOctets 10 0 0 1 } := by decide +kernel
    exact ⟨_, hread, (hmatch _ _ rfl (homits (by decide))).1 _ hread⟩
  · have hread : Ipv6Match.ofValue? (.record [("addr", .text "fe80::1")]) =
        some { addr := ⟨⟨0xfe800000, 0, 0, 1⟩⟩ } := by decide +kernel
    exact ⟨_, hread, (hmatch _ _ rfl (homits (by decide))).2 _ hread⟩

end TrafficRules
