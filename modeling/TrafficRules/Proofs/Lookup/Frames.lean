import TrafficRules.Proofs.Engine.Keeps
import TrafficRules.Proofs.Lookup.Scanned
import TrafficRules.Proofs.Table.Origin
import TrafficRules.Settings
/-!
# Frames — what decides the priority of a frame

A frame that a mesh rule matches is answered by the action of the rule selected.  The output code of a stored rule is one
of the three kinds of action codes, since only rules that pass their check are stored, so a match is never answered by the
default priority of the table but for a frame without the DS field to derive one from.  With settings that pass their check
and a frame that comes with a priority below eight the answer is below eight (`mesh_hit_decides`).
-/
namespace TrafficRules

theorem Action.ofCode?_of_lt {code : UInt8} (h : code < noMatchCode) :
    code ≤ 7 ∧ ofCode? code = some (.pcp code) ∨ code = useUpCode ∧ ofCode? code = some .useUp ∨
      code = useDscpCode ∧ ofCode? code = some .useDscp := by
  unfold noMatchCode at h
  unfold ofCode?
  by_cases h8 : code < 8
  · rw [if_pos h8]
    exact Or.inl ⟨by grind, rfl⟩
  rw [if_neg h8]
  by_cases hup : code = useUpCode
  · rw [if_pos hup]
    exact Or.inr (Or.inl ⟨hup, rfl⟩)
  have hdscp : code = useDscpCode := by
    unfold useUpCode at hup
    unfold useDscpCode
    grind
  rw [if_neg hup, if_pos hdscp]
  exact Or.inr (Or.inr ⟨hdscp, rfl⟩)

theorem DsField.pcp_le (ds : UInt8) : ds >>> 5 ≤ 7 := by
  have hlt := ds.toNat_lt
  rw [UInt8.le_iff_toNat_le, UInt8.toNat_shiftRight]
  show ds.toNat >>> 5 ≤ 7
  rw [Nat.shiftRight_eq_div_pow]
  omega

theorem TableConfig.defaultPcp_le {c : TableConfig} (h : c.fault? = none) : c.defaultPcp ≤ 7 := by
  unfold fault? at h
  split at h
  · cases h
  · split at h
    · cases h
    · rename_i hle
      exact UInt8.not_lt.1 hle

namespace Table

variable {t : Table}

/-- The priority in the DS field of an IP header; a frame of another kind gets the default one. -/
def dscpPriority (t : Table) (f : Frame) : UInt8 :=
  match f.network with
  | .ipv4 header => header.dsField >>> 5
  | .ipv6 dsField => dsField >>> 5
  | .other => t.config.defaultPcp

theorem getD_dscpPcp (t : Table) (f : Frame) : f.network.dscpPcp.getD t.config.defaultPcp = t.dscpPriority f := by
  unfold dscpPriority
  cases f.network <;> rfl

def FrameAnswer (t : Table) (f : Frame) (o : RuleOutput) (answer : UInt8) : Prop :=
  ∃ a, o.action? = some a ∧
    (o.priority ≤ 7 ∧ a = .pcp o.priority ∧ answer = o.priority ∨
      o.priority = Action.useUpCode ∧ a = .useUp ∧ answer = f.priority ∨
      o.priority = Action.useDscpCode ∧ a = .useDscp ∧ answer = t.dscpPriority f)

/-- **The rule selected answers**, whatever its output code. -/
theorem classifyFrame_of_hit (h : Reachable t) {f : Frame} {n : Node} (hn : t.meshHit f = some n) :
    t.FrameAnswer f n.rule.output (t.classifyFrame f) := by
  have hstored := (of_selected (.mesh f) hn).1
  have hcode := Rule.priority_lt_of_faultless (h.faultless n hstored)
  unfold FrameAnswer classifyFrame RuleOutput.action?
  rw [hn]
  dsimp only [RuleOutput.action?]
  -- a stored code is one of the three kinds, so the arm without an action is not reached
  rcases Action.ofCode?_of_lt hcode with ⟨hle, hof⟩ | ⟨hup, hof⟩ | ⟨hdscp, hof⟩
  · rw [hof]
    exact ⟨_, rfl, Or.inl ⟨hle, rfl, rfl⟩⟩
  · rw [hof]
    exact ⟨_, rfl, Or.inr (Or.inl ⟨hup, rfl, rfl⟩)⟩
  · rw [hof]
    exact ⟨_, rfl, Or.inr (Or.inr ⟨hdscp, rfl, getD_dscpPcp t f⟩)⟩

/-- **Without a match** the default priority answers, but on a table without rules. -/
theorem classifyFrame_of_miss (h : Valid t) {f : Frame} (hn : t.meshHit f = none) :
    t.classifyFrame f = if t.rules = [] then t.dscpPriority f else t.config.defaultPcp := by
  unfold classifyFrame
  rw [hn]
  dsimp only
  by_cases he : t.rules = []
  · rw [if_pos he, if_pos (h.isEmpty_iff.2 he)]
    exact getD_dscpPcp t f
  · rw [if_neg he, if_neg (mt h.isEmpty_iff.1 he)]

theorem meshHit_eq_none_iff {f : Frame} :
    t.meshHit f = none ↔ ∀ r ∈ t.rules, r.classifier = .mesh → r.mesh.accepts f = false := by
  have hs : t.meshHit f = none ↔ _ := selected_eq_none_iff (.mesh f)
  rw [hs, rules, List.forall_mem_map]
  simp [Scan.Matches]

theorem dscpPriority_le (hc : t.config.defaultPcp ≤ 7) (f : Frame) : t.dscpPriority f ≤ 7 := by
  unfold dscpPriority
  cases f.network with
  | ipv4 header => exact DsField.pcp_le _
  | ipv6 dsField => exact DsField.pcp_le _
  | other => exact hc

/-- **A frame that a rule matches is answered by that rule.**  Only rules that pass their check are stored, so the rule
selected has an action, and the default priority is left to frames without a match, on a table with rules, and to frames
without a DS field.  With settings that pass their check no frame that comes with a priority below eight is answered a
higher one. -/
theorem mesh_hit_decides (h : Reachable t) :
    (∀ r ∈ t.rules, r.fault? = none ∧ r.precedence ≤ 254) ∧
    (∀ f, (∃ r ∈ t.rules, r.classifier = .mesh ∧ r.mesh.accepts f = true) →
      ∃ n, t.meshHit f = some n ∧ n.rule ∈ t.rules ∧ n.rule.classifier = .mesh ∧ n.rule.mesh.accepts f = true ∧
        t.FrameAnswer f n.rule.output (t.classifyFrame f)) ∧
    (∀ f, (∀ r ∈ t.rules, r.classifier = .mesh → r.mesh.accepts f = false) →
      t.classifyFrame f = if t.rules = [] then t.dscpPriority f else t.config.defaultPcp) ∧
    (t.config.fault? = none → ∀ f : Frame, f.priority ≤ 7 → t.classifyFrame f ≤ 7) := by
  refine ⟨fun r hr => ?_, fun f hmatch => ?_, fun f hnone => classifyFrame_of_miss h.valid (meshHit_eq_none_iff.2 hnone),
    fun hc f hf => ?_⟩
  · obtain ⟨n, hn, rfl⟩ := List.mem_map.1 hr
    refine ⟨h.faultless n hn, ?_⟩
    have hlt := h.precedence_lt hn
    rw [UInt8.le_iff_toNat_le]
    exact Nat.le_of_lt_succ hlt
  · obtain ⟨r, hr, hc, ha⟩ := hmatch
    cases hn : t.meshHit f with
    | none =>
      rw [meshHit_eq_none_iff.1 hn r hr hc] at ha
      cases ha
    | some n =>
      obtain ⟨hstored, hnc, hna⟩ := of_selected (.mesh f) hn
      exact ⟨n, rfl, List.mem_map_of_mem hstored, hnc, hna, classifyFrame_of_hit h hn⟩
  · have hdefault := TableConfig.defaultPcp_le hc
    cases hn : t.meshHit f with
    | none =>
      rw [classifyFrame_of_miss h.valid hn]
      split
      · exact dscpPriority_le hdefault f
      · exact hdefault
    | some n =>
      obtain ⟨a, -, ⟨hle, -, hanswer⟩ | ⟨-, -, hanswer⟩ | ⟨-, -, hanswer⟩⟩ := classifyFrame_of_hit h hn
      · rw [hanswer]
        exact hle
      · rw [hanswer]
        exact hf
      · rw [hanswer]
        exact dscpPriority_le hdefault f

/-- Two rules to start from and one of a rule set; then the first is replaced in place, and the second moves. -/
def assembled : Table :=
  let mesh (up : UInt8) : MeshMatch := MeshMatch.require {} (.userPriority up) .positive
  (Engine.performAll
    [.apply ⟨[{ rule := { id := 3, classifier := .mesh, precedence := 254, mesh := mesh 1
                          output := { priority := Action.useUpCode } } }]⟩,
      .add { id := 1, classifier := .mesh, precedence := 30, mesh := mesh 5 },
      .add { id := 2, classifier := .mesh, precedence := 255, mesh := mesh 6, output := { priority := 4 } }]
    (Engine.build { defaultPcp := 3 } {} []
      [{ id := 1, classifier := .mesh, precedence := 30, mesh := mesh 5, output := { priority := 2 } },
        { id := 2, classifier := .mesh, precedence := 40, mesh := mesh 6, output := { priority := 6 } }]).1).table

/-- One answer of each kind, and one from the default priority although the frame has a DS field. -/
theorem mesh_hit_decides_assembled :
    assembled.rules.map (fun r => (r.id, r.precedence, r.output.priority)) = [(3, 254, 8), (1, 30, 9), (2, 0, 4)] ∧
    (∀ r ∈ assembled.rules, r.fault? = none ∧ r.precedence ≤ 254) ∧
    (∃ n, assembled.meshHit { priority := 5 } = some n ∧
      assembled.FrameAnswer { priority := 5 } n.rule.output (assembled.classifyFrame { priority := 5 })) ∧
    assembled.classifyFrame { priority := 5 } = 3 ∧
    assembled.classifyFrame { priority := 5, network := .ipv6 0xe0 } = 7 ∧
    assembled.classifyFrame { priority := 1 } = 1 ∧ assembled.classifyFrame { priority := 6 } = 4 ∧
    assembled.classifyFrame { network := .ipv6 0xe0 } = assembled.config.defaultPcp ∧
    ∀ f : Frame, f.priority ≤ 7 → assembled.classifyFrame f ≤ 7 := by
  obtain ⟨hstored, hhit, hmiss, hle⟩ := mesh_hit_decides (t := assembled) (Engine.built_reachable _ _ _ _ _)
  obtain ⟨n, hn, -, -, -, hanswer⟩ := hhit { priority := 5 } (by decide +kernel)
  refine ⟨by decide +kernel, hstored, ⟨n, hn, hanswer⟩, by decide +kernel, by decide +kernel, by decide +kernel,
    by decide +kernel, ?_, hle (by decide +kernel)⟩
  rw [hmiss _ (by decide +kernel), if_neg (by decide +kernel)]

end Table
end TrafficRules
