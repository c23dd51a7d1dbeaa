import Mathlib.Tactic.Tauto
import TrafficRules.Mesh.Match
/-!
# Conjunction — a match by its predicates, each on its own

A criterion is compared with the frames that carry its field (`Criterion.isSome_compare_iff`), and a predicate holds of no
other frame, whatever its polarity.  So a predicate that turns a frame away for want of an IPv4 header does not hold of
it either, and a match that does not take every frame is the conjunction of its predicates (`MeshMatch.accepts_iff`).  It
goes by its members alone: their order and number are not seen (`MeshMatch.conjunction_of_predicates`).
-/
namespace TrafficRules

/-- The frame has the field that a criterion names: a VLAN tag, an IPv4 header, or one that every frame has. -/
def Frame.Carries (f : Frame) : Criterion → Prop
  | .vlanId _ => f.vlanTci.isSome = true
  | c => c.needsIpv4 = true → f.ipv4?.isSome = true

/-- **A criterion is compared with the frames that carry its field.** -/
theorem Criterion.isSome_compare_iff (c : Criterion) (f : Frame) : (c.compare f).isSome = true ↔ f.Carries c := by
  cases c <;> simp [compare, Frame.Carries, needsIpv4]

theorem Frame.not_carries {f : Frame} {c : Criterion} (hf : f.ipv4? = none) (hc : c.needsIpv4 = true) : ¬ f.Carries c := by
  cases c with
  | userPriority _ | sourceMac _ | destMac _ | vlanId _ => cases hc
  | _ => simp [Carries, hf, Criterion.needsIpv4]

namespace Predicate

variable {c : Criterion} {f : Frame}

theorem carries_of_accepts {p : Predicate} (h : p.accepts f = true) : f.Carries p.criterion := by
  rw [← Criterion.isSome_compare_iff]
  unfold accepts at h
  cases hc : p.criterion.compare f with
  | none =>
    rw [hc] at h
    cases h
  | some b => rfl

/-- **The two polarities of a criterion** share out the frames that carry its field. -/
theorem accepts_negative_iff : (⟨c, .negative⟩ : Predicate).accepts f = true ↔
    f.Carries c ∧ (⟨c, .positive⟩ : Predicate).accepts f = false := by
  rw [← c.isSome_compare_iff]
  unfold accepts
  cases c.compare f <;> simp [Sense.apply]

end Predicate

namespace MeshMatch

variable {m m' : MeshMatch} {f : Frame}

/-- **A match takes every frame, or is the conjunction of its predicates.** -/
theorem accepts_iff : m.accepts f = true ↔ m.always = true ∨ ∀ p ∈ m.predicates, p.accepts f = true := by
  unfold accepts
  rw [Bool.or_eq_true, Bool.and_eq_true, Bool.not_eq_true', List.all_eq_true]
  refine or_congr_right (and_iff_right_of_imp fun hall => ?_)
  rw [Bool.and_eq_false_iff, List.any_eq_false]
  cases hf : f.ipv4? with
  | none => exact Or.inr fun p hp hneeds => Frame.not_carries hf hneeds (Predicate.carries_of_accepts (hall p hp))
  | some header => exact Or.inl rfl

theorem accepts_of_subset (ha : m'.always = true → m.always = true) (hs : m.predicates ⊆ m'.predicates)
    (h : m'.accepts f = true) : m.accepts f = true := by
  rw [accepts_iff] at h ⊢
  exact h.imp ha fun hall p hp => hall p (hs hp)

theorem accepts_congr (ha : m.always = m'.always) (hs : ∀ p, p ∈ m.predicates ↔ p ∈ m'.predicates) (f : Frame) :
    m.accepts f = m'.accepts f := by
  rw [Bool.eq_iff_iff]
  exact ⟨accepts_of_subset (fun h => ha ▸ h) fun p hp => (hs p).2 hp,
    accepts_of_subset (fun h => ha ▸ h) fun p hp => (hs p).1 hp⟩

/-- A match of both polarities of a criterion takes no frame. -/
theorem not_accepts_of_both {c : Criterion} (ha : m.always = false) (hpos : ⟨c, .positive⟩ ∈ m.predicates)
    (hneg : ⟨c, .negative⟩ ∈ m.predicates) (f : Frame) : m.accepts f = false := by
  rw [Bool.eq_false_iff]
  intro h
  rcases accepts_iff.1 h with halways | hall
  · rw [ha] at halways
    cases halways
  · have hnot := (Predicate.accepts_negative_iff.1 (hall _ hneg)).2
    rw [hall _ hpos] at hnot
    cases hnot

theorem accepts_require {s : Sense} {c : Criterion} (ha : m.always = false) (f : Frame) :
    (m.require c s).accepts f = (m.accepts f && (⟨c, s⟩ : Predicate).accepts f) := by
  have ha' : (m.require c s).always = false := ha
  rw [Bool.eq_iff_iff, Bool.and_eq_true, accepts_iff, accepts_iff, ha, ha']
  simp [require, or_imp, forall_and]

/-- **A match is the conjunction of its predicates, each of which goes by the frame on its own.**  It is not seen in which
order they stand and how often, and one more takes frames away only.  Of the two polarities of a criterion one holds of a
frame that carries the field and neither of any other frame, so a match of both takes none. -/
theorem conjunction_of_predicates :
    (∀ (m : MeshMatch) f, m.accepts f = (m.always || m.predicates.all (·.accepts f))) ∧
    (∀ m m' : MeshMatch, m.always = m'.always → (∀ p, p ∈ m.predicates ↔ p ∈ m'.predicates) →
      ∀ f, m.accepts f = m'.accepts f) ∧
    (∀ (m : MeshMatch) c s, m.always = false →
      ∀ f, (m.require c s).accepts f = (m.accepts f && (⟨c, s⟩ : Predicate).accepts f)) ∧
    (∀ c f, ¬ ((⟨c, .positive⟩ : Predicate).accepts f = true ∧ (⟨c, .negative⟩ : Predicate).accepts f = true)) ∧
    (∀ c f, Xor ((⟨c, .positive⟩ : Predicate).accepts f = true) ((⟨c, .negative⟩ : Predicate).accepts f = true) ↔
      f.Carries c) ∧
    ∀ (m : MeshMatch) c, m.always = false → ⟨c, .positive⟩ ∈ m.predicates → ⟨c, .negative⟩ ∈ m.predicates →
      ∀ f, m.accepts f = false := by
  refine ⟨fun m f => ?_, fun m m' ha hs f => accepts_congr ha hs f, fun m c s ha f => accepts_require ha f,
    fun c f => ?_, fun c f => ?_, fun m c ha hpos hneg f => not_accepts_of_both ha hpos hneg f⟩
  · rw [Bool.eq_iff_iff, accepts_iff, Bool.or_eq_true, List.all_eq_true]
  · rintro ⟨hpos, hneg⟩
    rw [(Predicate.accepts_negative_iff.1 hneg).2] at hpos
    cases hpos
  · rw [Predicate.accepts_negative_iff]
    constructor
    · rintro (⟨hpos, -⟩ | ⟨⟨hcarries, -⟩, -⟩)
      · exact Predicate.carries_of_accepts hpos
      · exact hcarries
    · intro hcarries
      cases hpos : (⟨c, .positive⟩ : Predicate).accepts f with
      | true => exact Or.inl ⟨rfl, fun hneg => nomatch hneg.2⟩
      | false => exact Or.inr ⟨⟨hcarries, rfl⟩, fun h => nomatch h⟩

/-- A tagged frame without an IPv4 header. -/
def taggedIpv6 : Frame := { priority := 3, vlanTci := some 0x8064, network := .ipv6 0xb8 }

/-- The tag and the priority are compared, the port is not, with either polarity; and neither order nor number is seen. -/
theorem conjunction_of_predicates_taggedIpv6 :
    let m : MeshMatch := ⟨false, [⟨.vlanId 0x8064, .positive⟩, ⟨.userPriority 5, .negative⟩]⟩
    let m' : MeshMatch := ⟨false, [⟨.userPriority 5, .negative⟩, ⟨.vlanId 0x8064, .positive⟩, ⟨.userPriority 5, .negative⟩]⟩
    m.accepts taggedIpv6 = true ∧ m'.accepts taggedIpv6 = true ∧
    (m.require (.destPort 443) .negative).accepts taggedIpv6 = false ∧
    ¬ taggedIpv6.Carries (.destPort 443) ∧ taggedIpv6.Carries (.vlanId 0x8064) ∧
    ((m.require (.destPort 443) .positive).require (.destPort 443) .negative).accepts taggedIpv6 = false := by
  intro m m'
  obtain ⟨-, hmembers, hrequire, -, hcarries, hboth⟩ := conjunction_of_predicates
  have hm : m.accepts taggedIpv6 = true := by decide
  have hsame : ∀ p, p ∈ m.predicates ↔ p ∈ m'.predicates := by
    intro p
    simp only [m, m', List.mem_cons, List.not_mem_nil, or_false]
    tauto
  refine ⟨hm, (hmembers m m' rfl hsame taggedIpv6).symm.trans hm, ?_, ?_, ?_, hboth _ (.destPort 443) rfl ?_ ?_ taggedIpv6⟩
  · rw [hrequire m (.destPort 443) .negative rfl taggedIpv6]
    decide
  · rw [← hcarries]
    decide
  · exact (hcarries (.vlanId 0x8064) taggedIpv6).1 (by decide)
  · decide
  · decide

end MeshMatch
end TrafficRules
