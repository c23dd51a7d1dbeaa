import TrafficRules.Document.Rule
import TrafficRules.Proofs.Document.JsonText
import TrafficRules.Proofs.Document.ReadsBack
/-!
# PlainRecords — rules are written as plain values

No field of a record is written twice, every number fits, and a rule is six records and lists deep at most.
-/
namespace TrafficRules

namespace Json

variable {α : Type} {depth : Nat}

@[simp] theorem plain_u8 (n : UInt8) : Plain depth (.u8 n) := .nat (Nat.lt_trans n.toNat_lt (by decide))

@[simp] theorem plain_u16 (n : UInt16) : Plain depth (.u16 n) := .nat (Nat.lt_trans n.toNat_lt (by decide))

@[simp] theorem plain_u32 (n : UInt32) : Plain depth (.u32 n) := .nat (Nat.lt_trans n.toNat_lt (by decide))

@[simp] theorem plain_text (s : String) : Plain depth (.text s) := .text s

@[simp] theorem plain_bool (b : Bool) : Plain depth (.bool b) := .bool b

theorem plain_orNull {write : α → Value} (h : ∀ a, Plain depth (write a)) (x : Option α) :
    Plain depth (.orNull write x) := by
  cases x with
  | none => exact .null
  | some a => exact h a

theorem plain_presentField {name : String} {write : α → Value} (h : ∀ a, Plain depth (write a)) (x : Option α) :
    ∀ f ∈ Value.presentField name write x, Plain depth f.2 := by
  cases x with
  | none => exact fun f hf => nomatch hf
  | some a => exact fun f hf => List.mem_singleton.1 hf ▸ h a

theorem plain_map {write : α → Value} (h : ∀ a, Plain depth (write a)) (as : List α) :
    Plain (depth + 1) (.list (as.map write)) :=
  .list (List.forall_mem_map.2 fun a _ => h a)

end Json

open Json
open Value (names_presentField)

section Plain

variable {depth : Nat}

@[simp] theorem Mac.plain (m : Mac) : Plain depth m.toValue := .text _

@[simp] theorem Ipv4.plain (a : Ipv4) : Plain depth a.toValue := .text _

@[simp] theorem Ipv6.plain (a : Ipv6) : Plain depth a.toValue := .text _

@[simp] theorem IpVersion.plain (v : IpVersion) : Plain depth v.toValue := .text _

@[simp] theorem Classifier.plain (c : Classifier) : Plain depth c.toValue := .text _

@[simp] theorem Sense.plain (s : Sense) : Plain depth s.toValue := .text _

@[simp] theorem Acceleration.plain (a : Acceleration) : Plain depth a.toValue := .text _

@[simp] theorem Band.plain (b : Band) : Plain depth b.toValue := .text _

@[simp] theorem Bandwidth.plain (b : Bandwidth) : Plain depth b.toValue := .text _

@[simp] theorem MatchMode.plain (m : MatchMode) : Plain depth m.toValue := .text _

/-! ## Flow matches -/

@[simp] theorem Ipv4Match.plain (m : Ipv4Match) : Plain (depth + 1) m.toValue := by
  cases h : m.mask <;> exact .record (by simp [h, Value.presentField]) (by simp [h, Value.presentField])

@[simp] theorem Ipv6Match.plain (m : Ipv6Match) : Plain (depth + 1) m.toValue := by
  cases h : m.mask <;> exact .record (by simp [h, Value.presentField]) (by simp [h, Value.presentField])

@[simp] theorem PortRange.plain (r : PortRange) : Plain (depth + 1) r.toValue := .record (by simp) (by simp)

@[simp] theorem SpiMatch.plain (m : SpiMatch) : Plain (depth + 1) m.toValue := .record (by simp) (by simp)

@[simp] theorem FlowMatch.plain (m : FlowMatch) : Plain (depth + 2) m.toValue :=
  .record (by simp) (by simp [plain_orNull])

/-! ## Mesh matches -/

@[simp] theorem Criterion.plain (c : Criterion) : Plain (depth + 1) c.toValue := by
  cases c <;> exact .record (by simp) (by simp)

@[simp] theorem Predicate.plain (p : Predicate) : Plain (depth + 2) p.toValue := .record (by simp) (by simp)

@[simp] theorem MeshMatch.plain (m : MeshMatch) : Plain (depth + 4) m.toValue :=
  .record (by simp) (by simp [plain_map])

/-! ## Rules -/

@[simp] theorem RuleOutput.plain (o : RuleOutput) : Plain (depth + 1) o.toValue := by
  have hnames : fieldNames.Nodup := by decide
  refine .record (hnames.sublist ?_) ?_
  · have hremarks := ((names_presentField "dscp_remark" .u8 o.dscpRemark).append
      (names_presentField "vlan_pcp_remark" .u8 o.vlanPcpRemark)).append
      (names_presentField "service_class_id" .u8 o.serviceClassId)
    have hoptional := hremarks.append (names_presentField "ipv4_frag_thresh" .u16 o.ipv4FragThresh)
    simp only [List.map_cons, List.map_append]
    exact (hoptional.append (List.Sublist.refl ["ae_type"])).cons_cons _
  · simp only [List.forall_mem_cons, List.forall_mem_append]
    have hoctet : ∀ name x, ∀ f ∈ Value.presentField name .u8 x, Plain depth f.2 := fun _ => plain_presentField plain_u8
    exact ⟨plain_u8 _, ⟨⟨⟨hoctet _ _, hoctet _ _⟩, hoctet _ _⟩, plain_presentField plain_u16 _⟩, by simp⟩

@[simp] theorem Latency.plain (l : Latency) : Plain (depth + 1) l.toValue := .record (by simp) (by simp)

@[simp] theorem MscsParams.plain (m : MscsParams) : Plain (depth + 1) m.toValue := .record (by simp) (by simp)

@[simp] theorem Radio.plain (r : Radio) : Plain (depth + 1) r.toValue := .record (by simp) (by simp)

@[simp] theorem WlanParams.plain (p : WlanParams) : Plain (depth + 3) p.toValue :=
  .record (by simp) (by simp [plain_map])

end Plain

end TrafficRules
