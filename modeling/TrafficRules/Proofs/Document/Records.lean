import TrafficRules.Document.Rule
import TrafficRules.Proofs.Address.Ipv6
import TrafficRules.Proofs.Address.Mac
import TrafficRules.Proofs.Document.ReadsBack
/-!
# Records — rules and their parts as documents

Every part of a rule reads back, whatever it says: the names of cases, the texts of addresses and the records, each from
what it is made of.
-/
namespace TrafficRules

open Value (ReadsBack readsBack_u8 readsBack_u16 readsBack_u32 readsBack_text readsBack_bool readsBack_list
  readsBack_parsed readsBack_named)

theorem Mac.readsBack : ReadsBack ofValue? toValue := readsBack_parsed fun m => by rw [parse?, parse_render]; rfl

theorem Ipv4.readsBack : ReadsBack ofValue? toValue := readsBack_parsed parse?_render

theorem Ipv6.readsBack : ReadsBack ofValue? toValue := readsBack_parsed parse?_render

theorem Classifier.readsBack : ReadsBack ofValue? toValue := readsBack_named fun c => by cases c <;> rfl

theorem IpVersion.readsBack : ReadsBack ofValue? toValue := readsBack_named fun v => by cases v <;> rfl

theorem Sense.readsBack : ReadsBack ofValue? toValue := readsBack_named fun s => by cases s <;> rfl

theorem Acceleration.readsBack : ReadsBack ofValue? toValue := readsBack_named fun a => by cases a <;> rfl

theorem Band.readsBack : ReadsBack ofValue? toValue := readsBack_named fun b => by cases b <;> rfl

theorem Bandwidth.readsBack : ReadsBack ofValue? toValue := readsBack_named fun b => by cases b <;> rfl

theorem MatchMode.readsBack : ReadsBack ofValue? toValue := readsBack_named fun m => by cases m <;> rfl

theorem Ipv4Match.readsBack : ReadsBack ofValue? toValue where
  back isHeld m := by simp [ofValue?, toValue, Ipv4.readsBack.back, Ipv4.readsBack.present]
  null := rfl

theorem Ipv6Match.readsBack : ReadsBack ofValue? toValue where
  back isHeld m := by simp [ofValue?, toValue, Ipv6.readsBack.back, Ipv6.readsBack.present]
  null := rfl

theorem PortRange.readsBack : ReadsBack ofValue? toValue where
  back isHeld r := by simp [ofValue?, toValue, readsBack_u16.back]
  null := rfl

theorem SpiMatch.readsBack : ReadsBack ofValue? toValue where
  back isHeld m := by simp [ofValue?, toValue, readsBack_u32.back]
  null := rfl

theorem FlowMatch.readsBack : ReadsBack ofValue? toValue where
  back isHeld m := by
    -- the fields come first: what is read of fields that are not there yet cannot be simplified
    rw [ofValue?, toValue, Fields.fields?_form, Option.bind_eq_bind, Option.bind_some]
    simp [IpVersion.readsBack.orNull, Mac.readsBack.orNull, Ipv4Match.readsBack.orNull, Ipv6Match.readsBack.orNull,
      PortRange.readsBack.orNull, SpiMatch.readsBack.orNull, readsBack_u8.orNull, readsBack_u16.orNull,
      readsBack_u32.orNull, readsBack_text.orNull]
  null := rfl

theorem Criterion.readsBack : ReadsBack ofValue? toValue where
  back isHeld c := by
    cases c <;> simp [ofValue?, toValue, Value.choice?_form, ofField?, readsBack_u8.back, readsBack_u16.back,
      Mac.readsBack.back, Ipv4.readsBack.back]
  null := rfl

theorem Predicate.readsBack : ReadsBack ofValue? toValue where
  back isHeld p := by simp [ofValue?, toValue, Criterion.readsBack.back, Sense.readsBack.back]
  null := rfl

theorem MeshMatch.readsBack : ReadsBack ofValue? toValue where
  back isHeld m := by
    simp [ofValue?, toValue, readsBack_bool.back, (readsBack_list Predicate.readsBack).back]
  null := rfl

theorem RuleOutput.readsBack : ReadsBack ofValue? toValue where
  back isHeld o := by
    simp [ofValue?, toValue, readsBack_u8.back, readsBack_u8.present, readsBack_u16.present,
      Acceleration.readsBack.back]
  null := rfl

theorem Latency.readsBack : ReadsBack ofValue? toValue where
  back isHeld l := by simp [ofValue?, toValue, readsBack_u8.back, readsBack_u32.back]
  null := rfl

theorem MscsParams.readsBack : ReadsBack ofValue? toValue where
  back isHeld m := by simp [ofValue?, toValue, readsBack_u8.back]
  null := rfl

theorem Radio.readsBack : ReadsBack ofValue? toValue where
  back isHeld r := by simp [ofValue?, toValue, Band.readsBack.back, readsBack_u8.back, Bandwidth.readsBack.back]
  null := rfl

theorem WlanParams.readsBack : ReadsBack ofValue? toValue where
  back isHeld p := by
    rw [ofValue?, toValue, Fields.fields?_form, Option.bind_eq_bind, Option.bind_some]
    simp [Mac.readsBack.back, (readsBack_list Radio.readsBack).back, MatchMode.readsBack.back, readsBack_text.back,
      readsBack_u8.back]
  null := rfl

end TrafficRules
