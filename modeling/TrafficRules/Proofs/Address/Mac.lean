import TrafficRules.Proofs.Address.Spelling
/-!
# Mac — a hardware address is read as it was written

An address is written as six pairs of lowercase digits between colons (`Mac.grouped_chars`, `Mac.placed_chars`), which is
one of the texts it is read from.
-/
namespace TrafficRules
namespace Mac

theorem isPair_octet (o : UInt8) : IsPair (Digits.octet o) o := by
  have hhigh : o.toNat / 16 < 16 := by have := o.toNat_lt; omega
  have hlow : o.toNat % 16 < 16 := Nat.mod_lt _ (by decide)
  exact ⟨_, _, _, _, rfl, Digits.value?_eq_some_iff.1 (Digits.value?_char hhigh),
    Digits.value?_eq_some_iff.1 (Digits.value?_char hlow), (Nat.div_add_mod o.toNat 16).symm⟩

theorem grouped_chars (m : Mac) : Grouped IsPair m.chars m.octets := by
  simp only [chars, List.append_assoc, List.cons_append]
  exact .more (isPair_octet _) rfl (.more (isPair_octet _) rfl (.more (isPair_octet _) rfl (.more (isPair_octet _) rfl
    (.more (isPair_octet _) rfl (.last (isPair_octet _))))))

/-- **A hardware address is read back.** -/
theorem parse_render (m : Mac) : parse m.render = .ok m := by
  unfold parse render
  rw [String.toList_ofList, ofChars_eq_ok_iff_grouped]
  exact (grouped_chars m).mono fun _ _ => Or.inl

/-- A colon in every third place, and lowercase digits elsewhere. -/
def Placed (cs : List Char) : Prop :=
  ∀ i c, cs[i]? = some c → if i % 3 = 2 then c = ':' else c ∈ Digits.lowercase

theorem char_mem_lowercase {d : Nat} (hd : d < 16) : Digits.char d ∈ Digits.lowercase := by
  have hlow : ∀ d < 16, Digits.char d ∈ Digits.lowercase := by decide
  exact hlow d hd

theorem placed_octet (o : UInt8) : Placed (Digits.octet o) := by
  intro i c h
  match i, h with
  | 0, h => exact Option.some.inj h ▸ char_mem_lowercase (by have := o.toNat_lt; omega)
  | 1, h => exact Option.some.inj h ▸ char_mem_lowercase (Nat.mod_lt _ (by decide))

theorem placed_octet_colon (o : UInt8) {cs : List Char} (hcs : Placed cs) : Placed (Digits.octet o ++ ':' :: cs) := by
  intro i c h
  match i, h with
  | 0, h => exact placed_octet o 0 c h
  | 1, h => exact placed_octet o 1 c h
  | 2, h => exact (Option.some.inj h).symm
  | i + 3, h =>
    rw [Nat.add_mod_right]
    exact hcs i c h

theorem placed_chars (m : Mac) : Placed m.chars := by
  simp only [chars, List.append_assoc, List.cons_append]
  exact placed_octet_colon _ (placed_octet_colon _ (placed_octet_colon _ (placed_octet_colon _ (placed_octet_colon _
    (placed_octet _)))))

/-- **Addresses and their texts.**  An address is read back from its text, so a text that is read says the address that it
would be rewritten as; the text has seventeen characters, colons in every third place and lowercase digits elsewhere, and
no two addresses have one text; and a text that is read says the same with its separators replaced by each other and its
digits in the other case. -/
theorem text_round_trip :
    (∀ m, parse (render m) = .ok m) ∧ (∀ s m, parse s = .ok m → parse (render m) = parse s) ∧
    (∀ m, (render m).toList.length = 17 ∧ Placed (render m).toList) ∧ (∀ m m' : Mac, m = m' ↔ render m = render m') ∧
    ∀ s t m, Respelt s t → parse s = .ok m → parse t = .ok m := by
  refine ⟨parse_render, fun s m h => ?_, fun m => ?_, fun m m' => ⟨congrArg render, fun h => ?_⟩, fun s t m h hm => ?_⟩
  · rw [parse_render, h]
  · rw [render, String.toList_ofList]
    exact ⟨by simp [chars, Digits.octet], placed_chars m⟩
  · have hread := parse_render m
    rw [h, parse_render] at hread
    exact (Except.ok.inj hread).symm
  · exact ofChars_of_alike h hm

theorem text_round_trip_dashes : Respelt "00:1A:2b:3C:4d:5e" "00-1a:2B-3c:4D-5E" ∧
    parse "00:1A:2b:3C:4d:5e" = .ok ⟨0, 0x1a, 0x2b, 0x3c, 0x4d, 0x5e⟩ ∧
    parse "00-1a:2B-3c:4D-5E" = .ok ⟨0, 0x1a, 0x2b, 0x3c, 0x4d, 0x5e⟩ ∧
    parse (render ⟨0, 0x1a, 0x2b, 0x3c, 0x4d, 0x5e⟩) = parse "00:1A:2b:3C:4d:5e" := by
  have hspelt : Respelt "00:1A:2b:3C:4d:5e" "00-1a:2B-3c:4D-5E" := by
    unfold Respelt
    decide +kernel
  have hread : parse "00:1A:2b:3C:4d:5e" = .ok ⟨0, 0x1a, 0x2b, 0x3c, 0x4d, 0x5e⟩ := by decide +kernel
  obtain ⟨-, hback, -, -, hsame⟩ := text_round_trip
  exact ⟨hspelt, hread, hsame _ _ _ hspelt hread, hback _ _ hread⟩

end Mac
end TrafficRules
