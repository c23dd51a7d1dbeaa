import TrafficRules.Document.Json
import TrafficRules.Document.Json.Read
import TrafficRules.Proofs.Text.Digits
/-!
# JsonText — a document is read from the JSON text written of it

The reader has fuel and gives back what follows, so what is shown of a value is that it is read from the front of any
text that goes on behind it, with fuel for its characters (`ReadAt`); lists and records pass it on from their parts.  So
a plain value is the whole of its text (`parse?_compact`).
-/
namespace TrafficRules
namespace Json

/-! ## Texts -/

theorem unicode?_control {c : Char} (h : c.toNat < 32) (cs : List Char) :
    unicode? ('0' :: '0' :: Digits.char (c.toNat / 16) :: Digits.char (c.toNat % 16) :: cs) = some (c, 4) := by
  have hhigh : c.toNat / 16 < 16 := by omega
  have hlow : c.toNat % 16 < 16 := Nat.mod_lt _ (by decide)
  have hvalue : c.toNat / 16 * 16 + c.toNat % 16 = c.toNat := Nat.div_add_mod' c.toNat 16
  have hunit : unit? ('0' :: '0' :: Digits.char (c.toNat / 16) :: Digits.char (c.toNat % 16) :: cs) = some c.toNat := by
    have hzero : Digits.value? 16 '0' = some 0 := rfl
    simp [unit?, Digits.toNat?, Digits.foldValue, hzero, Digits.value?_char hhigh, Digits.value?_char hlow, hvalue]
  have hvalid : c.toNat.isValidChar := Or.inl (by omega)
  rw [unicode?, hunit, Option.bind_eq_bind, Option.bind_some, if_pos hvalid, Char.ofNat_toNat]

theorem characters_unicode {cs : List Char} {c : Char} {n : Nat} (h : unicode? cs = some (c, n)) (fuel : Nat) :
    characters (fuel + 1) ('\\' :: 'u' :: cs) = characters.front c (characters fuel (cs.drop n)) := by
  rw [characters, h]
  rfl

theorem characters_plain {c : Char} (hq : c ≠ '"') (hb : c ≠ '\\') (hc : ¬ c.toNat < 32) (fuel : Nat) (cs : List Char) :
    characters (fuel + 1) (c :: cs) = characters.front c (characters fuel cs) := by
  rw [characters.eq_def]
  simp [hq, hb, hc]

/-- **A character is read back from what is written of it.** -/
theorem characters_escape (c : Char) (fuel : Nat) (cs : List Char) :
    characters (fuel + 1) (escape c ++ cs) = characters.front c (characters fuel cs) := by
  unfold escape
  split
  · next h => subst h; rfl
  split
  · next h => subst h; rfl
  split
  · next h => subst h; rfl
  split
  · next h => subst h; rfl
  split
  · next h => subst h; rfl
  split
  · next h =>
    obtain rfl : c = '\x08' := Char.toNat_inj.1 h
    rfl
  split
  · next h =>
    obtain rfl : c = '\x0c' := Char.toNat_inj.1 h
    rfl
  split
  · next h => exact characters_unicode (unicode?_control h cs) fuel
  · next hq hb _ _ _ _ _ hc => exact characters_plain hq hb hc fuel cs

theorem characters_text (rest : List Char) : ∀ (s : List Char) (fuel : Nat), s.length < fuel →
    characters fuel (s.flatMap escape ++ '"' :: rest) = some (s, rest)
  | [], fuel + 1, _ => rfl
  | c :: s, fuel + 1, h => by
    rw [List.flatMap_cons, List.append_assoc, characters_escape, characters_text rest s fuel (Nat.lt_of_succ_lt_succ h)]
    rfl

theorem toList_quote (s : String) : (quote s).toList = '"' :: (s.toList.flatMap escape ++ ['"']) := String.toList_ofList

theorem length_le_escape : ∀ s : List Char, s.length ≤ (s.flatMap escape).length
  | [] => Nat.le_refl 0
  | c :: s => by
    have hone : 1 ≤ (escape c).length := by
      unfold escape
      repeat' split
      all_goals exact Nat.succ_le_succ (Nat.zero_le _)
    rw [List.flatMap_cons, List.length_append, List.length_cons, Nat.add_comm]
    exact Nat.add_le_add hone (length_le_escape s)

theorem text?_quote (s : String) (rest : List Char) : text? ((quote s).toList ++ rest) = some (s, rest) := by
  have hlen : s.toList.length < (s.toList.flatMap escape ++ '"' :: rest).length + 1 := by
    have hle := length_le_escape s.toList
    rw [List.length_append]
    omega
  have hread : ∀ cs, text? ('"' :: cs) =
      (characters (cs.length + 1) cs).map fun p => (String.ofList p.1, p.2) :=
    fun _ => rfl
  rw [toList_quote, List.cons_append, List.append_assoc, List.singleton_append, hread,
    characters_text rest s.toList _ hlen, Option.map_some]
  exact congrArg (fun text => some (text, rest)) String.ofList_toList

/-! ## Numbers -/

/-- What is behind a value. -/
def Behind (rest : List Char) : Prop := ∀ c ∈ rest.head?, c = ',' ∨ c = ']' ∨ c = '\x7d'

theorem Behind.noDigit {rest : List Char} (h : Behind rest) : Digits.NoDigit 10 rest := by
  intro c hc
  rcases h c hc with rfl | rfl | rfl <;> rfl

theorem digit_of_cons {n : Nat} {c : Char} {ds : List Char} (h : Nat.toDigits 10 n = c :: ds) :
    ∃ d < 10, c = Nat.digitChar d :=
  Digits.mem_toDigits (by decide) n c (by rw [h]; exact List.mem_cons_self)

theorem read?_toDigits (n : Nat) {rest : List Char} (hr : Behind rest) :
    Number.read? (Nat.toDigits 10 n ++ rest) = some ({ negative := false, whole := Nat.toDigits 10 n }, rest) := by
  have hten : 1 < 10 := by decide
  have hspan := Digits.span_toDigits hten (by decide) n hr.noDigit
  cases hds : Nat.toDigits 10 n with
  | nil => exact absurd hds Nat.toDigits_ne_nil
  | cons c ds =>
    have hc : c ≠ '-' := by
      obtain ⟨d, hd, rfl⟩ := digit_of_cons hds
      have hlow : ∀ d < 10, Nat.digitChar d ≠ '-' := by decide
      exact hlow d hd
    have hzero : c = '0' → ds = [] := by
      rintro rfl
      rw [Digits.head_toDigits hten n (by rw [hds]; rfl)] at hds
      exact (List.cons.inj hds).2.symm
    rw [hds, List.cons_append] at hspan
    rw [List.cons_append]
    unfold Number.read?
    cases rest with
    | nil =>
      rw [List.append_nil] at hspan
      simpa [hspan, hc] using hzero
    | cons c' cs => rcases hr c' rfl with rfl | rfl | rfl <;> simpa [hspan, hc] using hzero

theorem numberValue?_nat {n : Nat} (h : n < UInt64.size) :
    numberValue? { negative := false, whole := Nat.toDigits 10 n } = some (.ofNat n) := by
  have hint : Number.int? { negative := false, whole := Nat.toDigits 10 n } = some (n : Int) := by
    unfold Number.int?
    rw [Digits.toNat?_toDigits (by decide) (by decide)]
    exact if_pos h
  rw [numberValue?, hint]
  rfl

/-! ## Values -/

/-- **A value that is read as it was written**, with at most so many lists and records in each other: its numbers are
natural ones of 64 bits and no two fields of a record have one name. -/
inductive Plain : Nat → Value → Prop
  | null {depth} : Plain depth .null
  | bool {depth} (b : Bool) : Plain depth (.bool b)
  | nat {depth} {n : Nat} (h : n < UInt64.size) : Plain depth (.ofNat n)
  | text {depth} (s : String) : Plain depth (.text s)
  | list {depth} {vs : List Value} (h : ∀ v ∈ vs, Plain depth v) : Plain (depth + 1) (.list vs)
  | record {depth} {fs : Fields} (hn : (fs.map (·.1)).Nodup) (h : ∀ f ∈ fs, Plain depth f.2) :
    Plain (depth + 1) (.record fs)

/-- A value is read from the front of a text, if there is fuel for its characters. -/
def ReadAt (depth : Nat) (v : Value) : Prop := ∀ fuel rest, 2 * (compact v).toList.length < fuel → Behind rest →
  value depth fuel ((compact v).toList ++ rest) = some (v, rest)

theorem compact_text (s : String) : compact (.text s) = quote s := by rw [compact, scalar?, Option.getD_some] <;> nofun

theorem toList_ofNat (n : Nat) : (compact (.ofNat n)).toList = Nat.toDigits 10 n := by
  have hint : compact (.ofNat n) = toString (n : Int) := by
    rw [Value.ofNat, compact, scalar?, Option.getD_some] <;> nofun
  have hnat : toString (n : Int) = String.ofList (Nat.toDigits 10 n) := Nat.toString_eq_ofList_toDigits
  rw [hint, hnat, String.toList_ofList]

theorem toList_list (vs : List Value) : (compact (.list vs)).toList = '[' :: ((compactItems vs).toList ++ [']']) := by
  rw [compact, String.toList_append, String.toList_append]
  rfl

theorem toList_items (v w : Value) (vs : List Value) :
    (compactItems (v :: w :: vs)).toList = (compact v).toList ++ ',' :: (compactItems (w :: vs)).toList := by
  rw [compactItems, String.toList_append, String.toList_append, List.append_assoc]
  · rfl
  · nofun

theorem toList_record (fs : Fields) :
    (compact (.record fs)).toList = '\x7b' :: ((compactFields fs).toList ++ ['\x7d']) := by
  rw [compact, String.toList_append, String.toList_append]
  rfl

theorem toList_field (k : String) (v : Value) :
    (compactFields [(k, v)]).toList = (quote k).toList ++ ':' :: (compact v).toList := by
  rw [compactFields, String.toList_append, String.toList_append, List.append_assoc]
  rfl

theorem toList_fields (k : String) (v : Value) (f : String × Value) (fs : Fields) :
    (compactFields ((k, v) :: f :: fs)).toList =
      (quote k).toList ++ ':' :: ((compact v).toList ++ ',' :: (compactFields (f :: fs)).toList) := by
  rw [compactFields, String.toList_append, String.toList_append, String.toList_append, String.toList_append]
  · simp only [List.append_assoc]
    rfl
  · nofun

theorem readAt_null (depth : Nat) : ReadAt depth .null
  | 0, _, h, _ => absurd h (Nat.not_lt_zero _)
  | fuel + 1, rest, _, _ => by
    show value depth (fuel + 1) ('n' :: 'u' :: 'l' :: 'l' :: rest) = _
    rfl

theorem readAt_bool (depth : Nat) (b : Bool) : ReadAt depth (.bool b)
  | 0, _, h, _ => absurd h (Nat.not_lt_zero _)
  | fuel + 1, rest, _, _ => by
    cases b
    · show value depth (fuel + 1) ('f' :: 'a' :: 'l' :: 's' :: 'e' :: rest) = _
      rfl
    · show value depth (fuel + 1) ('t' :: 'r' :: 'u' :: 'e' :: rest) = _
      rfl

theorem readAt_text (depth : Nat) (s : String) : ReadAt depth (.text s)
  | 0, _, h, _ => absurd h (Nat.not_lt_zero _)
  | fuel + 1, rest, _, _ => by
    have hvalue : ∀ cs, value depth (fuel + 1) ('"' :: cs) = (text? ('"' :: cs)).map fun p => (.text p.1, p.2) :=
      fun _ => rfl
    have hquote := text?_quote s rest
    rw [compact_text]
    rw [toList_quote, List.cons_append] at hquote ⊢
    rw [hvalue, hquote]
    rfl

theorem value_digit (depth fuel : Nat) (cs : List Char) : ∀ {d : Nat}, d < 10 →
    value depth (fuel + 1) (Nat.digitChar d :: cs) =
      (Number.read? (Nat.digitChar d :: cs)).bind fun p => (numberValue? p.1).bind fun v => some (v, p.2)
  | 0, _ | 1, _ | 2, _ | 3, _ | 4, _ | 5, _ | 6, _ | 7, _ | 8, _ | 9, _ => rfl
  | _ + 10, h => absurd h (by omega)

theorem readAt_nat (depth : Nat) {n : Nat} (h : n < UInt64.size) : ReadAt depth (.ofNat n)
  | 0, _, h, _ => absurd h (Nat.not_lt_zero _)
  | fuel + 1, rest, _, hr => by
    have hread := read?_toDigits n hr
    rw [toList_ofNat]
    cases hds : Nat.toDigits 10 n with
    | nil => exact absurd hds Nat.toDigits_ne_nil
    | cons c ds =>
      obtain ⟨d, hd, rfl⟩ := digit_of_cons hds
      rw [hds, List.cons_append] at hread
      rw [List.cons_append, value_digit depth fuel _ hd, hread, Option.bind_some, ← hds, numberValue?_nat h]
      rfl

/-- A value starts with no space, and with no end of a list. -/
theorem Plain.front {depth : Nat} {v : Value} (h : Plain depth v) :
    ∃ c cs, (compact v).toList = c :: cs ∧ isSpace c = false ∧ c ≠ ']' := by
  cases h with
  | null => exact ⟨'n', _, rfl, rfl, by decide⟩
  | bool b => cases b <;> exact ⟨_, _, rfl, rfl, by decide⟩
  | @nat _ n _ =>
    rw [toList_ofNat]
    cases hds : Nat.toDigits 10 n with
    | nil => exact absurd hds Nat.toDigits_ne_nil
    | cons c ds =>
      obtain ⟨d, hd, rfl⟩ := digit_of_cons hds
      have hlow : ∀ d < 10, isSpace (Nat.digitChar d) = false ∧ Nat.digitChar d ≠ ']' := by decide
      exact ⟨_, _, rfl, hlow d hd⟩
  | text s => exact ⟨'"', _, by rw [compact_text, toList_quote], rfl, by decide⟩
  | list => exact ⟨'[', _, toList_list _, rfl, by decide⟩
  | record => exact ⟨'\x7b', _, toList_record _, rfl, by decide⟩

section Parts

variable {depth : Nat}

theorem items_read : ∀ (vs : List Value), vs ≠ [] → (∀ v ∈ vs, ReadAt depth v) → ∀ fuel rest,
    2 * (compactItems vs).toList.length + 1 < fuel →
      items depth fuel ((compactItems vs).toList ++ ']' :: rest) = some (vs, rest)
  | [], hvs, _, _, _, _ => absurd rfl hvs
  | _, _, _, 0, _, hf => absurd hf (Nat.not_lt_zero _)
  | [v], _, h, fuel + 1, rest, hf => by
    have hbehind : Behind (']' :: rest) := fun c hc => Or.inr (Or.inl (Option.some.inj hc).symm)
    rw [compactItems] at hf ⊢
    rw [items, h v List.mem_cons_self fuel _ (by omega) hbehind]
    rfl
  | v :: w :: vs, _, h, fuel + 1, rest, hf => by
    rw [toList_items, List.length_append, List.length_cons] at hf
    have hbehind : Behind (',' :: ((compactItems (w :: vs)).toList ++ ']' :: rest)) := fun c hc =>
      Or.inl (Option.some.inj hc).symm
    have hv := h v List.mem_cons_self fuel _ (by omega) hbehind
    have hrest := items_read (w :: vs) (by simp) (fun v hv => h v (List.mem_cons_of_mem _ hv)) fuel rest (by omega)
    rw [toList_items, List.append_assoc, List.cons_append, items, hv]
    show (items depth fuel ((compactItems (w :: vs)).toList ++ ']' :: rest)).map _ = _
    rw [hrest]
    rfl

theorem skipSpace_quote (k : String) (cs : List Char) :
    skipSpace ((quote k).toList ++ cs) = (quote k).toList ++ cs := by
  rw [toList_quote]
  rfl

/-- One field is read, and what follows it. -/
theorem fields_step {fuel : Nat} {k : String} {v : Value} {rest : List Char} (hv : ReadAt depth v)
    (hf : 2 * (compact v).toList.length < fuel) (hr : Behind rest) :
    fields depth (fuel + 1) ((quote k).toList ++ ':' :: ((compact v).toList ++ rest)) =
      match skipSpace rest with
      | ',' :: rest => (fields depth fuel rest).bind fun p =>
        some (if p.1.any (·.1 == k) then p.1 else (k, v) :: p.1, p.2)
      | '\x7d' :: rest => some ([(k, v)], rest)
      | _ => none := by
  rw [fields, skipSpace_quote, text?_quote]
  show (value depth fuel ((compact v).toList ++ rest)).bind _ = _
  rw [hv fuel rest hf hr]
  rfl

theorem fields_read {fs : Fields} (hfs : fs ≠ []) (hn : (fs.map (·.1)).Nodup) (h : ∀ f ∈ fs, ReadAt depth f.2) :
    ∀ fuel rest, 2 * (compactFields fs).toList.length + 1 < fuel →
      fields depth fuel ((compactFields fs).toList ++ '\x7d' :: rest) = some (fs, rest) := by
  induction fs with
  | nil => exact absurd rfl hfs
  | cons f fs ih =>
    rintro (_ | fuel) rest hf
    · exact absurd hf (Nat.not_lt_zero _)
    · obtain ⟨k, v⟩ := f
      have hv : ReadAt depth v := h (k, v) List.mem_cons_self
      cases fs with
      | nil =>
        have hbehind : Behind ('\x7d' :: rest) := fun c hc => Or.inr (Or.inr (Option.some.inj hc).symm)
        rw [toList_field, List.length_append, List.length_cons] at hf
        rw [toList_field, List.append_assoc, List.cons_append, fields_step hv (by omega) hbehind]
        rfl
      | cons g fs =>
        have hbehind : Behind (',' :: ((compactFields (g :: fs)).toList ++ '\x7d' :: rest)) := fun c hc =>
          Or.inl (Option.some.inj hc).symm
        obtain ⟨hk, hn⟩ := List.nodup_cons.1 hn
        have hany : (g :: fs).any (·.1 == k) = false := List.any_eq_false.2 fun f hf he =>
          hk (List.mem_map.2 ⟨f, hf, beq_iff_eq.1 he⟩)
        rw [toList_fields, List.length_append, List.length_cons, List.length_append, List.length_cons] at hf
        have hrest := ih (by simp) hn (fun f hf => h f (List.mem_cons_of_mem _ hf)) fuel rest (by omega)
        rw [toList_fields, List.append_assoc, List.cons_append, List.append_assoc, List.cons_append,
          fields_step hv (by omega) hbehind]
        show (fields depth fuel ((compactFields (g :: fs)).toList ++ '\x7d' :: rest)).bind _ = _
        rw [hrest, Option.bind_some, hany]
        rfl

end Parts

theorem items_front {depth : Nat} {v : Value} (vs : List Value) (h : Plain depth v) :
    ∃ c cs, (compactItems (v :: vs)).toList = c :: cs ∧ isSpace c = false ∧ c ≠ ']' := by
  obtain ⟨c, cs, hv, hc⟩ := h.front
  cases vs with
  | nil => exact ⟨c, cs, by rw [compactItems, hv], hc⟩
  | cons w vs => exact ⟨c, _, by rw [toList_items, hv, List.cons_append], hc⟩

theorem fields_front (f : String × Value) (fs : Fields) : ∃ cs, (compactFields (f :: fs)).toList = '"' :: cs := by
  obtain ⟨k, v⟩ := f
  cases fs with
  | nil => exact ⟨_, by rw [toList_field, toList_quote, List.cons_append]⟩
  | cons g fs => exact ⟨_, by rw [toList_fields, toList_quote, List.cons_append]⟩

theorem value_open {depth fuel : Nat} {c : Char} {cs : List Char} (hspace : isSpace c = false) (hend : c ≠ ']') :
    value (depth + 1) (fuel + 1) ('[' :: c :: cs) = (items depth fuel (c :: cs)).map fun p => (.list p.1, p.2) := by
  have hskip : skipSpace (c :: cs) = c :: cs := List.dropWhile_cons_of_neg (by rw [hspace]; decide)
  have hopen : skipSpace ('[' :: c :: cs) = '[' :: c :: cs := rfl
  simp only [value, hopen, hskip, Nat.succ_ne_zero, if_false, Nat.add_sub_cancel]
  split
  · next heq => exact absurd (List.cons.inj heq).1 hend
  · rfl

theorem readAt_list {depth : Nat} {vs : List Value} (hp : ∀ v ∈ vs, Plain depth v) (h : ∀ v ∈ vs, ReadAt depth v) :
    ReadAt (depth + 1) (.list vs) := by
  rintro (_ | fuel) rest hf hr
  · exact absurd hf (Nat.not_lt_zero _)
  · cases vs with
    | nil => rfl
    | cons v vs =>
      rw [toList_list, List.length_cons, List.length_append, List.length_singleton] at hf
      have hitems := items_read (v :: vs) (by simp) h fuel rest (by omega)
      obtain ⟨c, cs, hfront, hspace, hend⟩ := items_front vs (hp v List.mem_cons_self)
      rw [hfront, List.cons_append] at hitems
      rw [toList_list, List.cons_append, List.append_assoc, List.singleton_append, hfront, List.cons_append,
        value_open hspace hend, hitems]
      rfl

theorem readAt_record {depth : Nat} {fs : Fields} (hn : (fs.map (·.1)).Nodup) (h : ∀ f ∈ fs, ReadAt depth f.2) :
    ReadAt (depth + 1) (.record fs) := by
  rintro (_ | fuel) rest hf hr
  · exact absurd hf (Nat.not_lt_zero _)
  · cases fs with
    | nil => rfl
    | cons f fs =>
      rw [toList_record, List.length_cons, List.length_append, List.length_singleton] at hf
      have hfields := fields_read (by simp) hn h fuel rest (by omega)
      obtain ⟨cs, hfront⟩ := fields_front f fs
      rw [hfront, List.cons_append] at hfields
      have hopen : value (depth + 1) (fuel + 1) ('\x7b' :: '"' :: (cs ++ '\x7d' :: rest)) =
          (fields depth fuel ('"' :: (cs ++ '\x7d' :: rest))).map fun p => (.record p.1, p.2) := rfl
      rw [toList_record, List.cons_append, List.append_assoc, List.singleton_append, hfront, List.cons_append, hopen,
        hfields]
      rfl

/-- **A plain value is read from the front of a text.** -/
theorem Plain.readAt {depth : Nat} {v : Value} (h : Plain depth v) : ReadAt depth v := by
  induction h with
  | null => exact readAt_null _
  | bool b => exact readAt_bool _ b
  | nat hn => exact readAt_nat _ hn
  | text s => exact readAt_text _ s
  | list h ih => exact readAt_list h ih
  | record hn _ ih => exact readAt_record hn ih

/-- **A plain value is the whole of its text.** -/
theorem parse?_compact {v : Value} (h : Plain depthLimit v) : parse? (compact v) = some v := by
  have hread := h.readAt (2 * (compact v).toList.length + 2) [] (by omega) fun c hc => nomatch hc
  rw [List.append_nil] at hread
  rw [parse?]
  simp only [hread]
  rfl

end Json
end TrafficRules
