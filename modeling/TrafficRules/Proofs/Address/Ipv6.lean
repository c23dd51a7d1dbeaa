import TrafficRules.Address.Ipv6
import TrafficRules.Proofs.Address.Ipv4
/-!
# Ipv6 — an IPv6 address is read as it was written

Groups are read up to where they end or two colons stand (`readGroups_render`).  What stands for the two colons is the
run of zeros left out (`longestZeros_cut`), so the address comes back whole, the embedded form included
(`parse?_render`).
-/
namespace TrafficRules
namespace Ipv6

theorem wordOf_halves (w : UInt32) : wordOf (w >>> 16).toUInt16 w.toUInt16 = w := by
  have hlt := w.toNat_lt
  have hhigh : ((w >>> 16).toUInt16.toUInt32 <<< 16).toNat = w.toNat / 2 ^ 16 * 2 ^ 16 := by
    simp only [UInt32.toNat_shiftLeft, UInt16.toNat_toUInt32, UInt32.toNat_toUInt16, UInt32.toNat_shiftRight,
      Nat.shiftRight_eq_div_pow, Nat.shiftLeft_eq, UInt32.reduceToNat, Nat.reduceMod, Nat.reducePow]
    omega
  have hlow : w.toUInt16.toUInt32.toNat = w.toNat % 2 ^ 16 := by
    rw [UInt16.toNat_toUInt32, UInt32.toNat_toUInt16]
  apply UInt32.toNat_inj.1
  rw [wordOf, Ipv4.toNat_or_below 16 hhigh rfl hlow (Nat.mod_lt _ (by decide)), Nat.div_add_mod']

theorem ofGroups?_groups (ip : Ipv6) : ofGroups? ip.groups = some ip := by
  have hgroups : ip.groups =
      groupsOf ip.words.w0 ++ groupsOf ip.words.w1 ++ groupsOf ip.words.w2 ++ groupsOf ip.words.w3 := by
    simp [groups, Words.toList]
  rw [hgroups]
  simp only [groupsOf, List.cons_append, List.nil_append, ofGroups?, wordOf_halves]

/-! ## Groups -/

/-- What is behind a group. -/
def Behind (rest : List Char) : Prop := ∀ c ∈ rest.head?, c = ':'

theorem Behind.noDigit {base : Nat} (hb : base ≤ 16) {rest : List Char} (h : Behind rest) :
    Digits.NoDigit base rest := by
  have hlow : ∀ base ≤ 16, Digits.isDigit base ':' = false := by decide
  intro c hc
  rw [h c hc]
  exact hlow base hb

theorem readGroup_hex (g : UInt16) {rest : List Char} (hr : Behind rest) :
    readGroup (Nat.toDigits 16 g.toNat ++ rest) = some (g, rest) := by
  have hlen : (Nat.toDigits 16 g.toNat).length ≤ 4 := by
    rw [Nat.length_toDigits_le_iff (by decide) (by decide)]
    exact g.toNat_lt
  unfold readGroup
  rw [Digits.span_toDigits (by decide) (by decide) _ (hr.noDigit (by decide))]
  dsimp only
  rw [if_pos hlen, Digits.toNat?_toDigits (by decide) (by decide), Option.map_some, UInt16.ofNat_toNat]

/-- A group is not taken for an address: no point stands behind its digits. -/
theorem read_hex (g : UInt16) {rest : List Char} (hr : Behind rest) :
    Ipv4.read (Nat.toDigits 16 g.toNat ++ rest) = none := by
  refine Ipv4.read_of_no_point ?_
  have hpoint : Digits.isDigit 16 '.' = false := by decide
  cases hds : (Nat.toDigits 16 g.toNat).dropWhile (Digits.isDigit 10) with
  | nil =>
    rw [List.dropWhile_append, hds, List.isEmpty_nil, if_pos rfl]
    cases rest with
    | nil => exact fun hh => nomatch hh
    | cons c cs =>
      rw [List.dropWhile_cons_of_neg (by rw [hr.noDigit (by decide) c rfl]; decide), List.head?_cons, hr c rfl]
      decide
  | cons c cs =>
    have hc : c ∈ Nat.toDigits 16 g.toNat := (List.dropWhile_sublist _).subset (by rw [hds]; exact List.mem_cons_self)
    have hdigit := Digits.isDigit_of_mem (by decide) (by decide) hc
    rw [List.dropWhile_append, hds, List.isEmpty_cons, if_neg Bool.false_ne_true, List.cons_append, List.head?_cons]
    rintro ⟨⟩
    rw [hpoint] at hdigit
    cases hdigit

/-- **One group is read**, and its list goes on behind it. -/
theorem readGroups_step {n : Nat} {first : Bool} {cs rest : List Char} {g : UInt16}
    (hbody : (if first then some cs else Ipv4.skip ':' cs) = some (Nat.toDigits 16 g.toNat ++ rest))
    (hr : Behind rest) :
    readGroups (n + 1) first cs =
      (g :: (readGroups n false rest).1, (readGroups n false rest).2.1, (readGroups n false rest).2.2) := by
  have hdotted : (if n = 0 then none else Ipv4.read (Nat.toDigits 16 g.toNat ++ rest)) = none := by
    by_cases hn : n = 0
    · rw [if_pos hn]
    · rw [if_neg hn, read_hex g hr]
  rw [readGroups, hbody]
  dsimp only
  rw [hdotted]
  dsimp only
  rw [readGroup_hex g hr]

/-- What is behind a list of groups: nothing, or the two colons for zeros left out. -/
def BehindAll (rest : List Char) : Prop := rest = [] ∨ ∃ cs, rest = ':' :: ':' :: cs

theorem BehindAll.behind {rest : List Char} (h : BehindAll rest) : Behind rest := by
  intro c hc
  rcases h with rfl | ⟨cs, rfl⟩
  · cases hc
  · cases hc
    rfl

theorem readGroups_nil {rest : List Char} {n : Nat} {first : Bool} (h : BehindAll rest) :
    readGroups n first rest = ([], false, rest) := by
  cases n with
  | zero => rfl
  | succ n =>
    have hcolon : ∀ cs, (if n = 0 then none else Ipv4.read (':' :: cs)) = none ∧ readGroup (':' :: cs) = none := by
      intro cs
      refine ⟨?_, rfl⟩
      split
      · rfl
      · exact Ipv4.read_of_no_point (by simp [show Digits.isDigit 10 ':' = false from rfl])
    have hnil : (if n = 0 then none else Ipv4.read []) = none := by
      split <;> rfl
    rcases h with rfl | ⟨cs, rfl⟩
    · cases first with
      | true =>
        rw [readGroups]
        simp only [if_true, hnil]
        rfl
      | false => rfl
    · cases first with
      | true =>
        rw [readGroups]
        simp only [if_true, (hcolon _).1, (hcolon _).2]
      | false =>
        have hskip : Ipv4.skip ':' (':' :: ':' :: cs) = some (':' :: cs) := rfl
        rw [readGroups]
        simp only [Bool.false_eq_true, if_false, hskip, (hcolon _).1, (hcolon _).2]

/-- The characters of further groups. -/
def furtherChars (gs : List UInt16) : List Char := gs.flatMap fun g => ':' :: Nat.toDigits 16 g.toNat

theorem behind_furtherChars {rest : List Char} (h : BehindAll rest) (gs : List UInt16) :
    Behind (furtherChars gs ++ rest) := by
  cases gs with
  | nil => exact h.behind
  | cons g gs =>
    intro c hc
    cases hc
    rfl

theorem readGroups_further {rest : List Char} (h : BehindAll rest) : ∀ (gs : List UInt16) (n : Nat), gs.length ≤ n →
    readGroups n false (furtherChars gs ++ rest) = (gs, false, rest)
  | [], n, _ => readGroups_nil h
  | g :: gs, n + 1, hn => by
    have hbody : (if false then some (furtherChars (g :: gs) ++ rest)
        else Ipv4.skip ':' (furtherChars (g :: gs) ++ rest)) =
          some (Nat.toDigits 16 g.toNat ++ (furtherChars gs ++ rest)) := by
      simp [furtherChars, Ipv4.skip]
    rw [readGroups_step hbody (behind_furtherChars h gs), readGroups_further h gs n (Nat.le_of_succ_le_succ hn)]

theorem toList_renderGroups (g : UInt16) (gs : List UInt16) :
    (renderGroups (g :: gs)).toList = Nat.toDigits 16 g.toNat ++ furtherChars gs := by
  have hjoined : ∀ (gs : List UInt16) (g : UInt16), [':'].intercalate ((g :: gs).map fun g => Nat.toDigits 16 g.toNat) =
      Nat.toDigits 16 g.toNat ++ furtherChars gs := by
    intro gs
    induction gs with
    | nil => exact fun g => (List.intercalate_singleton).trans (List.append_nil _).symm
    | cons g' gs ih =>
      intro g
      have hmore := ih g'
      rw [List.map_cons] at hmore
      rw [List.map_cons, List.map_cons, List.intercalate_cons_cons, hmore, List.append_assoc]
      rfl
  have hhex : String.toList ∘ (fun g : UInt16 => Digits.hex g.toNat) = fun g => Nat.toDigits 16 g.toNat := by
    funext g
    exact String.toList_ofList
  rw [renderGroups, String.toList_intercalate, List.map_map, hhex]
  exact hjoined gs g

/-- **A list of groups is read back**, up to where zeros are left out. -/
theorem readGroups_render {rest : List Char} (h : BehindAll rest) {gs : List UInt16} {n : Nat} (hn : gs.length ≤ n) :
    readGroups n true ((renderGroups gs).toList ++ rest) = (gs, false, rest) := by
  cases gs with
  | nil => exact readGroups_nil h
  | cons g gs =>
    obtain ⟨n, rfl⟩ : ∃ m, n = m + 1 := Nat.exists_eq_add_one.2 (Nat.lt_of_lt_of_le (Nat.succ_pos _) hn)
    rw [toList_renderGroups, List.append_assoc, readGroups_step (if_pos rfl) (behind_furtherChars h gs),
      readGroups_further h gs n (Nat.le_of_succ_le_succ hn)]

/-! ## Zeros left out -/

/-- **The longest run of zeros** stands where it is said to. -/
theorem longestZeros_cut : ∀ gs : List UInt16, (longestZeros gs).1 + (longestZeros gs).2 ≤ gs.length ∧
    gs.take (longestZeros gs).1 ++ List.replicate (longestZeros gs).2 0 ++
      gs.drop ((longestZeros gs).1 + (longestZeros gs).2) = gs
  | [] => ⟨Nat.le_refl 0, rfl⟩
  | g :: gs => by
    obtain ⟨hle, hcut⟩ := longestZeros_cut gs
    rw [longestZeros]
    dsimp only
    split
    · have hzeros : (g :: gs).takeWhile (· == 0) = List.replicate ((g :: gs).takeWhile (· == 0)).length 0 :=
        List.eq_replicate_iff.2 ⟨rfl, fun b hb => beq_iff_eq.1 (List.all_eq_true.1 List.all_takeWhile b hb)⟩
      have hparts : (g :: gs).takeWhile (· == 0) ++ (g :: gs).dropWhile (· == 0) = g :: gs :=
        List.takeWhile_append_dropWhile
      have hrest : (g :: gs).drop ((g :: gs).takeWhile (· == 0)).length = (g :: gs).dropWhile (· == 0) :=
        (congrArg (List.drop _) hparts.symm).trans List.drop_left
      rw [List.take_zero, List.nil_append, Nat.zero_add, hrest, ← hzeros]
      exact ⟨(List.takeWhile_sublist _).length_le, hparts⟩
    · refine ⟨by simp only [List.length_cons]; omega, ?_⟩
      rw [List.take_succ_cons, Nat.add_right_comm, List.drop_succ_cons, List.cons_append, List.cons_append, hcut]

theorem parse?_groups {head tail : List UInt16} {count : Nat} (hc : head.length + count + tail.length = 8)
    (hcount : 1 < count) {s : String}
    (hs : s.toList = (renderGroups head).toList ++ ':' :: ':' :: (renderGroups tail).toList) :
    parse? s = ofGroups? (head ++ List.replicate count 0 ++ tail) := by
  have hhead : readGroups 8 true s.toList = (head, false, ':' :: ':' :: (renderGroups tail).toList) := by
    rw [hs]
    exact readGroups_render (Or.inr ⟨_, rfl⟩) (by omega)
  have htail : readGroups (7 - head.length) true (renderGroups tail).toList = (tail, false, []) := by
    have h : readGroups (7 - head.length) true ((renderGroups tail).toList ++ []) = (tail, false, []) :=
      readGroups_render (Or.inl rfl) (by omega)
    rwa [List.append_nil] at h
  have hzeros : 8 - head.length - tail.length = count := by omega
  unfold parse?
  rw [hhead]
  dsimp only
  rw [if_neg (by omega), if_neg Bool.false_ne_true]
  simp only [htail, hzeros]

/-- An address that embeds another is read back with it. -/
theorem parse?_mapped {ip : Ipv6} {v4 : Ipv4} (h : ip.mapped? = some v4) :
    parse? ("::ffff:" ++ v4.render) = some ip := by
  obtain ⟨⟨w0, w1, w2, w3⟩⟩ := ip
  unfold mapped? at h
  split at h
  · next hw =>
    obtain ⟨rfl, rfl, rfl⟩ : w0 = 0 ∧ w1 = 0 ∧ w2 = 0xffff := hw
    obtain rfl : v4 = ⟨w3⟩ := (Option.some.inj h).symm
    have hchars : ("::ffff:" ++ (⟨w3⟩ : Ipv4).render).toList =
        ':' :: ':' :: (Nat.toDigits 16 (0xffff : UInt16).toNat ++ ':' :: (⟨w3⟩ : Ipv4).render.toList) := by
      rw [String.toList_append]
      rfl
    have hhead : readGroups 8 true ("::ffff:" ++ (⟨w3⟩ : Ipv4).render).toList =
        ([], false, ("::ffff:" ++ (⟨w3⟩ : Ipv4).render).toList) := readGroups_nil (Or.inr ⟨_, hchars⟩)
    have hembedded : readGroups 6 false (':' :: (⟨w3⟩ : Ipv4).render.toList) = (groupsOf w3, true, []) := by
      have hread : Ipv4.read ((⟨w3⟩ : Ipv4).render.toList ++ []) = some (⟨w3⟩, []) :=
        Ipv4.read_render ⟨w3⟩ fun c hc => nomatch hc
      rw [List.append_nil] at hread
      have hskip : Ipv4.skip ':' (':' :: (⟨w3⟩ : Ipv4).render.toList) = some (⟨w3⟩ : Ipv4).render.toList := rfl
      rw [readGroups]
      simp only [Bool.false_eq_true, if_false, hskip, Nat.reduceEqDiff, hread]
    have htail : readGroups 7 true (Nat.toDigits 16 (0xffff : UInt16).toNat ++ ':' :: (⟨w3⟩ : Ipv4).render.toList) =
        (0xffff :: groupsOf w3, true, []) := by
      rw [readGroups_step (if_pos rfl) fun c hc => by cases hc; rfl, hembedded]
    unfold parse?
    rw [hhead]
    dsimp only
    rw [if_neg (by decide), if_neg Bool.false_ne_true, hchars]
    simp only [List.length_nil, Nat.sub_zero, htail]
    exact congrArg (fun w => some (⟨⟨0, 0, 0xffff, w⟩⟩ : Ipv6)) (wordOf_halves w3)
  · cases h

/-- **An IPv6 address is read back.** -/
theorem parse?_render (ip : Ipv6) : parse? ip.render = some ip := by
  have hlen : ip.groups.length = 8 := by simp [groups, Words.toList, groupsOf]
  unfold render
  split
  · next v4 hv4 => exact parse?_mapped hv4
  · obtain ⟨hle, hcut⟩ := longestZeros_cut ip.groups
    dsimp only
    split
    · next hlong =>
      have height : (ip.groups.take (longestZeros ip.groups).1).length + (longestZeros ip.groups).2 +
          (ip.groups.drop ((longestZeros ip.groups).1 + (longestZeros ip.groups).2)).length = 8 := by
        rw [List.length_take, List.length_drop]
        omega
      rw [parse?_groups height hlong (by simp), hcut, ofGroups?_groups]
    · have hall : readGroups 8 true (renderGroups ip.groups).toList = (ip.groups, false, []) := by
        have h : readGroups 8 true ((renderGroups ip.groups).toList ++ []) = (ip.groups, false, []) :=
          readGroups_render (Or.inl rfl) (Nat.le_of_eq hlen)
        rwa [List.append_nil] at h
      unfold parse?
      rw [hall]
      dsimp only
      rw [if_pos hlen, List.isEmpty_nil, if_pos rfl, ofGroups?_groups]

end Ipv6
end TrafficRules
