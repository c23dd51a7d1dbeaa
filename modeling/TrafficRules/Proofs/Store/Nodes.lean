import Mathlib.Data.List.Nodup
import TrafficRules.Store.Node
/-!
# Nodes — lists of nodes told apart by their serials

A store keeps a node once, so an edit that names a node by its serial touches one place: `distinct_cut` cuts the list
there, `replaceIn_cut` and `removeFrom_cut` go on from the cut.  `placeIn` is the order of evaluation: a new node
comes behind the last one whose precedence is not below its own, and the nodes stay in order (`pairwise_placeIn`).
-/
namespace TrafficRules
namespace Node

/-- No two nodes share a serial. -/
def Distinct (ns : List Node) : Prop := (ns.map (·.serial)).Nodup

/-- Puts a node behind the last one whose precedence is not below its own. -/
def placeIn (n : Node) : List Node → List Node
  | [] => [n]
  | m :: ms =>
    if (m :: ms).any (fun x => n.rule.bucket ≤ x.rule.bucket) then m :: placeIn n ms else n :: m :: ms

theorem distinct_cons {n : Node} {ns : List Node} : Distinct (n :: ns) ↔ (∀ m ∈ ns, m.serial ≠ n.serial) ∧ Distinct ns := by
  unfold Distinct
  rw [List.map_cons, List.nodup_cons, List.mem_map]
  refine and_congr_left' ⟨fun h m hm he => h ⟨m, hm, he⟩, ?_⟩
  rintro h ⟨m, hm, he⟩
  exact h m hm he

theorem Distinct.perm {ns ms : List Node} (h : Distinct ns) (hp : ns.Perm ms) : Distinct ms :=
  (hp.map Node.serial).nodup_iff.1 h

theorem is_iff (a b : Node) : a.is b = true ↔ a.serial = b.serial := by simp [Node.is]

theorem is_eq_false_iff (a b : Node) : a.is b = false ↔ a.serial ≠ b.serial := by simp [Node.is]

theorem Distinct.eq_of_serial {ns : List Node} (h : Distinct ns) {a b : Node} (ha : a ∈ ns) (hb : b ∈ ns)
    (hs : a.serial = b.serial) : a = b := List.inj_on_of_nodup_map h ha hb hs

/-- **A list of distinct nodes, cut at one of them.** -/
theorem distinct_cut {ns : List Node} (h : Distinct ns) {old : Node} (ho : old ∈ ns) :
    ∃ A B, ns = A ++ old :: B ∧ (∀ m ∈ A, m.is old = false) ∧ (∀ m ∈ B, m.is old = false) := by
  obtain ⟨A, B, rfl⟩ := List.append_of_mem ho
  unfold Distinct at h
  rw [List.map_append, List.map_cons, List.nodup_middle, List.nodup_cons, List.mem_append] at h
  refine ⟨A, B, rfl, fun m hm => ?_, fun m hm => ?_⟩ <;> rw [is_eq_false_iff] <;> intro he
  · exact h.1 (Or.inl (he ▸ List.mem_map_of_mem hm))
  · exact h.1 (Or.inr (he ▸ List.mem_map_of_mem hm))

theorem Distinct.disjoint {A B : List Node} (h : Distinct (A ++ B)) {a b : Node} (ha : a ∈ A) (hb : b ∈ B) :
    a.is b = false := by
  unfold Distinct at h
  rw [List.map_append] at h
  rw [is_eq_false_iff]
  exact fun he => List.disjoint_of_nodup_append h (List.mem_map_of_mem ha) (he ▸ List.mem_map_of_mem hb)

theorem Distinct.not_around {A C B : List Node} (h : Distinct (A ++ C ++ B)) {n : Node} (hn : n ∈ C) :
    (∀ m ∈ A, m.is n = false) ∧ ∀ m ∈ B, m.is n = false := by
  constructor
  · rw [List.append_assoc] at h
    exact fun m hm => h.disjoint hm (List.mem_append_left _ hn)
  · intro m hm
    rw [is_eq_false_iff]
    exact Ne.symm ((is_eq_false_iff _ _).1 (h.disjoint (List.mem_append_right _ hn) hm))

theorem Distinct.countP_is {ns : List Node} (h : Distinct ns) {n : Node} (hn : n ∈ ns) : ns.countP (·.is n) = 1 := by
  obtain ⟨A, B, rfl, hA, hB⟩ := distinct_cut h hn
  have hzero : ∀ ms : List Node, (∀ m ∈ ms, m.is n = false) → ms.countP (·.is n) = 0 := fun ms hms =>
    List.countP_eq_zero.2 (fun m hm => by rw [hms m hm]; decide)
  rw [List.countP_append, List.countP_cons, hzero A hA, hzero B hB, if_pos ((is_iff n n).2 rfl)]

/-- Two nodes of a kind that has at most one are the same. -/
theorem eq_of_countP_le_one {p : Node → Bool} {ns : List Node} (h : ns.countP p ≤ 1) {a b : Node} (ha : a ∈ ns)
    (hb : b ∈ ns) (hpa : p a = true) (hpb : p b = true) : a = b := by
  obtain ⟨A, B, rfl⟩ := List.append_of_mem ha
  rw [List.countP_append, List.countP_cons, if_pos hpa] at h
  rcases List.mem_append.1 hb with hb | hb
  · have hpos : 0 < A.countP p := List.countP_pos_iff.2 ⟨b, hb, hpb⟩
    omega
  · rcases List.mem_cons.1 hb with hb | hb
    · exact hb.symm
    · have hpos : 0 < B.countP p := List.countP_pos_iff.2 ⟨b, hb, hpb⟩
      omega

/-! ## A search -/

theorem find?_filter (p q : Node → Bool) (ns : List Node) : (ns.filter p).find? q = ns.find? fun n => p n && q n := by
  simp only [List.find?_filter, Bool.decide_and, Bool.decide_eq_true]

theorem filter_filter_of_imp {p q : Node → Bool} {ns : List Node} (h : ∀ m ∈ ns, p m = true → q m = true) :
    (ns.filter q).filter p = ns.filter p := by
  rw [List.filter_filter]
  refine List.filter_congr fun m hm => ?_
  rw [Bool.eq_iff_iff, Bool.and_eq_true]
  exact ⟨fun hpq => hpq.1, fun hp => ⟨hp, h m hm hp⟩⟩

theorem find?_eq_of_filter {p q : Node → Bool} (hq : ∀ n, q n = true → p n = true) {ns ms : List Node}
    (h : ns.filter p = ms.filter p) : ns.find? q = ms.find? q := by
  have hfind : ∀ l : List Node, l.find? q = (l.filter p).find? q := fun l => by
    rw [find?_filter]
    congr 1
    funext n
    rw [Bool.eq_iff_iff, Bool.and_eq_true]
    exact ⟨fun hn => ⟨hq n hn, hn⟩, fun hn => hn.2⟩
  rw [hfind ns, hfind ms, h]

theorem rel_of_find? {R : Node → Node → Prop} {p : Node → Bool} {ns : List Node} (h : ns.Pairwise R) {a b : Node}
    (hf : ns.find? p = some a) (hb : b ∈ ns) (hpb : p b = true) (hne : b ≠ a) : R a b := by
  obtain ⟨-, before, after, rfl, hbefore⟩ := List.find?_eq_some_iff_append.1 hf
  rw [List.pairwise_append, List.pairwise_cons] at h
  rcases List.mem_append.1 hb with hb | hb
  · have hnot := hbefore b hb
    rw [hpb] at hnot
    cases hnot
  · exact h.2.1.1 b ((List.mem_cons.1 hb).resolve_left hne)

/-! ## In the place of another -/

theorem replaceIn_append_right {old new : Node} : ∀ (A L : List Node), (∀ m ∈ A, m.is old = false) →
    replaceIn old new (A ++ L) = A ++ replaceIn old new L
  | [], _, _ => rfl
  | a :: A, L, h => by
    have ha : a.is old = false := h a List.mem_cons_self
    rw [List.cons_append, replaceIn, ha, replaceIn_append_right A L (fun m hm => h m (List.mem_cons_of_mem _ hm))]
    rfl

theorem replaceIn_append_left {old new : Node} : ∀ (L B : List Node), (∃ m ∈ L, m.is old = true) →
    replaceIn old new (L ++ B) = replaceIn old new L ++ B
  | [], _, h => by obtain ⟨m, hm, -⟩ := h; cases hm
  | a :: L, B, h => by
    rw [List.cons_append, replaceIn, replaceIn]
    split
    · rfl
    · rename_i ha
      obtain ⟨m, hm, hmo⟩ := h
      have hL : m ∈ L := (List.mem_cons.1 hm).resolve_left (fun e => ha (e ▸ hmo))
      rw [replaceIn_append_left L B ⟨m, hL, hmo⟩, List.cons_append]

theorem replaceIn_cut {old : Node} (new : Node) (A B : List Node) (hA : ∀ m ∈ A, m.is old = false) :
    replaceIn old new (A ++ old :: B) = A ++ new :: B := by
  rw [replaceIn_append_right A _ hA, replaceIn, if_pos ((is_iff _ _).2 rfl)]

theorem replaceIn_middle {A C B : List Node} (h : Distinct (A ++ C ++ B)) {old : Node} (ho : old ∈ C) (new : Node) :
    replaceIn old new (A ++ C ++ B) = A ++ replaceIn old new C ++ B := by
  rw [List.append_assoc, replaceIn_append_right A _ (h.not_around ho).1,
    replaceIn_append_left C B ⟨old, ho, (is_iff _ _).2 rfl⟩, List.append_assoc]

theorem replaceIn_perm {ns : List Node} (h : Distinct ns) {old : Node} (ho : old ∈ ns) (new : Node) :
    (old :: replaceIn old new ns).Perm (new :: ns) := by
  obtain ⟨A, B, rfl, hA, -⟩ := distinct_cut h ho
  rw [replaceIn_cut new A B hA]
  calc (old :: (A ++ new :: B)).Perm (old :: new :: (A ++ B)) := List.Perm.cons _ List.perm_middle
    _ |>.Perm (new :: old :: (A ++ B)) := List.Perm.swap _ _ _
    _ |>.Perm (new :: (A ++ old :: B)) := List.Perm.cons _ List.perm_middle.symm

/-- A search that finds the old node finds the new one in its place. -/
theorem find?_replaceIn {old new : Node} {p : Node → Bool} (hn : p new = true) : ∀ {ns : List Node},
    (∀ m ∈ ns, m.is old = true → m = old) → ns.find? p = some old → (replaceIn old new ns).find? p = some new
  | m :: ms, hd, hf => by
    rw [replaceIn]
    by_cases hm : m.is old = true
    · rw [if_pos hm, List.find?_cons_of_pos hn]
    · have hne : m ≠ old := by
        rintro rfl
        exact hm ((is_iff m m).2 rfl)
      rw [List.find?_cons] at hf
      rw [if_neg hm, List.find?_cons]
      cases hp : p m with
      | true =>
        rw [hp] at hf
        exact absurd (Option.some.inj hf) hne
      | false =>
        rw [hp] at hf
        exact find?_replaceIn hn (fun x hx => hd x (List.mem_cons_of_mem m hx)) hf

/-- A search that finds another node than the old one, and does not look for the new one, finds it again. -/
theorem find?_replaceIn_of_ne {old new a : Node} {p : Node → Bool} (hn : p new = false) (ha : a.is old = false) :
    ∀ {ns : List Node}, ns.find? p = some a → (replaceIn old new ns).find? p = some a
  | m :: ms, hf => by
    rw [replaceIn]
    rw [List.find?_cons] at hf
    cases hp : p m with
    | true =>
      rw [hp] at hf
      obtain rfl : m = a := Option.some.inj hf
      rw [if_neg (Bool.eq_false_iff.1 ha), List.find?_cons_of_pos hp]
    | false =>
      rw [hp] at hf
      split
      · rw [List.find?_cons_of_neg (Bool.eq_false_iff.1 hn)]
        exact hf
      · rw [List.find?_cons_of_neg (Bool.eq_false_iff.1 hp)]
        exact find?_replaceIn_of_ne hn ha hf

theorem replaceIn_of_none {old new : Node} {ns : List Node} (h : ∀ m ∈ ns, m.is old = false) :
    replaceIn old new ns = ns := by
  have hr : replaceIn old new (ns ++ []) = ns ++ replaceIn old new [] := replaceIn_append_right ns [] h
  rwa [List.append_nil, replaceIn, List.append_nil] at hr

theorem mem_replaceIn {old new m : Node} : ∀ {ns : List Node}, m ∈ replaceIn old new ns → m = new ∨ m ∈ ns
  | n :: ns, h => by
    rw [replaceIn] at h
    split at h
    · exact (List.mem_cons.1 h).imp_right (List.mem_cons_of_mem _)
    · rcases List.mem_cons.1 h with rfl | h
      · exact Or.inr List.mem_cons_self
      · exact (mem_replaceIn h).imp_right (List.mem_cons_of_mem _)

theorem filter_replaceIn {old new : Node} (q : Node → Bool) : ∀ (ns : List Node), (∀ m ∈ ns, m.is old = true → q m = q new) →
    (replaceIn old new ns).filter q = if q new then replaceIn old new (ns.filter q) else ns.filter q
  | [], _ => by cases q new <;> rfl
  | a :: ns, h => by
    have ih := filter_replaceIn q ns (fun m hm => h m (List.mem_cons_of_mem _ hm))
    rw [replaceIn]
    by_cases ha : a.is old = true
    · have hq := h a List.mem_cons_self ha
      rw [if_pos ha, List.filter_cons, List.filter_cons, hq]
      cases q new
      · rfl
      · rw [if_pos rfl, if_pos rfl, if_pos rfl, replaceIn, if_pos ha]
    · rw [if_neg ha, List.filter_cons, List.filter_cons, ih]
      cases q a <;> cases q new <;> simp [replaceIn, ha]

/-! ## Taken away -/

theorem removeFrom_of_none {old : Node} {ns : List Node} (h : ∀ m ∈ ns, m.is old = false) : removeFrom old ns = ns :=
  List.filter_eq_self.2 (fun m hm => by rw [h m hm]; rfl)

theorem removeFrom_append (old : Node) (A B : List Node) :
    removeFrom old (A ++ B) = removeFrom old A ++ removeFrom old B := List.filter_append ..

theorem removeFrom_cut {old : Node} {A B : List Node} (hA : ∀ m ∈ A, m.is old = false)
    (hB : ∀ m ∈ B, m.is old = false) : removeFrom old (A ++ old :: B) = A ++ B := by
  have ho : removeFrom old (old :: B) = removeFrom old B :=
    List.filter_cons_of_neg (by rw [(is_iff old old).2 rfl]; decide)
  rw [removeFrom_append, removeFrom_of_none hA, ho, removeFrom_of_none hB]

theorem removeFrom_middle {A C B : List Node} (h : Distinct (A ++ C ++ B)) {old : Node} (ho : old ∈ C) :
    removeFrom old (A ++ C ++ B) = A ++ removeFrom old C ++ B := by
  obtain ⟨hA, hB⟩ := h.not_around ho
  rw [removeFrom_append, removeFrom_append, removeFrom_of_none hA, removeFrom_of_none hB]

theorem removeFrom_perm {ns : List Node} (h : Distinct ns) {old : Node} (ho : old ∈ ns) :
    (old :: removeFrom old ns).Perm ns := by
  obtain ⟨A, B, rfl, hA, hB⟩ := distinct_cut h ho
  rw [removeFrom_cut hA hB]
  exact List.perm_middle.symm

theorem mem_removeFrom {old m : Node} {ns : List Node} : m ∈ removeFrom old ns ↔ m ∈ ns ∧ m.is old = false := by
  simp [removeFrom]

/-! ## By precedence -/

/-- **Between the nodes not below it and the nodes below it**: where a node goes. -/
theorem placeIn_cut {n : Node} : ∀ (A B : List Node), (∀ m ∈ A, n.rule.bucket ≤ m.rule.bucket) →
    (∀ m ∈ B, m.rule.bucket < n.rule.bucket) → placeIn n (A ++ B) = A ++ n :: B
  | [], [], _, _ => rfl
  | [], b :: B, _, hB => by
    have hany : (b :: B).any (fun x => n.rule.bucket ≤ x.rule.bucket) = false :=
      List.any_eq_false.2 (fun m hm => by simpa using hB m hm)
    rw [List.nil_append, placeIn, hany]
    rfl
  | a :: A, B, hA, hB => by
    have hany : (a :: (A ++ B)).any (fun x => n.rule.bucket ≤ x.rule.bucket) = true :=
      List.any_eq_true.2 ⟨a, List.mem_cons_self, by simpa using hA a List.mem_cons_self⟩
    rw [List.cons_append, placeIn, hany, if_pos rfl,
      placeIn_cut A B (fun m hm => hA m (List.mem_cons_of_mem _ hm)) hB, List.cons_append]

theorem placeIn_perm (n : Node) : ∀ (ns : List Node), (placeIn n ns).Perm (n :: ns)
  | [] => List.Perm.refl _
  | m :: ms => by
    rw [placeIn]
    split
    · exact ((placeIn_perm n ms).cons m).trans (List.Perm.swap _ _ _)
    · exact List.Perm.refl _

theorem filter_placeIn_of_neg {p : Node → Bool} {n : Node} (hn : p n = false) : ∀ (ns : List Node),
    (placeIn n ns).filter p = ns.filter p
  | [] => List.filter_cons_of_neg (Bool.eq_false_iff.1 hn)
  | m :: ms => by
    rw [placeIn]
    split
    · rw [List.filter_cons, List.filter_cons, filter_placeIn_of_neg hn ms]
    · exact List.filter_cons_of_neg (Bool.eq_false_iff.1 hn)

/-- It comes behind the nodes of a kind of no lower precedence. -/
theorem filter_placeIn_of_pos {p : Node → Bool} {n : Node} (hn : p n = true)
    (hp : ∀ m, p m = true → n.rule.bucket ≤ m.rule.bucket) : ∀ (ns : List Node), (placeIn n ns).filter p = ns.filter p ++ [n]
  | [] => List.filter_cons_of_pos hn
  | m :: ms => by
    rw [placeIn]
    split
    · rw [List.filter_cons, List.filter_cons, filter_placeIn_of_pos hn hp ms]
      cases p m <;> rfl
    · rename_i hany
      have hnone : (m :: ms).filter p = [] := List.filter_eq_nil_iff.2 fun x hx hpx =>
        hany (List.any_eq_true.2 ⟨x, hx, decide_eq_true (hp x hpx)⟩)
      rw [List.filter_cons_of_pos hn, hnone]
      rfl

section Order

variable {R : Node → Node → Prop}

/-- **A node placed among nodes in order**: an order that descends in precedence outlives it where it holds between the
node and those on either side of it. -/
theorem pairwise_placeIn (hR : ∀ {a b}, R a b → b.rule.bucket ≤ a.rule.bucket) {n : Node} : ∀ {ns : List Node},
    ns.Pairwise R → (∀ m ∈ ns, n.rule.bucket ≤ m.rule.bucket → R m n) → (∀ m ∈ ns, m.rule.bucket < n.rule.bucket → R n m) →
    (placeIn n ns).Pairwise R
  | [], _, _, _ => List.pairwise_singleton R n
  | m :: ms, hns, hbefore, hbehind => by
    obtain ⟨hm, hms⟩ := List.pairwise_cons.1 hns
    rw [placeIn]
    split
    · rename_i hany
      have hle : n.rule.bucket ≤ m.rule.bucket := by
        obtain ⟨x, hx, hnx⟩ := List.any_eq_true.1 hany
        rcases List.mem_cons.1 hx with rfl | hx
        · exact of_decide_eq_true hnx
        · exact Fin.le_trans (of_decide_eq_true hnx) (hR (hm x hx))
      refine List.pairwise_cons.2 ⟨fun x hx => ?_, pairwise_placeIn hR hms
        (fun x hx => hbefore x (List.mem_cons_of_mem m hx)) (fun x hx => hbehind x (List.mem_cons_of_mem m hx))⟩
      rcases List.mem_cons.1 ((placeIn_perm n ms).subset hx) with rfl | hx
      · exact hbefore m List.mem_cons_self hle
      · exact hm x hx
    · rename_i hany
      refine List.pairwise_cons.2 ⟨fun x hx => hbehind x hx (Fin.not_le.1 fun hle => hany ?_), hns⟩
      exact List.any_eq_true.2 ⟨x, hx, decide_eq_true hle⟩

theorem pairwise_slot {old new : Node} (hl : ∀ m, R m old → R m new) (hr : ∀ m, R old m → R new m) {A B : List Node}
    (h : (A ++ old :: B).Pairwise R) : (A ++ new :: B).Pairwise R := by
  rw [List.pairwise_append, List.pairwise_cons] at h ⊢
  obtain ⟨hA, ⟨hold, hB⟩, hAB⟩ := h
  refine ⟨hA, ⟨fun m hm => hr m (hold m hm), hB⟩, fun a ha m hm => ?_⟩
  rcases List.mem_cons.1 hm with rfl | hm
  · exact hl a (hAB a ha old List.mem_cons_self)
  · exact hAB a ha m (List.mem_cons_of_mem old hm)

end Order

end Node
end TrafficRules
