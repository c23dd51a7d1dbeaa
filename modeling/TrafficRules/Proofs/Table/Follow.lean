import Mathlib.Data.List.DropRight
import TrafficRules.Proofs.Table.Identity
/-!
# Follow — the rules of the id-keyed families from the events alone

A follower keeps a list of rules and changes it as the events say, by family, id and precedence, without a look at the
table (`Event.follow`).  What an addition or a deletion announces leads a follower from the id-keyed rules before it to
those after it, in their order (`followable_add`, `followable_delete`); a flush that takes nothing away needs no event.
-/
namespace TrafficRules

/-- Rules of one family and one id. -/
def Rule.sameName (a b : Rule) : Bool := a.classifier == b.classifier && a.id == b.id

/-- Puts a rule behind the last one whose precedence is not below its own. -/
def Rule.placeIn (r : Rule) (rules : List Rule) : List Rule :=
  rules.rdropWhile (·.precedence < r.precedence) ++ r :: rules.rtakeWhile (·.precedence < r.precedence)

/-- What a follower makes of an event; those of flow-keyed rules it leaves out. -/
def Event.follow (rules : List Rule) (event : Event) : List Rule :=
  if event.rule.classifier.isFlowKeyed then rules
  else match event.kind with
    | .added => event.rule.placeIn rules
    | .modified =>
      if (rules.find? (·.sameName event.rule)).any (·.precedence == event.rule.precedence) then
        rules.map fun r => if r.sameName event.rule then event.rule else r
      else event.rule.placeIn (rules.filter (!·.sameName event.rule))
    | .removed => rules.filter (!·.sameName event.rule)

theorem Rule.sameName_iff {a b : Rule} : a.sameName b = true ↔ a.classifier = b.classifier ∧ a.id = b.id := by
  simp [Rule.sameName]

theorem Rule.sameName_congr {a b : Rule} (h : a.sameName b = true) (x : Rule) : x.sameName a = x.sameName b := by
  obtain ⟨hc, hi⟩ := sameName_iff.1 h
  unfold sameName
  rw [hc, hi]

theorem Rule.map_cut {r old : Rule} {A B : List Rule} (hold : old.sameName r = true) (hA : ∀ x ∈ A, x.sameName r = false)
    (hB : ∀ x ∈ B, x.sameName r = false) : ((A ++ old :: B).map fun x => if x.sameName r then r else x) = A ++ r :: B := by
  have hmap : ∀ L : List Rule, (∀ x ∈ L, x.sameName r = false) → (L.map fun x => if x.sameName r then r else x) = L :=
    fun L hL => (List.map_congr_left fun x hx => by simp [hL x hx]).trans (List.map_id' L)
  rw [List.map_append, List.map_cons, hmap A hA, hmap B hB, if_pos hold]

theorem Rule.placeIn_cut {r : Rule} {A B : List Rule} (hA : ∀ a ∈ A, r.precedence ≤ a.precedence)
    (hB : ∀ b ∈ B, b.precedence < r.precedence) : r.placeIn (A ++ B) = A ++ r :: B := by
  have hback : ∀ b ∈ B.reverse, decide (b.precedence < r.precedence) = true :=
    fun b hb => decide_eq_true (hB b (List.mem_reverse.1 hb))
  have hfront : ∀ (hne : A ≠ []), ¬ decide ((A.getLast hne).precedence < r.precedence) = true := fun hne h =>
    UInt8.not_lt.2 (hA _ (List.getLast_mem hne)) (of_decide_eq_true h)
  have hdrop : (A ++ B).rdropWhile (·.precedence < r.precedence) = A := by
    rw [List.rdropWhile, List.reverse_append, List.dropWhile_append_of_pos hback]
    exact List.rdropWhile_eq_self_iff.2 hfront
  have htake : (A ++ B).rtakeWhile (·.precedence < r.precedence) = B := by
    have hnone : A.reverse.takeWhile (·.precedence < r.precedence) = [] :=
      List.reverse_eq_nil_iff.1 (List.rtakeWhile_eq_nil_iff.2 hfront)
    rw [List.rtakeWhile, List.reverse_append, List.takeWhile_append_of_pos hback, hnone, List.append_nil,
      List.reverse_reverse]
  rw [placeIn, hdrop, htake]

namespace Event

variable {event : Event} {A B : List Rule} {old : Rule}

section Cut

variable (hold : old.sameName event.rule = true)
  (hA : ∀ r ∈ A, r.sameName event.rule = false) (hB : ∀ r ∈ B, r.sameName event.rule = false)
include hold hA hB

theorem filter_cut : (A ++ old :: B).filter (!·.sameName event.rule) = A ++ B := by
  rw [List.filter_append, List.filter_cons_of_neg (by simp [hold]), List.filter_eq_self.2 (by simpa using hA),
    List.filter_eq_self.2 (by simpa using hB)]

theorem follow_removed (hid : event.rule.classifier.isFlowKeyed = false) (hk : event.kind = .removed) :
    event.follow (A ++ old :: B) = A ++ B := by
  unfold follow
  rw [if_neg (by simp [hid]), hk]
  exact filter_cut hold hA hB

theorem follow_modified (hid : event.rule.classifier.isFlowKeyed = false) (hk : event.kind = .modified) :
    event.follow (A ++ old :: B) =
      if old.precedence = event.rule.precedence then A ++ event.rule :: B else event.rule.placeIn (A ++ B) := by
  have hfind : (A ++ old :: B).find? (·.sameName event.rule) = some old := by
    have hnone : A.find? (·.sameName event.rule) = none := List.find?_eq_none.2 fun r hr => by simp [hA r hr]
    rw [List.find?_append, hnone, Option.none_or, List.find?_cons, hold]
  unfold follow
  rw [if_neg (by simp [hid]), hk, hfind]
  by_cases hp : old.precedence = event.rule.precedence
  · simp only [Option.any_some, hp, beq_self_eq_true, if_true]
    rw [Rule.map_cut hold hA hB]
  · simp only [Option.any_some, beq_iff_eq, hp, if_false]
    rw [filter_cut hold hA hB]

end Cut

end Event

/-! ## What stands in a table -/

namespace Node

/-- The rules of the families named by id, in the order of their nodes. -/
def idRules (ns : List Node) : List Rule := (ns.map (·.rule)).filter (!·.classifier.isFlowKeyed)

theorem idRules_append (A B : List Node) : idRules (A ++ B) = idRules A ++ idRules B := by
  unfold idRules
  rw [List.map_append, List.filter_append]

theorem idRules_cons_id {n : Node} (h : n.rule.classifier.isFlowKeyed = false) (ns : List Node) :
    idRules (n :: ns) = n.rule :: idRules ns := by
  unfold idRules
  rw [List.map_cons, List.filter_cons_of_pos (by simp [h])]

theorem idRules_cons_flow {n : Node} (h : n.rule.classifier.isFlowKeyed = true) (ns : List Node) :
    idRules (n :: ns) = idRules ns := by
  unfold idRules
  rw [List.map_cons, List.filter_cons_of_neg (by simp [h])]

theorem mem_idRules {ns : List Node} {r : Rule} (h : r ∈ idRules ns) : ∃ n ∈ ns, n.rule = r :=
  List.mem_map.1 (List.mem_filter.1 h).1

end Node

/-- **A node placed among nodes of a store** is placed among their rules, or leaves the id-keyed ones as they are. -/
theorem Store.Ranked.idRules_placeIn {s : Store} (h : s.Ranked) {n : Node}
    (hn : n.rule.precedence.toNat = n.rule.bucket.val) {L : List Node} (hL : L.Sublist s.nodes) :
    Node.idRules (Node.placeIn n L) =
      if n.rule.classifier.isFlowKeyed then Node.idRules L else n.rule.placeIn (Node.idRules L) := by
  rw [nodes_around s n.rule.bucket] at hL
  obtain ⟨A, B, rfl, hA, hB⟩ := List.sublist_append_iff.1 hL
  have hmem : ∀ m ∈ s.above n.rule.bucket ++ s.buckets.get n.rule.bucket ++ s.below n.rule.bucket, m ∈ s.nodes := fun m hm => by
    rwa [nodes_around s n.rule.bucket]
  rw [Node.placeIn_cut A B (fun m hm => h.not_below (hA.subset hm)) (fun m hm => h.below (hB.subset hm)),
    Node.idRules_append, Node.idRules_append]
  cases hc : n.rule.classifier.isFlowKeyed with
  | true => rw [Node.idRules_cons_flow hc, if_pos rfl]
  | false =>
    rw [Node.idRules_cons_id hc, if_neg (by simp), Rule.placeIn_cut]
    · intro r hr
      obtain ⟨m, hm, rfl⟩ := Node.mem_idRules hr
      exact (h.precedence_le_iff (hmem m (List.mem_append_left _ (hA.subset hm))) hn).2 (h.not_below (hA.subset hm))
    · intro r hr
      obtain ⟨m, hm, rfl⟩ := Node.mem_idRules hr
      refine UInt8.not_le.1 (mt (h.precedence_le_iff (hmem m (List.mem_append_right _ (hB.subset hm))) hn).1 ?_)
      exact Fin.not_le.2 (h.below (hB.subset hm))

namespace Table

/-- The stored rules of the families named by id, in evaluation order. -/
def idRules (t : Table) : List Rule := t.rules.filter (!·.classifier.isFlowKeyed)

theorem idRules_eq (t : Table) : t.idRules = Node.idRules t.store.nodes := rfl

/-- **Around a node of an id-keyed family** no rule has its name. -/
theorem Reachable.unnamed_around {t : Table} (h : Reachable t) {A B : List Node} {old : Node}
    (hcut : t.store.nodes = A ++ old :: B) (hc : old.rule.classifier.isFlowKeyed = false) :
    (∀ m ∈ A, m.rule.sameName old.rule = false) ∧ ∀ m ∈ B, m.rule.sameName old.rule = false := by
  have hone := countP_names_le_one h hc old.rule.id
  have hself : (Selector.id old.rule.id).names old.rule.classifier old = true := names_id_iff.2 ⟨rfl, rfl⟩
  rw [hcut, List.countP_append, List.countP_cons_of_pos hself] at hone
  have hnone : ∀ L : List Node, L.countP ((Selector.id old.rule.id).names old.rule.classifier) = 0 →
      ∀ m ∈ L, m.rule.sameName old.rule = false := fun L hL m hm =>
    Bool.eq_false_iff.2 fun hs => List.countP_eq_zero.1 hL m hm (names_id_iff.2 (Rule.sameName_iff.1 hs))
  exact ⟨hnone A (by omega), hnone B (by omega)⟩

/-- **Cut at a node of an id-keyed family.** -/
theorem Reachable.idRules_cut {t : Table} (h : Reachable t) {old : Node} (ho : old ∈ t.store.nodes)
    (hc : old.rule.classifier.isFlowKeyed = false) : ∃ A B, t.store.nodes = A ++ old :: B ∧
      (∀ m ∈ A, m.is old = false) ∧ (∀ m ∈ B, m.is old = false) ∧
      (∀ r ∈ Node.idRules A, r.sameName old.rule = false) ∧ ∀ r ∈ Node.idRules B, r.sameName old.rule = false := by
  obtain ⟨A, B, hcut, hA, hB⟩ := Node.distinct_cut h.valid.store.distinct ho
  obtain ⟨hbefore, hbehind⟩ := h.unnamed_around hcut hc
  refine ⟨A, B, hcut, hA, hB, fun r hr => ?_, fun r hr => ?_⟩
  · obtain ⟨m, hm, rfl⟩ := Node.mem_idRules hr
    exact hbefore m hm
  · obtain ⟨m, hm, rfl⟩ := Node.mem_idRules hr
    exact hbehind m hm

/-! ## One change -/

theorem event_of_accepted {t : Table} {r : Rule} {o : Outcome} (ho : (t.add r).result = .ok o) : (t.add r).event =
    some ⟨if (t.store.findSame (t.incoming r)).isSome then .modified else .added, (t.incoming r).rule, (t.incoming r).key⟩ := by
  rw [add_eq] at ho ⊢
  rcases hadm : admission t.config t.plugins t.size r with ⟨_ | e, calls⟩
  · unfold install incoming
    dsimp only
    cases t.store.findSame (Node.ofRule t.nextSerial r) <;> rfl
  · rw [hadm] at ho
    cases ho

theorem event_of_deleted {t : Table} {sel : Selector} {c : Classifier} {n : Node} (hf : t.store.find sel c = some n)
    {o : Outcome} (ho : (t.delete sel c).result = .ok o) :
    (t.delete sel c).event = if c.isFlowKeyed then none else some ⟨.removed, n.rule, n.key⟩ := by
  rw [delete_eq] at ho ⊢
  split at ho
  · cases ho
  · rename_i hne
    rw [if_neg hne, hf]

theorem event_of_flushed (t : Table) (c : Option Classifier) : (t.flush c).event = none := by
  unfold flush
  split <;> rfl

theorem classifier_of_findSame {t : Table} (h : Reachable t) {r : Rule} {old : Node}
    (hf : t.store.findSame (t.incoming r) = some old) : old.rule.classifier = r.classifier :=
  ((Node.sameIdentity_iff old (t.incoming r)).1 (h.valid.store.of_findSame hf).2.2).1

/-- **A rule put into the store**, as a follower is told of it. -/
theorem idRules_put {t : Table} (h : Reachable t) (r : Rule) : Node.idRules (t.store.put (t.incoming r)).nodes =
    Event.follow t.idRules ⟨if (t.store.findSame (t.incoming r)).isSome then .modified else .added, (t.incoming r).rule,
      (t.incoming r).key⟩ := by
  have hranked := h.valid.store.ranked
  have hprec : (t.incoming r).rule.precedence.toNat = (t.incoming r).rule.bucket.val := Node.precedence_ofRule _ r
  rw [idRules_eq]
  cases hf : t.store.findSame (t.incoming r) with
  | none =>
    unfold Store.put Event.follow
    rw [hf]
    show Node.idRules (t.store.insert (t.incoming r)).nodes = _
    rw [h.valid.store.nodes_insert, hranked.idRules_placeIn hprec (List.Sublist.refl _)]
    rfl
  | some old =>
    have ho := (h.valid.store.of_findSame hf).1
    have hclass : old.rule.classifier = (t.incoming r).rule.classifier := classifier_of_findSame h hf
    have hplace : Node.idRules (Node.placeIn (t.incoming r) (Node.removeFrom old t.store.nodes)) = _ :=
      hranked.idRules_placeIn hprec List.filter_sublist
    unfold Store.put
    rw [hf]
    show Node.idRules (t.store.replace old (t.incoming r)).nodes = _
    rw [h.valid.store.nodes_replace ho]
    cases hc : (t.incoming r).rule.classifier.isFlowKeyed with
    | true =>
      -- neither the rule nor the one it replaces is among the id-keyed ones
      obtain ⟨A, B, hcut, hA, hB⟩ := Node.distinct_cut h.valid.store.distinct ho
      have hco : old.rule.classifier.isFlowKeyed = true := by rw [hclass, hc]
      unfold Event.follow
      rw [if_pos hc]
      rw [hcut] at hplace ⊢
      split
      · rw [Node.replaceIn_cut _ A B hA, Node.idRules_append, Node.idRules_append, Node.idRules_cons_flow hc,
          Node.idRules_cons_flow hco]
      · rw [hplace, if_pos hc, Node.removeFrom_cut hA hB, Node.idRules_append, Node.idRules_append, Node.idRules_cons_flow hco]
    | false =>
      have hco : old.rule.classifier.isFlowKeyed = false := by rw [hclass, hc]
      have hname : old.rule.sameName (t.incoming r).rule = true := Rule.sameName_iff.2 (named_of_findSame h hf hc)
      have hother := Rule.sameName_congr hname
      obtain ⟨A, B, hcut, hA, hB, hrA, hrB⟩ := h.idRules_cut ho hco
      have hbucket : old.rule.bucket = (t.incoming r).rule.bucket ↔ old.rule.precedence = (t.incoming r).rule.precedence := by
        rw [← Fin.val_inj, ← hprec, ← hranked.precedence_eq ho, UInt8.toNat_inj]
      rw [hcut] at hplace ⊢
      rw [Node.idRules_append, Node.idRules_cons_id hco, Event.follow_modified hname (fun x hx => hother x ▸ hrA x hx)
        (fun x hx => hother x ▸ hrB x hx) hc rfl]
      by_cases hb : old.rule.bucket = (t.incoming r).rule.bucket
      · rw [if_pos hb, if_pos (hbucket.1 hb), Node.replaceIn_cut _ A B hA, Node.idRules_append, Node.idRules_cons_id hc]
      · rw [if_neg hb, if_neg (mt hbucket.2 hb), hplace, if_neg (by simp [hc]), Node.removeFrom_cut hA hB,
          Node.idRules_append]

/-- What a change announces leads a follower to the id-keyed rules after it. -/
def Followable {α : Type} (change : Table → Transition α) (t : Table) : Prop :=
  (change t).table.idRules = (change t).event.toList.foldl Event.follow t.idRules

/-- **A follower keeps up with an addition.** -/
theorem followable_add {t : Table} (h : Reachable t) (r : Rule) : Followable (·.add r) t := by
  unfold Followable
  cases hres : (t.add r).result with
  | error err =>
    obtain ⟨htable, hevent⟩ := (IsChange.add r).of_error hres
    rw [htable, hevent]
    rfl
  | ok o =>
    rw [event_of_accepted hres, idRules_eq, store_of_accepted hres, idRules_put h r]
    rfl

/-- **A follower keeps up with a deletion.** -/
theorem followable_delete {t : Table} (h : Reachable t) (sel : Selector) (c : Classifier) :
    Followable (·.delete sel c) t := by
  unfold Followable
  rcases t.delete_cases sel c with ⟨err, hres, -⟩ | ⟨n, hf, hres, -⟩
  · obtain ⟨htable, hevent⟩ := (IsChange.delete sel c).of_error hres
    rw [htable, hevent]
    rfl
  · obtain ⟨hn, hname⟩ := h.valid.store.of_find hf
    have hclass : n.rule.classifier = c := Node.classifier_of_names hname
    obtain ⟨-, hnodes, -⟩ := delete_of_found h.valid hf
    rw [event_of_deleted hf hres, idRules_eq, idRules_eq, hnodes]
    cases hc : c.isFlowKeyed with
    | true =>
      obtain ⟨A, B, hcut, hA, hB⟩ := Node.distinct_cut h.valid.store.distinct hn
      rw [hcut, Node.removeFrom_cut hA hB, Node.idRules_append, Node.idRules_append,
        Node.idRules_cons_flow (by rw [hclass, hc])]
      rfl
    | false =>
      obtain ⟨A, B, hcut, hA, hB, hrA, hrB⟩ := h.idRules_cut hn (by rw [hclass, hc])
      have hself : n.rule.sameName n.rule = true := Rule.sameName_iff.2 ⟨rfl, rfl⟩
      have hfollow : Event.follow (Node.idRules A ++ n.rule :: Node.idRules B) ⟨.removed, n.rule, n.key⟩ =
          Node.idRules A ++ Node.idRules B :=
        Event.follow_removed hself hrA hrB (by rw [hclass, hc]) rfl
      rw [hcut, Node.removeFrom_cut hA hB, Node.idRules_append, Node.idRules_append, Node.idRules_cons_id (by rw [hclass, hc])]
      exact hfollow.symm

/-- **A flush that takes nothing away** leaves a follower nothing to do. -/
theorem followable_flush {t : Table} (h : Reachable t) {c : Option Classifier} (hz : (t.flush c).result = .ok 0) :
    Followable (·.flush c) t := by
  unfold Followable
  rw [event_of_flushed]
  show (t.flush c).table.idRules = t.idRules
  rcases t.flush_cases c with ⟨-, -, htable⟩ | ⟨hres, hs, -⟩
  · rw [htable]
  · obtain ⟨hnodes, -, hcount, hv⟩ := h.valid.store.removeFamily c
    have hzero : (t.store.removeFamily c).2 = 0 := Except.ok.inj (hres.symm.trans hz)
    -- as many nodes are left as there were
    have hsame : (t.store.removeFamily c).1.nodes = t.store.nodes := by
      rw [hnodes]
      refine List.Sublist.eq_of_length List.filter_sublist ?_
      rw [← hnodes, ← hv.count, ← h.valid.store.count]
      omega
    rw [idRules_eq, idRules_eq, hs, hsame]

end Table

end TrafficRules
