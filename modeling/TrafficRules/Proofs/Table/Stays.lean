import TrafficRules.Proofs.Table.Identity
/-!
# Stays — since when a rule has its precedence

What the calls of a run show tells since when the rule of a family and an id has had its precedence: since it was added
or last modified to another one (`Stays.next`).  After any run every stored rule of a family named by id is at the
precedence of its stay, and evaluation order descends in precedence and, within one, goes from the longest stay to the
shortest (`run_chronological`).
-/
namespace TrafficRules

/-- A rule's time at one precedence. -/
structure Stay where
  precedence : Fin Rule.precedenceCount
  /-- The number of the call that began it. -/
  since : Nat

/-- The last stay of each family and id. -/
abbrev Stays := Classifier → UInt32 → Option Stay

namespace Stays

/-- The stay a rule has once it is added: one modified at its precedence goes on with its own, any other begins one. -/
def begun (r : Rule) (now : Nat) : Outcome → Option Stay → Stay
  | .modified _, some stay => if stay.precedence = r.bucket then stay else ⟨r.bucket, now⟩
  | _, _ => ⟨r.bucket, now⟩

/-- The stays after one more call, from what it showed. -/
def next (stays : Stays) (now : Nat) (x : Shown) : Stays := fun c i =>
  match x.call, x.answer with
  | .add r, .changed (.ok o) => if r.classifier = c ∧ r.id = i then some (begun r now o (stays c i)) else stays c i
  | _, _ => stays c i

/-- The stays after the calls that showed this, numbered from `now`. -/
def after : List Shown → Nat → Stays → Stays
  | [], _, stays => stays
  | x :: log, now, stays => after log (now + 1) (stays.next now x)

/-- The stays told by the calls of a run. -/
def ofLog (log : List Shown) : Stays := after log 0 fun _ _ => none

/-- The stay of a node's rule. -/
def of (stays : Stays) (n : Node) : Option Stay := stays n.rule.classifier n.rule.id

/-- A node goes before another: it is of higher precedence, or of the same and there for longer.  Flow-keyed rules may
share an id, and go before each other within a precedence either way. -/
def Precede (stays : Stays) (a b : Node) : Prop :=
  b.rule.bucket < a.rule.bucket ∨ b.rule.bucket = a.rule.bucket ∧
    (a.rule.classifier.isFlowKeyed = false → b.rule.classifier.isFlowKeyed = false →
      ∃ k l, stays.of a = some ⟨a.rule.bucket, k⟩ ∧ stays.of b = some ⟨b.rule.bucket, l⟩ ∧ k < l)

theorem Precede.le {stays : Stays} {a b : Node} (h : stays.Precede a b) : b.rule.bucket ≤ a.rule.bucket :=
  h.elim Fin.le_of_lt (fun h => Fin.le_of_eq h.1)

theorem next_of_not_adds {stays : Stays} {now : Nat} {x : Shown} {c : Classifier} {i : UInt32} (hx : ¬ x.Adds c i) :
    stays.next now x c i = stays c i := by
  unfold next
  split
  · rename_i r o hcall hanswer
    exact if_neg (fun h => hx ⟨r, o, hcall, hanswer, h⟩)
  · rfl

theorem next_of_other {stays : Stays} {now : Nat} {x : Shown} {r : Rule} (hcall : x.call = .add r) {m : Node}
    (hm : ¬ (m.rule.classifier = r.classifier ∧ m.rule.id = r.id)) : (stays.next now x).of m = stays.of m := by
  refine next_of_not_adds ?_
  rintro ⟨r', -, hcall', -, hc, hi⟩
  obtain rfl : r = r' := Call.add.inj (hcall.symm.trans hcall')
  exact hm ⟨hc.symm, hi.symm⟩

theorem next_of_added {stays : Stays} {now : Nat} {x : Shown} {r : Rule} {o : Outcome} (hcall : x.call = .add r)
    (hanswer : x.answer = .changed (.ok o)) :
    stays.next now x r.classifier r.id = some (begun r now o (stays r.classifier r.id)) := by
  unfold next
  rw [hcall, hanswer]
  exact if_pos ⟨rfl, rfl⟩

/-- Every node of a family named by id is at the precedence of its stay, and the nodes go in the order of precedence and
of their stays. -/
structure Chronological (now : Nat) (stays : Stays) (ns : List Node) : Prop where
  stored : ∀ n ∈ ns, n.rule.classifier.isFlowKeyed = false → ∃ k < now, stays.of n = some ⟨n.rule.bucket, k⟩
  ordered : ns.Pairwise stays.Precede

namespace Chronological

variable {now : Nat} {stays stays' : Stays} {ns ms : List Node}

theorem nil : Chronological now stays [] := ⟨fun _ hn => (List.not_mem_nil hn).elim, List.Pairwise.nil⟩

theorem later (h : Chronological now stays ns) : Chronological (now + 1) stays ns := by
  refine ⟨fun n hn hc => ?_, h.ordered⟩
  obtain ⟨k, hk, hstay⟩ := h.stored n hn hc
  exact ⟨k, Nat.lt_succ_of_lt hk, hstay⟩

theorem sublist (h : Chronological now stays ns) (hs : ms.Sublist ns) : Chronological now stays ms :=
  ⟨fun n hn => h.stored n (hs.subset hn), h.ordered.sublist hs⟩

theorem congr (h : Chronological now stays ns)
    (he : ∀ n ∈ ns, n.rule.classifier.isFlowKeyed = false → stays'.of n = stays.of n) : Chronological now stays' ns := by
  refine ⟨fun n hn hc => he n hn hc ▸ h.stored n hn hc, h.ordered.imp_of_mem (fun {a b} ha hb hab => ?_)⟩
  refine hab.imp_right (And.imp_right fun hk hac hbc => ?_)
  rw [he a ha hac, he b hb hbc]
  exact hk hac hbc

/-- A node that begins its stay comes behind those of its precedence. -/
theorem place (h : Chronological now stays ns) {n : Node}
    (hn : n.rule.classifier.isFlowKeyed = false → stays.of n = some ⟨n.rule.bucket, now⟩) :
    Chronological (now + 1) stays (Node.placeIn n ns) := by
  constructor
  · intro m hm hc
    rcases List.mem_cons.1 ((Node.placeIn_perm n ns).subset hm) with rfl | hm
    · exact ⟨now, Nat.lt_succ_self now, hn hc⟩
    · exact h.later.stored m hm hc
  · refine Node.pairwise_placeIn Precede.le h.ordered (fun m hm hle => ?_) (fun m _ hlt => Or.inl hlt)
    rcases Fin.lt_or_eq_of_le hle with hlt | heq
    · exact Or.inl hlt
    · refine Or.inr ⟨heq, fun hmc hnc => ?_⟩
      obtain ⟨k, hk, hstay⟩ := h.stored m hm hmc
      exact ⟨k, now, hstay, hn hnc, hk⟩

/-- A node takes the slot of one of its precedence and name. -/
theorem slot {A B : List Node} {old n : Node} (h : Chronological now stays (A ++ old :: B))
    (hb : old.rule.bucket = n.rule.bucket) (hc : old.rule.classifier = n.rule.classifier)
    (hi : n.rule.classifier.isFlowKeyed = false → old.rule.id = n.rule.id) :
    Chronological now stays (A ++ n :: B) := by
  have hof : n.rule.classifier.isFlowKeyed = false → stays.of old = stays.of n := fun hn => by
    unfold of
    rw [hc, hi hn]
  constructor
  · intro m hm hmc
    rcases List.mem_append.1 hm with hm | hm
    · exact h.stored m (List.mem_append_left _ hm) hmc
    rcases List.mem_cons.1 hm with rfl | hm
    · rw [← hof hmc, ← hb]
      exact h.stored old (List.mem_append_right _ List.mem_cons_self) (by rw [hc]; exact hmc)
    · exact h.stored m (List.mem_append_right _ (List.mem_cons_of_mem _ hm)) hmc
  · refine Node.pairwise_slot (fun m hm => ?_) (fun m hm => ?_) h.ordered
    · unfold Precede at hm ⊢
      rw [hb, hc] at hm
      exact hm.imp_right (And.imp_right fun hk hmc hnc => hof hnc ▸ hk hmc hnc)
    · unfold Precede at hm ⊢
      rw [hb, hc] at hm
      exact hm.imp_right (And.imp_right fun hk hnc hmc => hof hnc ▸ hk hnc hmc)

end Chronological
end Stays

namespace Table

open Stays

variable {now : Nat} {stays : Stays} {t : Table}

section Added

variable {x : Shown} {r : Rule} {o : Outcome} (h : Chronological now stays t.store.nodes) (ht : Reachable t)
  (hcall : x.call = .add r) (hanswer : x.answer = .changed (.ok o)) (ho : (t.add r).result = .ok o)
include h ht hcall hanswer ho

/-- **The stay of a rule that was added**: its own if it took the place of a rule of its precedence, else a new one. -/
theorem next_of_accepted (hc : r.classifier.isFlowKeyed = false) :
    (∀ old, t.store.findSame (t.incoming r) = some old → old.rule.bucket = r.bucket →
      stays.next now x r.classifier r.id = stays r.classifier r.id) ∧
    ((∀ old, t.store.findSame (t.incoming r) = some old → old.rule.bucket ≠ r.bucket) →
      stays.next now x r.classifier r.id = some ⟨r.bucket, now⟩) := by
  rw [next_of_added hcall hanswer]
  rcases add_outcome ho with ⟨hnone, key, rfl⟩ | ⟨old, hf, key, rfl⟩
  · rw [hnone]
    exact ⟨fun old hf => (Option.some_ne_none old hf.symm).elim, fun _ => rfl⟩
  · obtain ⟨hoc, hoi⟩ := named_of_findSame ht hf hc
    obtain ⟨k, -, hstay⟩ := h.stored old (ht.valid.store.of_findSame hf).1 (by rw [hoc]; exact hc)
    unfold Stays.of at hstay
    rw [hoc, hoi] at hstay
    rw [hstay, begun]
    refine ⟨fun old' hf' hb => ?_, fun hb => by rw [if_neg (hb old hf)]⟩
    obtain rfl : old = old' := Option.some.inj (hf.symm.trans hf')
    rw [if_pos hb]

theorem chronological_accepted : Chronological (now + 1) (stays.next now x) (t.add r).table.store.nodes := by
  have hs := store_of_accepted ho
  rcases ht.valid.store.nodes_put (t.incoming r) with ⟨old, A, B, hf, hb, hcut, hput⟩ | ⟨hf, L, hL, hput⟩
  · -- in the slot of a rule of its precedence it goes on with that one's stay, so no stay changes
    rw [hs, hput]
    rw [bucket_incoming] at hb
    have hsame : Chronological now (stays.next now x) (A ++ old :: B) := by
      rw [← hcut]
      refine h.congr (fun m hm hc => ?_)
      by_cases hname : m.rule.classifier = r.classifier ∧ m.rule.id = r.id
      · unfold Stays.of
        rw [hname.1] at hc ⊢
        rw [hname.2]
        exact (next_of_accepted h ht hcall hanswer ho hc).1 old hf hb
      · exact next_of_other hcall hname
    have hclass := ((Node.sameIdentity_iff _ _).1 (ht.valid.store.of_findSame hf).2.2).1
    exact (hsame.slot (hb.trans (bucket_incoming t r).symm) hclass (fun hc => (named_of_findSame ht hf hc).2)).later
  · -- placed anew it begins a stay, behind all those of its precedence
    have hmem : ∀ m ∈ L, m ∈ (t.add r).table.store.nodes := fun m hm => by
      rw [hs, hput]
      exact (Node.placeIn_perm _ L).mem_iff.2 (List.mem_cons_of_mem _ hm)
    have hkept : Chronological now (stays.next now x) L := (h.sublist hL).congr (fun m hm hc =>
      next_of_other hcall (not_named_of_kept ht ho (hL.subset hm) (hmem m hm) hc))
    rw [hs, hput]
    refine hkept.place (fun hc => ?_)
    rw [bucket_incoming] at hf ⊢
    exact (next_of_accepted h ht hcall hanswer ho hc).2 hf

end Added

/-- **A call keeps the nodes in the order of precedence and of their stays.** -/
theorem step_chronological (h : Chronological now stays t.store.nodes) (ht : Reachable t) (c : Call) :
    Chronological (now + 1) (stays.next now (t.step c).2) (t.step c).1.store.nodes := by
  have hkept : (∀ c' i, ¬ (t.step c).2.Adds c' i) → ∀ ms, ms.Sublist t.store.nodes →
      Chronological (now + 1) (stays.next now (t.step c).2) ms := fun hx ms hms =>
    (h.sublist hms).later.congr (fun m _ _ => next_of_not_adds (hx m.rule.classifier m.rule.id))
  rcases c.add_or_not with ⟨r, rfl⟩ | hc
  · rcases t.add_cases r with ⟨e, he, hsame⟩ | ⟨⟨o, ho⟩, -⟩
    · have hms : (t.step (.add r)).1.store.nodes.Sublist t.store.nodes := by
        show (t.add r).table.store.nodes.Sublist _
        rw [hsame]
      refine hkept ?_ _ hms
      rintro c' i ⟨r', o, -, hanswer, -⟩
      have hanswer : Answer.changed (t.add r).result = .changed (.ok o) := hanswer
      rw [he] at hanswer
      cases hanswer
    · exact chronological_accepted h ht rfl (congrArg Answer.changed ho) ho
  · obtain ⟨q, hnodes, -⟩ := step_filters ht c hc
    refine hkept ?_ _ (by rw [hnodes]; exact List.filter_sublist)
    rintro c' i ⟨r, -, hcall, -⟩
    exact hc r ((call_step t c).symm.trans hcall)

theorem chronological_after : ∀ (cs : List Call) {now : Nat} {stays : Stays} {t : Table}, Reachable t →
    Chronological now stays t.store.nodes →
    Chronological (now + cs.length) (after (run cs t).2 now stays) (run cs t).1.store.nodes
  | [], _, _, _, _, h => h
  | c :: cs, now, _, _, ht, h => by
    have hrun := chronological_after cs (step_reachable ht c) (step_chronological h ht c)
    rwa [Nat.add_assoc, Nat.add_comm 1] at hrun

/-- **After a run the stored rules go in the order of precedence and of the stays the run told.** -/
theorem run_chronological (config : TableConfig) (plugins : Plugins) (cs : List Call) :
    Chronological cs.length (ofLog (run cs { config, plugins }).2) (run cs { config, plugins }).1.store.nodes := by
  rw [← Nat.zero_add cs.length]
  refine chronological_after cs (.fresh config plugins) ?_
  show Chronological 0 _ Store.empty.nodes
  rw [Store.nodes_empty]
  exact .nil

end Table
end TrafficRules
