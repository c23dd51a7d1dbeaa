import TrafficRules.Proofs.Store.Find
import TrafficRules.Table
/-!
# Change — what each change of a table does

A change is refused and leaves the table as it is, or it has one effect on the store: an accepted rule is put in
(`Store.put`), a found node is removed, a flush spares the nodes of the other families.  Whether a rule is accepted
(`admission`) depends on the limit, the number of rules stored, the rule and the validator, not on what is stored.
-/
namespace TrafficRules

/-- Puts a node in the place of the stored node it stands for, or behind the others. -/
def Store.put (s : Store) (n : Node) : Store :=
  match s.findSame n with
  | some old => s.replace old n
  | none => s.insert n

theorem Rule.precedence_normalized (r : Rule) : r.normalized.precedence.toNat = r.bucket.val := by
  have hlt : r.bucket.val < 256 := Nat.lt_trans r.bucket.isLt (by decide)
  show (UInt8.ofNat r.bucket.val).toNat = r.bucket.val
  rw [UInt8.toNat_ofNat', Nat.mod_eq_of_lt hlt]

/-- A rule is stored as it is, with the precedence that counts as zero written so. -/
theorem Rule.normalized_eq (r : Rule) :
    r.normalized = { r with precedence := if r.precedence = 255 then 0 else r.precedence } := by
  have hp : UInt8.ofNat r.bucket.val = if r.precedence = 255 then 0 else r.precedence := by
    unfold bucket
    by_cases h : r.precedence = 255
    · rw [if_pos h, h]
      rfl
    · have hlt : r.precedence.toNat < precedenceCount := by
        have hlt : r.precedence.toNat < 256 := r.precedence.toNat_lt
        have hne : r.precedence.toNat ≠ 255 := fun he => h (UInt8.toNat_inj.1 he)
        show r.precedence.toNat < 255
        omega
      rw [if_neg h, dif_pos hlt]
      exact UInt8.ofNat_toNat
  unfold normalized
  rw [hp]

theorem Node.precedence_ofRule (k : Nat) (r : Rule) :
    (Node.ofRule k r).rule.precedence.toNat = (Node.ofRule k r).rule.bucket.val := by
  have hp := r.precedence_normalized
  show r.normalized.precedence.toNat = r.normalized.bucket.val
  rw [Store.bucket_eq_of_precedence hp, hp]

namespace Store.Valid

variable {s : Store} (h : Valid s) {n : Node}
include h

/-- **One node comes, and the one it stands for goes.** -/
theorem put_perm (n : Node) : ((s.findSame n).toList ++ (s.put n).nodes).Perm (n :: s.nodes) := by
  unfold put
  cases hf : s.findSame n with
  | none =>
    show (s.insert n).nodes.Perm (n :: s.nodes)
    rw [h.nodes_insert n]
    exact Node.placeIn_perm n s.nodes
  | some old => exact h.replace_perm (h.of_findSame hf).1 n

theorem put_perm_of_found {old : Node} (hf : s.findSame n = some old) :
    (s.put n).nodes.Perm (n :: Node.removeFrom old s.nodes) := by
  have hput := h.put_perm n
  rw [hf] at hput
  have hold := ((Node.removeFrom_perm h.distinct (h.of_findSame hf).1).cons n).symm
  exact (hput.trans (hold.trans (List.Perm.swap _ _ _))).cons_inv

theorem findSame_of_gone {m : Node} (hm : m ∈ s.nodes) (hgone : m ∉ (s.put n).nodes) : s.findSame n = some m := by
  have hput := (h.put_perm n).symm.subset (List.mem_cons_of_mem n hm)
  rcases List.mem_append.1 hput with hfound | hstays
  · exact Option.mem_toList.1 hfound
  · exact absurd hstays hgone

theorem put (hp : n.rule.precedence.toNat = n.rule.bucket.val) (hf : ∀ m ∈ s.nodes, m.serial ≠ n.serial) :
    Valid (s.put n) := by
  unfold Store.put
  split
  · rename_i old ho
    obtain ⟨hs, hk, -⟩ := h.of_findSame ho
    exact h.replace hs hk.symm hp hf
  · exact h.insert hp hf

theorem mem_put {m : Node} (hm : m ∈ (s.put n).nodes) : m = n ∨ m ∈ s.nodes :=
  List.mem_cons.1 ((h.put_perm n).subset (List.mem_append_right _ hm))

/-- **Where a node goes**: into the slot of the node of its precedence that it stands for, or, without one, to its place
among nodes that keep their order. -/
theorem nodes_put (n : Node) :
    (∃ old A B, s.findSame n = some old ∧ old.rule.bucket = n.rule.bucket ∧ s.nodes = A ++ old :: B ∧
      (s.put n).nodes = A ++ n :: B) ∨
    ((∀ old, s.findSame n = some old → old.rule.bucket ≠ n.rule.bucket) ∧
      ∃ L, L.Sublist s.nodes ∧ (s.put n).nodes = Node.placeIn n L) := by
  unfold Store.put
  cases hf : s.findSame n with
  | none =>
    refine Or.inr ⟨fun old ho => ?_, s.nodes, List.Sublist.refl _, h.nodes_insert n⟩
    cases ho
  | some old =>
    have ho := (h.of_findSame hf).1
    have hnodes := h.nodes_replace ho n
    by_cases hb : old.rule.bucket = n.rule.bucket
    · obtain ⟨A, B, hcut, hA, -⟩ := Node.distinct_cut h.distinct ho
      rw [if_pos hb, hcut, Node.replaceIn_cut n A B hA] at hnodes
      exact Or.inl ⟨old, A, B, rfl, hb, hcut, hnodes⟩
    · rw [if_neg hb] at hnodes
      refine Or.inr ⟨fun x hx => ?_, Node.removeFrom old s.nodes, List.filter_sublist, hnodes⟩
      obtain rfl : old = x := Option.some.inj hx
      exact hb

theorem mem_put_self (n : Node) : n ∈ (s.put n).nodes := by
  rcases h.nodes_put n with ⟨-, A, B, -, -, -, hput⟩ | ⟨-, L, -, hput⟩
  · rw [hput]
    exact List.mem_append_right A List.mem_cons_self
  · rw [hput]
    exact (Node.placeIn_perm n L).mem_iff.2 List.mem_cons_self

/-- **What came is found where it was looked for.** -/
theorem findSame_put (n : Node) : (s.put n).findSame n = some n := by
  unfold Store.put
  cases hf : s.findSame n with
  | none =>
    show (s.insert n).findSame n = some n
    unfold findSame at hf ⊢
    rw [h.chain_insert, if_pos rfl, List.find?_append, hf, Option.none_or, List.find?_singleton, if_pos n.sameIdentity_self]
  | some old =>
    have ho := (h.of_findSame hf).1
    show (s.replace old n).findSame n = some n
    unfold findSame at hf ⊢
    rw [h.chain_replace ho]
    refine Node.find?_replaceIn (p := fun m => m.sameIdentity n) n.sameIdentity_self (fun m hm his => ?_) hf
    exact h.distinct.eq_of_serial (h.mem_chain.1 hm).1 ho ((Node.is_iff _ _).1 his)

/-- **What was found is found again** beside a node that does not stand for it and that is not looked for. -/
theorem findSame_put_beside {m n found : Node} (hf : s.findSame m = some found) (hn : n.sameIdentity m = false)
    (hfound : found.sameIdentity n = false) : (s.put n).findSame m = some found := by
  unfold Store.put
  cases ho : s.findSame n with
  | none =>
    show (s.insert n).findSame m = some found
    unfold findSame at hf ⊢
    rw [h.chain_insert]
    split
    · rename_i hk
      rw [← hk, List.find?_append, hf, Option.some_or]
    · exact hf
  | some old =>
    obtain ⟨hold, -, hsame⟩ := h.of_findSame ho
    have hne : found.is old = false := by
      rw [Node.is_eq_false_iff]
      intro hserial
      rw [h.distinct.eq_of_serial (h.of_findSame hf).1 hold hserial, hsame] at hfound
      cases hfound
    show (s.replace old n).findSame m = some found
    unfold findSame at hf ⊢
    rw [h.chain_replace hold]
    exact Node.find?_replaceIn_of_ne (p := fun x => x.sameIdentity m) hn hne hf

/-! ### How many nodes of a kind -/

theorem countP_put (p : Node → Bool) (n : Node) :
    (s.findSame n).toList.countP p + (s.put n).nodes.countP p = s.nodes.countP p + if p n then 1 else 0 := by
  have hc := (h.put_perm n).countP_eq p
  rwa [List.countP_append, List.countP_cons] at hc

end Store.Valid

namespace Table

/-- What the checks of a rule answer, and what they ask the validator. -/
def admission (config : TableConfig) (plugins : Plugins) (size : Nat) (r : Rule) : Option UpdateError × List Consultation :=
  if config.maxRules.toNat ≤ size then (some (.tableFull config.maxRules), [])
  else match r.fault? with
    | some f => (some (.invalidEntry f.message), [])
    | none =>
      (((({ plugins } : Table).wlanRefusal? r).map fun x => .invalidEntry x.message),
        ({ plugins } : Table).validatorCalls r)

/-- The node a rule would be stored as. -/
def incoming (t : Table) (r : Rule) : Node := Node.ofRule t.nextSerial r

theorem add_eq (t : Table) (r : Rule) :
    t.add r = match admission t.config t.plugins t.size r with
      | (some e, calls) => { table := t, result := .error e, consulted := calls }
      | (none, calls) => { t.install r with consulted := calls } := by
  unfold add admission
  split
  · rfl
  · cases hf : r.fault? with
    | some f => rfl
    | none =>
      have hw : ({ plugins := t.plugins } : Table).wlanRefusal? r = t.wlanRefusal? r := rfl
      simp only [hw]
      cases t.wlanRefusal? r <;> rfl

theorem install_eq (t : Table) (r : Rule) :
    (t.install r).table.store = t.store.put (t.incoming r) ∧ (t.install r).table.nextSerial = t.nextSerial + 1 ∧
      (t.install r).table.config = t.config ∧ (t.install r).table.plugins = t.plugins ∧
      ∃ o, (t.install r).result = .ok o := by
  unfold install Store.put incoming
  dsimp only
  cases t.store.findSame (Node.ofRule t.nextSerial r) with
  | none => exact ⟨rfl, rfl, rfl, rfl, _, rfl⟩
  | some old => exact ⟨rfl, rfl, rfl, rfl, _, rfl⟩

/-- **A rule is refused, or put into the store.** -/
theorem add_cases (t : Table) (r : Rule) :
    (∃ e, (t.add r).result = .error e ∧ (t.add r).table = t) ∨
      (∃ o, (t.add r).result = .ok o) ∧ (t.add r).table.store = t.store.put (t.incoming r) ∧
        (t.add r).table.nextSerial = t.nextSerial + 1 := by
  rw [add_eq]
  rcases admission t.config t.plugins t.size r with ⟨_ | e, calls⟩
  · obtain ⟨hs, hn, -, -, ho⟩ := install_eq t r
    exact Or.inr ⟨ho, hs, hn⟩
  · exact Or.inl ⟨e, rfl, rfl⟩

theorem store_of_accepted {t : Table} {r : Rule} {o : Outcome} (ho : (t.add r).result = .ok o) :
    (t.add r).table.store = t.store.put (t.incoming r) := by
  rcases t.add_cases r with ⟨e, he, -⟩ | ⟨-, hs, -⟩
  · rw [he] at ho
    cases ho
  · exact hs

theorem countP_accepted {t : Table} (h : t.store.Valid) {r : Rule} {o : Outcome} (ho : (t.add r).result = .ok o)
    (p : Node → Bool) : (t.store.findSame (t.incoming r)).toList.countP p + (t.add r).table.store.nodes.countP p =
      t.store.nodes.countP p + if p (t.incoming r) then 1 else 0 := by
  rw [store_of_accepted ho]
  exact h.countP_put p _

/-- An accepted rule is answered as a new one, or as one that took the place of the node it stands for. -/
theorem add_outcome {t : Table} {r : Rule} {o : Outcome} (ho : (t.add r).result = .ok o) :
    (t.store.findSame (t.incoming r) = none ∧ ∃ k, o = .added k) ∨
      ∃ old, t.store.findSame (t.incoming r) = some old ∧ ∃ k, o = .modified k := by
  rw [add_eq] at ho
  rcases hadm : admission t.config t.plugins t.size r with ⟨_ | e, calls⟩
  · rw [hadm] at ho
    unfold install at ho
    unfold incoming
    dsimp only at ho
    cases hf : t.store.findSame (Node.ofRule t.nextSerial r) with
    | none =>
      rw [hf] at ho
      exact Or.inl ⟨rfl, _, (Except.ok.inj ho).symm⟩
    | some old =>
      rw [hf] at ho
      exact Or.inr ⟨old, rfl, _, (Except.ok.inj ho).symm⟩
  · rw [hadm] at ho
    cases ho

theorem bucket_incoming (t : Table) (r : Rule) : (t.incoming r).rule.bucket = r.bucket :=
  Store.bucket_eq_of_precedence r.precedence_normalized

/-- **A deletion is refused, or a found node is removed.** -/
theorem delete_cases (t : Table) (sel : Selector) (c : Classifier) :
    (∃ e, (t.delete sel c).result = .error e ∧ (t.delete sel c).table = t) ∨
      ∃ n, t.store.find sel c = some n ∧ (t.delete sel c).result = .ok .deleted ∧
        (t.delete sel c).table.store = (t.store.remove? n).getD t.store ∧
        (t.delete sel c).table.nextSerial = t.nextSerial := by
  rw [delete_eq]
  split
  · exact Or.inl ⟨_, rfl, rfl⟩
  · split
    · exact Or.inl ⟨_, rfl, rfl⟩
    · rename_i n hn
      exact Or.inr ⟨n, hn, rfl, rfl, rfl⟩

/-- **A flush finds nothing to do, or takes a family away.** -/
theorem flush_cases (t : Table) (c : Option Classifier) :
    (t.store.isEmpty = true ∧ (t.flush c).result = .ok 0 ∧ (t.flush c).table = t) ∨
      (t.flush c).result = .ok (t.store.removeFamily c).2 ∧
        (t.flush c).table.store = (t.store.removeFamily c).1 ∧ (t.flush c).table.nextSerial = t.nextSerial := by
  unfold flush
  split
  · rename_i he
    exact Or.inl ⟨he, rfl, rfl⟩
  · exact Or.inr ⟨rfl, rfl, rfl⟩

/-! ## What the changes have in common -/

/-- The changes a table knows. -/
inductive IsChange : {α : Type} → (Table → Transition α) → Prop
  | add (r : Rule) : IsChange (·.add r)
  | delete (sel : Selector) (c : Classifier) : IsChange (·.delete sel c)
  | flush (c : Option Classifier) : IsChange (·.flush c)

namespace IsChange

variable {α : Type} {change : Table → Transition α}

/-- **A change that fails leaves the table as it is and announces nothing.** -/
theorem of_error (h : IsChange change) {t : Table} {err : UpdateError} (he : (change t).result = .error err) :
    (change t).table = t ∧ (change t).event = none := by
  cases h with
  | add r =>
    dsimp only at he ⊢
    rw [add_eq] at he ⊢
    rcases hadm : admission t.config t.plugins t.size r with ⟨_ | e, calls⟩
    · obtain ⟨-, -, -, -, o, ho⟩ := install_eq t r
      rw [hadm] at he
      cases ho.symm.trans he
    · exact ⟨rfl, rfl⟩
  | delete sel c =>
    dsimp only at he ⊢
    rw [Table.delete_eq] at he ⊢
    by_cases hempty : t.store.isEmpty = true
    · rw [if_pos hempty]
      exact ⟨rfl, rfl⟩
    · rw [if_neg hempty] at he ⊢
      cases hf : t.store.find sel c with
      | none => exact ⟨rfl, rfl⟩
      | some n =>
        rw [hf] at he
        cases he
  | flush c =>
    dsimp only at he ⊢
    unfold Table.flush at he
    split at he <;> cases he

/-- The limits and the plugins are not a change's to touch. -/
theorem settings (h : IsChange change) (t : Table) :
    (change t).table.config = t.config ∧ (change t).table.plugins = t.plugins := by
  cases h with
  | add r =>
    dsimp only
    rw [add_eq]
    rcases admission t.config t.plugins t.size r with ⟨_ | e, calls⟩
    · obtain ⟨-, -, hconfig, hplugins, -⟩ := install_eq t r
      exact ⟨hconfig, hplugins⟩
    · exact ⟨rfl, rfl⟩
  | delete sel c =>
    dsimp only
    rw [Table.delete_eq]
    split
    · exact ⟨rfl, rfl⟩
    · split <;> exact ⟨rfl, rfl⟩
  | flush c =>
    dsimp only
    unfold Table.flush
    split <;> exact ⟨rfl, rfl⟩

/-- What the lookups count is not a change's to touch either. -/
theorem families (h : IsChange change) (t : Table) : (change t).table.counters.families = t.counters.families := by
  cases h with
  | add r =>
    dsimp only
    rw [add_eq]
    rcases admission t.config t.plugins t.size r with ⟨_ | e, calls⟩
    · show (t.install r).table.counters.families = t.counters.families
      unfold install
      dsimp only
      split <;> rfl
    · rfl
  | delete sel c =>
    dsimp only
    rw [Table.delete_eq]
    split
    · rfl
    · split <;> rfl
  | flush c =>
    dsimp only
    unfold Table.flush
    split <;> rfl

/-- What is counted has no part in what a change does. -/
theorem counters (h : IsChange change) (t : Table) (counters : Counters) : ∃ counters',
    change { t with counters } = { change t with table := { (change t).table with counters := counters' } } := by
  cases h with
  | add r =>
    dsimp only
    rw [add_eq, add_eq]
    dsimp only [size]
    rcases admission t.config t.plugins t.store.count r with ⟨_ | e, calls⟩
    · unfold install
      dsimp only
      cases t.store.findSame (Node.ofRule t.nextSerial r) <;> exact ⟨_, rfl⟩
    · exact ⟨_, rfl⟩
  | delete sel c =>
    dsimp only
    rw [Table.delete_eq, Table.delete_eq]
    dsimp only
    split
    · exact ⟨_, rfl⟩
    · cases t.store.find sel c <;> exact ⟨_, rfl⟩
  | flush c =>
    dsimp only
    unfold Table.flush
    dsimp only
    split <;> exact ⟨_, rfl⟩

/-- A table turns nobody away for another writer. -/
theorem answers (h : IsChange change) (t : Table) : (change t).result ≠ .error .concurrentWriteRejected := by
  cases h with
  | add r =>
    dsimp only
    unfold Table.add
    split
    · simp
    · split
      · simp
      · split
        · simp
        · obtain ⟨-, -, -, -, o, ho⟩ := install_eq t r
          simp [ho]
  | delete sel c =>
    dsimp only
    rw [Table.delete_eq]
    split
    · simp
    · split <;> simp
  | flush c =>
    dsimp only
    unfold Table.flush
    split <;> simp

end IsChange

end Table
end TrafficRules
