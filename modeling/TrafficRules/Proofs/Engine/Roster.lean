import Mathlib.Data.List.Basic
import TrafficRules.Engine.Notifier
/-!
# Roster — a list of observers and what becomes of it

A list of observers changes by registrations and unregistrations, one at a time (`Notifier.editAll`).  Numbers are given
out in order and once (`Notifier.Numbered`), so nobody who left comes back under the same number: whoever is in the list
at two times was in it all the time between (`Notifier.Later.mem_between`).
-/
namespace TrafficRules
namespace Notifier

variable {α : Type}

inductive Edit (α : Type) where
  | register (a : α)
  | unregister (id : Nat)

def edit (n : Notifier α) : Edit α → Notifier α
  | .register a => (n.register a).1
  | .unregister id => (n.unregister id).1

/-- The list after edits in order. -/
def editAll (n : Notifier α) (xs : List (Edit α)) : Notifier α := xs.foldl edit n

theorem editAll_append (n : Notifier α) (xs ys : List (Edit α)) : n.editAll (xs ++ ys) = (n.editAll xs).editAll ys :=
  List.foldl_append

variable {n n' n'' : Notifier α} {q : Nat × α}

/-- Numbers ascend in the order of registration, and the next one is above them all. -/
structure Numbered (n : Notifier α) : Prop where
  ascending : n.observers.Pairwise (·.1 < ·.1)
  below : ∀ q ∈ n.observers, q.1 < n.nextId

theorem numbered_empty : ({} : Notifier α).Numbered := ⟨.nil, fun _ h => by cases h⟩

theorem Numbered.edit (h : n.Numbered) : ∀ x, (n.edit x).Numbered
  | .register a => by
    refine ⟨List.pairwise_append.2 ⟨h.ascending, List.pairwise_singleton _ _, fun q hq p hp => ?_⟩, fun q hq => ?_⟩
    · rw [List.mem_singleton.1 hp]
      exact h.below q hq
    · rcases List.mem_append.1 hq with hq | hq
      · exact Nat.lt_succ_of_lt (h.below q hq)
      · rw [List.mem_singleton.1 hq]
        exact Nat.lt_succ_self _
  | .unregister id =>
    ⟨h.ascending.sublist List.filter_sublist, fun q hq => h.below q (List.mem_filter.1 hq).1⟩

theorem Numbered.editAll : ∀ (xs : List (Edit α)) {n : Notifier α}, n.Numbered → (n.editAll xs).Numbered
  | [], _, h => h
  | x :: xs, _, h => Numbered.editAll xs (h.edit x)

/-- **An observer is in the list once.** -/
theorem Numbered.filter_eq (h : n.Numbered) (hq : q ∈ n.observers) : n.observers.filter (·.1 == q.1) = [q] := by
  obtain ⟨xs, ys, hcut⟩ := List.append_of_mem hq
  have hascending := h.ascending
  rw [hcut] at hascending ⊢
  obtain ⟨-, hys, hxs⟩ := List.pairwise_append.1 hascending
  have hbefore : xs.filter (·.1 == q.1) = [] := by
    refine List.filter_eq_nil_iff.2 fun p hp => ?_
    have hlt := hxs p hp q List.mem_cons_self
    simp only [beq_iff_eq]
    omega
  have hafter : ys.filter (·.1 == q.1) = [] := by
    refine List.filter_eq_nil_iff.2 fun p hp => ?_
    have hlt := List.rel_of_pairwise_cons hys hp
    simp only [beq_iff_eq]
    omega
  rw [List.filter_append, hbefore, List.filter_cons_of_pos (by simp), hafter]
  rfl

/-- Who has a number of old in the later list was in the earlier. -/
structure Later (n n' : Notifier α) : Prop where
  nextId_le : n.nextId ≤ n'.nextId
  mem : ∀ q ∈ n'.observers, q.1 < n.nextId → q ∈ n.observers

namespace Later

theorem refl (n : Notifier α) : Later n n := ⟨Nat.le_refl _, fun _ h _ => h⟩

theorem trans (h : Later n n') (h' : Later n' n'') : Later n n'' where
  nextId_le := Nat.le_trans h.nextId_le h'.nextId_le
  mem q hq hlt := h.mem q (h'.mem q hq (Nat.lt_of_lt_of_le hlt h.nextId_le)) hlt

theorem edit (n : Notifier α) : ∀ x, Later n (n.edit x)
  | .register a => by
    refine ⟨Nat.le_succ _, fun q hq hlt => ?_⟩
    rcases List.mem_append.1 hq with hq | hq
    · exact hq
    · rw [List.mem_singleton.1 hq] at hlt
      exact absurd hlt (Nat.lt_irrefl _)
  | .unregister id => ⟨Nat.le_refl _, fun q hq _ => (List.mem_filter.1 hq).1⟩

theorem editAll : ∀ (xs : List (Edit α)) (n : Notifier α), Later n (n.editAll xs)
  | [], n => refl n
  | x :: xs, n => (edit n x).trans (editAll xs (n.edit x))

/-- **Whoever is in the list at two times is in it between.** -/
theorem mem_between (h : Later n n') (h' : Later n' n'') (hn : n.Numbered) (hq : q ∈ n.observers)
    (hq'' : q ∈ n''.observers) : q ∈ n'.observers :=
  h'.mem q hq'' (Nat.lt_of_lt_of_le (hn.below q hq) h.nextId_le)

end Later

end Notifier
end TrafficRules
