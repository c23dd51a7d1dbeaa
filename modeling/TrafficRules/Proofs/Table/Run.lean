import TrafficRules.Proofs.Table.Answers
/-!
# Run — sequences of calls and what they show

A run answers a list of calls one after the other.  What a caller sees of a call is its answer, the event announced
and what the validator was asked; the plugins may be exchanged between calls.  A run from a reachable table ends in
one (`run_reachable`).
-/
namespace TrafficRules

inductive Call where
  | add (rule : Rule)
  | delete (selector : Selector) (classifier : Classifier)
  | flush (classifier : Option Classifier)
  | query (selector : Selector) (classifier : Classifier)
  | queryByType (classifier : Classifier)
  | plug (plugins : Plugins)

inductive Answer where
  | changed (result : Except UpdateError Outcome)
  | flushed (result : Except UpdateError Nat)
  | found (result : Except UpdateError Rule)
  | listed (result : Except UpdateError (List Rule))
  | plugged

theorem Call.add_or_not (c : Call) : (∃ r, c = .add r) ∨ ∀ r, c ≠ .add r := by
  cases c with
  | add r => exact Or.inl ⟨r, rfl⟩
  | _ => exact Or.inr (fun r hr => Call.noConfusion hr)

/-- What a call shows. -/
structure Shown where
  call : Call
  answer : Answer
  event : Option Event := none
  consulted : List Consultation := []

/-- A rule of a family and an id was added, as a new one or in the place of another. -/
def Shown.Adds (x : Shown) (c : Classifier) (i : UInt32) : Prop :=
  ∃ r o, x.call = .add r ∧ x.answer = .changed (.ok o) ∧ r.classifier = c ∧ r.id = i

namespace Table

def step (t : Table) : Call → Table × Shown
  | .add r => let tr := t.add r; (tr.table, ⟨.add r, .changed tr.result, tr.event, tr.consulted⟩)
  | .delete sel c => let tr := t.delete sel c; (tr.table, ⟨.delete sel c, .changed tr.result, tr.event, tr.consulted⟩)
  | .flush c => let tr := t.flush c; (tr.table, ⟨.flush c, .flushed tr.result, tr.event, tr.consulted⟩)
  | .query sel c => (t, { call := .query sel c, answer := .found (t.query sel c) })
  | .queryByType c => (t, { call := .queryByType c, answer := .listed (t.queryByType c) })
  | .plug plugins => ({ t with plugins }, { call := .plug plugins, answer := .plugged })

/-- The table after a run and what each call showed. -/
def run : List Call → Table → Table × List Shown
  | [], t => (t, [])
  | c :: cs, t => ((run cs (t.step c).1).1, (t.step c).2 :: (run cs (t.step c).1).2)

theorem call_step (t : Table) (c : Call) : (t.step c).2.call = c := by cases c <;> rfl

theorem call_mem_of_shown : ∀ {cs : List Call} {t : Table} {x : Shown}, x ∈ (run cs t).2 → x.call ∈ cs
  | [], _, _, hx => by cases hx
  | c :: cs, t, x, hx => by
    rcases List.mem_cons.1 hx with rfl | hx
    · rw [call_step]
      exact List.mem_cons_self
    · exact List.mem_cons_of_mem c (call_mem_of_shown hx)

theorem step_reachable {t : Table} (h : Reachable t) : ∀ (c : Call), Reachable (t.step c).1
  | .add r => h.add r
  | .delete sel c => h.delete sel c
  | .flush c => h.flush c
  | .query _ _ => h
  | .queryByType _ => h
  | .plug plugins => h.plug plugins

theorem run_reachable : ∀ (cs : List Call) {t : Table}, Reachable t → Reachable (run cs t).1
  | [], _, h => h
  | c :: cs, _, h => run_reachable cs (step_reachable h c)

theorem run_append : ∀ (cs ds : List Call) (t : Table),
    run (cs ++ ds) t = ((run ds (run cs t).1).1, (run cs t).2 ++ (run ds (run cs t).1).2)
  | [], _, _ => rfl
  | c :: cs, ds, t => by
    rw [List.cons_append, run, run_append cs ds]
    rfl

/-! ## Calls that add nothing -/

/-- **Whatever is not an addition keeps some of the nodes**, in the order of evaluation and in every chain. -/
theorem step_filters {t : Table} (h : Reachable t) (c : Call) (hc : ∀ r, c ≠ .add r) :
    ∃ q : Node → Bool, (t.step c).1.store.nodes = t.store.nodes.filter q ∧
      ∀ k, (t.step c).1.store.index.chain k = (t.store.index.chain k).filter q := by
  have hall : ∀ ns : List Node, ns = ns.filter fun _ => true := fun ns => (List.filter_true ns).symm
  cases c with
  | add r => exact absurd rfl (hc r)
  | delete sel c =>
    show ∃ q : Node → Bool, (t.delete sel c).table.store.nodes = _ ∧ ∀ k, (t.delete sel c).table.store.index.chain k = _
    rcases t.delete_cases sel c with ⟨e, -, ht⟩ | ⟨n, hf, -⟩
    · rw [ht]
      exact ⟨fun _ => true, hall _, fun k => hall _⟩
    · obtain ⟨-, hnodes, hchains⟩ := delete_of_found h.valid hf
      exact ⟨(!·.is n), hnodes, hchains⟩
  | flush c =>
    show ∃ q : Node → Bool, (t.flush c).table.store.nodes = _ ∧ ∀ k, (t.flush c).table.store.index.chain k = _
    rcases t.flush_cases c with ⟨-, -, ht⟩ | ⟨-, hs, -⟩
    · rw [ht]
      exact ⟨fun _ => true, hall _, fun k => hall _⟩
    · obtain ⟨hnodes, hchains, -, -⟩ := h.valid.store.removeFamily c
      rw [hs]
      exact ⟨Store.spared c, hnodes, hchains⟩
  | query sel c => exact ⟨fun _ => true, hall _, fun k => hall _⟩
  | queryByType c => exact ⟨fun _ => true, hall _, fun k => hall _⟩
  | plug plugins => exact ⟨fun _ => true, hall _, fun k => hall _⟩

theorem countP_step_le {t : Table} (h : Reachable t) (p : Node → Bool) {c : Call} (hc : ∀ r, c ≠ .add r) :
    (t.step c).1.store.nodes.countP p ≤ t.store.nodes.countP p := by
  obtain ⟨q, hnodes, -⟩ := step_filters h c hc
  rw [hnodes]
  exact List.filter_sublist.countP_le

/-! ## What every call keeps but a flawed addition -/

section Flaw

variable {P : Table → Prop} {Flaw : Table → Rule → Prop}
  (hadd : ∀ {t}, Reachable t → P t → ∀ r, P (t.add r).table ↔ ¬ Flaw t r)
  (hother : ∀ {t}, Reachable t → P t → ∀ c, (∀ r, c ≠ .add r) → P (t.step c).1)
include hadd hother

theorem step_of_flawless {t : Table} (h : Reachable t) (ht : P t) (c : Call) (hc : ∀ r, c = .add r → ¬ Flaw t r) :
    P (t.step c).1 := by
  rcases c.add_or_not with ⟨r, rfl⟩ | ha
  · exact (hadd h ht r).2 (hc r rfl)
  · exact hother h ht c ha

theorem run_of_flawless : ∀ (cs : List Call) {t : Table}, Reachable t → P t →
    (∀ pre r, pre ++ [.add r] <+: cs → ¬ Flaw (run pre t).1 r) → P (run cs t).1
  | [], _, _, ht, _ => ht
  | c :: cs, _, h, ht, hf => by
    have hstep := step_of_flawless hadd hother h ht c (fun r hr => hf [] r (by rw [hr]; exact List.prefix_append _ cs))
    exact run_of_flawless cs (step_reachable h c) hstep (fun pre r hpre => hf (c :: pre) r ((List.prefix_cons_inj c).2 hpre))

/-- **The property holds all along a run exactly when no addition of the run is flawed.** -/
theorem along_run_iff {t : Table} (h : Reachable t) (ht : P t) (cs : List Call) :
    (∀ pre, pre <+: cs → P (run pre t).1) ↔ ∀ pre r, pre ++ [.add r] <+: cs → ¬ Flaw (run pre t).1 r := by
  constructor
  · intro hp pre r hpre
    have hbefore := hp pre ((List.prefix_append _ _).trans hpre)
    have hafter := hp (pre ++ [.add r]) hpre
    rw [run_append] at hafter
    exact (hadd (run_reachable pre h) hbefore r).1 hafter
  · intro hf pre hpre
    exact run_of_flawless hadd hother pre h ht (fun pre' r hpre' => hf pre' r (hpre'.trans hpre))

end Flaw

end Table
end TrafficRules
