import TrafficRules.Proofs.Table.Refine
/-!
# Arrival — the order in which the stored rules came

Along a run each stored node has a place in the order of arrival: a new one comes last, one that takes the place of
another has that one's place, whatever the precedence of either, and the others keep theirs (`arrivals`).  Every chain
of a table is the part of this order under its key (`run_inArrival`), also after deletions of flow-keyed rules by their
id, which the two lists of `Flat` do not settle.
-/
namespace TrafficRules
namespace Table

/-- The order of arrival after a call, from the one before it. -/
def arrivalAfter (t : Table) (arrival : List Node) : Call → List Node
  | .add r =>
    match (t.add r).result with
    | .error _ => arrival
    | .ok _ =>
      match t.store.findSame (t.incoming r) with
      | none => arrival ++ [t.incoming r]
      | some old => Node.replaceIn old (t.incoming r) arrival
  | c => arrival.filter fun n => n ∈ (t.step c).1.store.nodes

/-- The order of arrival after a run. -/
def arrivals : List Call → Table → List Node → List Node
  | [], _, arrival => arrival
  | c :: cs, t, arrival => arrivals cs (t.step c).1 (t.arrivalAfter arrival c)

/-- The chains of the table are in the order of arrival. -/
def InArrival (t : Table) (arrival : List Node) : Prop :=
  Stands t ⟨t.config, t.plugins, t.nextSerial, t.store.nodes, arrival⟩

namespace InArrival

variable {t : Table} {arrival : List Node}

theorem of_chains (hv : t.Valid) (hc : ∀ k, t.store.index.chain k = arrival.filter (·.key == k)) : InArrival t arrival :=
  ⟨rfl, rfl, rfl, hv, rfl, hc⟩

theorem add (h : InArrival t arrival) (r : Rule) : InArrival (t.step (.add r)).1 (t.arrivalAfter arrival (.add r)) := by
  have hv := h.valid.add r
  show InArrival (t.add r).table (t.arrivalAfter arrival (.add r))
  rw [arrivalAfter]
  rcases t.add_cases r with ⟨e, he, ht⟩ | ⟨⟨o, ho⟩, hs, -⟩
  · rw [he, ht]
    exact h
  · rw [ho]
    have hchains := (Stands.put h (t.incoming r)).2
    refine of_chains hv (fun k => ?_)
    rw [hs, hchains]
    unfold Flat.put
    rw [← Stands.findSame h]
    cases t.store.findSame (t.incoming r) <;> rfl

theorem other (h : InArrival t arrival) (ht : Reachable t) (c : Call) (hc : ∀ r, c ≠ .add r) :
    InArrival (t.step c).1 (t.arrivalAfter arrival c) := by
  obtain ⟨q, hnodes, hchains⟩ := step_filters ht c hc
  have harrival : t.arrivalAfter arrival c = arrival.filter q := by
    have hstored : arrival.filter (fun n => n ∈ (t.step c).1.store.nodes) = arrival.filter q := by
      refine List.filter_congr (fun n hn => ?_)
      have hmem : n ∈ t.store.nodes := (Stands.mem_arrival h).1 hn
      simp [hnodes, hmem]
    cases c with
    | add r => exact absurd rfl (hc r)
    | _ => exact hstored
  refine of_chains (step_reachable ht c).valid (fun k => ?_)
  rw [hchains, harrival, h.chains]
  exact List.filter_comm _ _ _

theorem step (h : InArrival t arrival) (ht : Reachable t) (c : Call) :
    InArrival (t.step c).1 (t.arrivalAfter arrival c) := by
  rcases c.add_or_not with ⟨r, rfl⟩ | hc
  · exact h.add r
  · exact h.other ht c hc

end InArrival

theorem inArrival_fresh (config : TableConfig) (plugins : Plugins) : InArrival { config, plugins } [] :=
  .of_chains (Reachable.fresh config plugins).valid (fun _ => rfl)

/-- **After a run the chains are in the order of arrival.** -/
theorem run_inArrival : ∀ (cs : List Call) {t : Table} {arrival : List Node}, Reachable t → InArrival t arrival →
    InArrival (run cs t).1 (arrivals cs t arrival)
  | [], _, _, _, h => h
  | c :: cs, _, _, ht, h => run_inArrival cs (step_reachable ht c) (h.step ht c)

end Table
end TrafficRules
