import TrafficRules.Proofs.Table.Flat
/-!
# Refine — buckets and index stand for two lists

`Stands t f`: the table `t` stands for the two lists `f` when its evaluation order is `f.eval` and each of its chains
is what `f.arrival` holds of the key.  The order of a chain is the order of arrival, not of evaluation: a rule that
moves to another bucket keeps its place in its chain.  Every settled call keeps the two in step and shows the same on
both (`Stands.step`), so every run does (`run_stands_for_flat`).
-/
namespace TrafficRules

structure Stands (t : Table) (f : Flat) : Prop where
  config : f.config = t.config
  plugins : f.plugins = t.plugins
  nextSerial : f.nextSerial = t.nextSerial
  valid : t.Valid
  eval : t.store.nodes = f.eval
  chains : ∀ k, t.store.index.chain k = f.arrival.filter (·.key == k)

namespace Stands

variable {t : Table} {f : Flat} (h : Stands t f)
include h

theorem size : t.size = f.eval.length := by rw [← h.eval]; exact h.valid.store.count

theorem isEmpty_iff : t.store.isEmpty = true ↔ f.eval = [] := by rw [h.valid.store.isEmpty_iff, h.eval]

theorem mem_arrival {n : Node} : n ∈ f.arrival ↔ n ∈ t.store.nodes := by
  have hc : n ∈ t.store.index.chain n.key ↔ n ∈ f.arrival := by
    rw [h.chains, List.mem_filter]
    simp
  rw [← hc, h.valid.store.mem_chain]
  simp

/-! ## The same nodes are meant -/

theorem findSame (n : Node) : t.store.findSame n = f.findSame n := by
  unfold Store.findSame Flat.findSame
  rw [h.chains, List.find?_filter]
  congr 1
  funext x
  rw [Bool.decide_and, Bool.decide_eq_true, Bool.decide_eq_true]

theorem find {sel : Selector} {c : Classifier} (hk : sel.isKeyed c = true) : t.store.find sel c = f.find sel c := by
  unfold Flat.find
  rw [Store.find_of_keyed hk, h.chains, List.find?_filter]
  congr 1
  funext x
  by_cases hn : sel.names c x = true
  · simp [hn, Node.key_of_names hk hn]
  · simp [hn]

/-! ## Changes of the two lists -/

theorem insert (n : Node) : (t.store.insert n).nodes = n.placeIn f.eval ∧
    ∀ k, (t.store.insert n).index.chain k = (f.arrival ++ [n]).filter (·.key == k) := by
  refine ⟨by rw [h.valid.store.nodes_insert, h.eval], fun k => ?_⟩
  rw [h.valid.store.chain_insert, List.filter_append, List.filter_singleton, ← h.chains]
  by_cases hk : k = n.key
  · subst hk
    simp
  · have hn : (n.key == k) = false := by simpa using Ne.symm hk
    rw [if_neg hk, hn, cond_false, List.append_nil]

theorem replace {old : Node} (ho : old ∈ t.store.nodes) {n : Node} (hkey : old.key = n.key) :
    (t.store.replace old n).nodes = (if old.rule.bucket = n.rule.bucket then Node.replaceIn old n f.eval
        else n.placeIn (Node.removeFrom old f.eval)) ∧
      ∀ k, (t.store.replace old n).index.chain k = (Node.replaceIn old n f.arrival).filter (·.key == k) := by
  refine ⟨by rw [h.valid.store.nodes_replace ho, h.eval], fun k => ?_⟩
  have hq : ∀ m ∈ f.arrival, m.is old = true → (m.key == k) = (n.key == k) := by
    intro m hm hmo
    rw [h.valid.store.distinct.eq_of_serial (h.mem_arrival.1 hm) ho ((Node.is_iff m old).1 hmo), hkey]
  rw [h.valid.store.chain_replace ho, Node.filter_replaceIn _ _ hq, h.chains]
  by_cases hk : n.key = k
  · rw [if_pos (beq_iff_eq.2 hk)]
  · have hko : k ≠ old.key := fun e => hk (by rw [e, hkey])
    rw [if_neg (by simpa using hk), ← h.chains]
    exact Node.replaceIn_of_none (fun m hm => h.valid.store.not_is_of_key_ne ho hko hm)

/-- **A put keeps the lists in step.** -/
theorem put (n : Node) : (t.store.put n).nodes = (f.put n).eval ∧
    ∀ k, (t.store.put n).index.chain k = (f.put n).arrival.filter (·.key == k) := by
  unfold Store.put Flat.put
  rw [h.findSame n]
  cases hf : f.findSame n with
  | none => exact h.insert n
  | some old =>
    rw [← h.findSame n] at hf
    obtain ⟨ho, hk, -⟩ := h.valid.store.of_findSame hf
    exact h.replace ho hk

/-- **A removal keeps the lists in step.** -/
theorem remove? {n : Node} (hn : n ∈ t.store.nodes) : ∃ s, t.store.remove? n = some s ∧
    s.nodes = n.removeFrom f.eval ∧ ∀ k, s.index.chain k = (n.removeFrom f.arrival).filter (·.key == k) := by
  obtain ⟨s, hs, hnodes, hchains, -⟩ := h.valid.store.remove? hn
  refine ⟨s, hs, by rw [hnodes, h.eval], fun k => ?_⟩
  rw [hchains, h.chains]
  exact List.filter_comm _ _ _

/-- **A flush keeps the lists in step**, and counts what it does not spare. -/
theorem removeFamily (c : Option Classifier) :
    (t.store.removeFamily c).1.nodes = f.eval.filter (Store.spared c) ∧
      (∀ k, (t.store.removeFamily c).1.index.chain k = (f.arrival.filter (Store.spared c)).filter (·.key == k)) ∧
      (t.store.removeFamily c).2 = (f.eval.filter (!Store.spared c ·)).length := by
  obtain ⟨hnodes, hchains, hcount, hv⟩ := h.valid.store.removeFamily c
  refine ⟨by rw [hnodes, h.eval], fun k => ?_, ?_⟩
  · rw [hchains, h.chains]
    exact List.filter_comm _ _ _
  · have hlen := List.length_eq_length_filter_add (Store.spared c) (l := f.eval)
    rw [hv.count, hnodes, h.valid.store.count, h.eval] at hcount
    omega

/-! ## Calls -/

/-- The same outcome and the same event. -/
theorem install_shows (r : Rule) : (t.install r).result = .ok (f.install r).2.1 ∧
    (t.install r).event = some (f.install r).2.2 := by
  have hkey : ((Node.ofRule t.nextSerial r).tuple?.map fun _ => (Node.ofRule t.nextSerial r).key) =
      if r.classifier.isFlowKeyed then some (Node.ofRule t.nextSerial r).key else none := by
    show Option.map _ (Rule.flowTuple? r.normalized) = _
    unfold Rule.flowTuple?
    show Option.map _ (if r.classifier.isFlowKeyed then _ else _) = _
    split <;> rfl
  unfold Table.install Flat.install
  dsimp only
  rw [h.nextSerial, ← h.findSame, hkey]
  split
  · rename_i old ho
    rw [ho]
    exact ⟨rfl, rfl⟩
  · rename_i ho
    rw [ho]
    exact ⟨rfl, rfl⟩

theorem add (r : Rule) : Stands (t.step (.add r)).1 (f.step (.add r)).1 ∧ (t.step (.add r)).2 = (f.step (.add r)).2 := by
  have hadm : Table.admission f.config f.plugins f.eval.length r = Table.admission t.config t.plugins t.size r := by
    rw [h.config, h.plugins, h.size]
  have hadd := t.add_eq r
  have hvalid := h.valid.add r
  unfold Table.step Flat.step
  dsimp only
  rw [hadm]
  rcases hc : Table.admission t.config t.plugins t.size r with ⟨_ | e, calls⟩
  · rw [hc] at hadd
    rw [hadd] at hvalid ⊢
    obtain ⟨hs, hn, hconf, hplug, -⟩ := t.install_eq r
    obtain ⟨heval, hchains⟩ := h.put (t.incoming r)
    have hnode : Node.ofRule f.nextSerial r = t.incoming r := by rw [h.nextSerial]; rfl
    refine ⟨⟨?_, ?_, ?_, hvalid, ?_, fun k => ?_⟩, ?_⟩
    · exact (f.put_config _).trans (h.config.trans hconf.symm)
    · exact (f.put_plugins _).trans (h.plugins.trans hplug.symm)
    · exact (congrArg (· + 1) h.nextSerial).trans hn.symm
    · show (t.install r).table.store.nodes = (f.put (Node.ofRule f.nextSerial r)).eval
      rw [hs, hnode, heval]
    · show (t.install r).table.store.index.chain k = (f.put (Node.ofRule f.nextSerial r)).arrival.filter _
      rw [hs, hnode, hchains]
    · obtain ⟨hres, hev⟩ := h.install_shows r
      rw [hres, hev]
  · rw [hc] at hadd
    rw [hadd]
    exact ⟨h, rfl⟩

theorem delete {sel : Selector} {c : Classifier} (hk : sel.isKeyed c = true) :
    Stands (t.step (.delete sel c)).1 (f.step (.delete sel c)).1 ∧
      (t.step (.delete sel c)).2 = (f.step (.delete sel c)).2 := by
  have hvalid := h.valid.delete sel c
  unfold Table.step Flat.step
  dsimp only
  rw [Table.delete_eq] at hvalid ⊢
  by_cases he : f.eval = []
  · rw [if_pos he, if_pos (h.isEmpty_iff.2 he)]
    exact ⟨h, rfl⟩
  · rw [if_neg (mt h.isEmpty_iff.1 he)] at hvalid ⊢
    rw [if_neg he, ← h.find hk]
    cases hf : t.store.find sel c with
    | none => exact ⟨h, rfl⟩
    | some n =>
      obtain ⟨s, hs, hnodes, hchains⟩ := h.remove? (h.valid.store.of_find hf).1
      rw [hf] at hvalid
      dsimp only at hvalid ⊢
      rw [hs, Option.getD_some] at hvalid ⊢
      exact ⟨⟨h.config, h.plugins, h.nextSerial, hvalid, hnodes, hchains⟩, rfl⟩

theorem flush (c : Option Classifier) : Stands (t.step (.flush c)).1 (f.step (.flush c)).1 ∧
    (t.step (.flush c)).2 = (f.step (.flush c)).2 := by
  have hvalid := h.valid.flush c
  unfold Table.step Flat.step
  dsimp only
  unfold Table.flush at hvalid ⊢
  by_cases he : t.store.isEmpty = true
  · rw [if_pos he]
    have hnil := h.isEmpty_iff.1 he
    have harr : f.arrival = [] := List.eq_nil_iff_forall_not_mem.2 (fun n hn => by
      have hs := h.mem_arrival.1 hn
      rw [h.eval, hnil] at hs
      cases hs)
    rw [hnil, harr]
    refine ⟨⟨h.config, h.plugins, h.nextSerial, h.valid, by rw [h.eval, hnil]; rfl, fun k => ?_⟩, rfl⟩
    rw [h.chains, harr]
    rfl
  · rw [if_neg he] at hvalid ⊢
    obtain ⟨hnodes, hchains, hcount⟩ := h.removeFamily c
    refine ⟨⟨h.config, h.plugins, h.nextSerial, hvalid, hnodes, hchains⟩, ?_⟩
    dsimp only
    rw [hcount]

theorem query {sel : Selector} {c : Classifier} (hk : sel.isKeyed c = true) :
    (t.step (.query sel c)).2 = (f.step (.query sel c)).2 := by
  unfold Table.step Flat.step
  dsimp only
  rw [Table.query_eq]
  by_cases he : f.eval = []
  · rw [if_pos he, if_pos (h.isEmpty_iff.2 he)]
  · rw [if_neg he, if_neg (mt h.isEmpty_iff.1 he)]
    have hfind := h.find hk
    generalize t.store.find sel c = found at hfind ⊢
    subst hfind
    cases f.find sel c <;> rfl

theorem queryByType (c : Classifier) : (t.step (.queryByType c)).2 = (f.step (.queryByType c)).2 := by
  unfold Table.step Flat.step Table.queryByType Store.family
  dsimp only
  rw [h.eval]
  by_cases he : f.eval = []
  · rw [if_pos he, if_pos (h.isEmpty_iff.2 he)]
  · rw [if_neg he, if_neg (mt h.isEmpty_iff.1 he)]

/-- **A settled call keeps the two in step and shows the same on both.** -/
theorem step (c : Call) (hc : c.isSettled = true) :
    Stands (t.step c).1 (f.step c).1 ∧ (t.step c).2 = (f.step c).2 := by
  cases c with
  | add r => exact h.add r
  | delete sel c => exact h.delete hc
  | flush c => exact h.flush c
  | query sel c => exact ⟨h, h.query hc⟩
  | queryByType c => exact ⟨h, h.queryByType c⟩
  | plug plugins =>
    exact ⟨⟨h.config, rfl, h.nextSerial, ⟨h.valid.store, h.valid.serials⟩, h.eval, h.chains⟩, rfl⟩

omit h in
theorem run : ∀ (cs : List Call), (∀ c ∈ cs, c.isSettled = true) → ∀ {t : Table} {f : Flat}, Stands t f →
    Stands (t.run cs).1 (f.run cs).1 ∧ (t.run cs).2 = (f.run cs).2
  | [], _, _, _, h => ⟨h, rfl⟩
  | c :: cs, hcs, t, f, h => by
    obtain ⟨hstep, hshown⟩ := h.step c (hcs c List.mem_cons_self)
    obtain ⟨hrun, hshowns⟩ := run cs (fun d hd => hcs d (List.mem_cons_of_mem _ hd)) hstep
    refine ⟨hrun, ?_⟩
    rw [Table.run, Flat.run, hshown, hshowns]

end Stands

theorem stands_fresh (config : TableConfig) (plugins : Plugins) : Stands { config, plugins } { config, plugins } :=
  ⟨rfl, rfl, rfl, (Table.Reachable.fresh config plugins).valid, Store.nodes_empty, fun _ => rfl⟩

/-- **Every run of settled calls on a fresh table shows what it shows on two lists**, and ends in a table that lists,
counts, chains and finds the nodes of those lists: evaluation order in the one, identity and selectors by the order of
arrival in the other. -/
theorem run_stands_for_flat (config : TableConfig) (plugins : Plugins) (cs : List Call)
    (hcs : ∀ c ∈ cs, c.isSettled = true) :
    let t := Table.run cs { config, plugins }
    let f := Flat.run cs { config, plugins }
    t.2 = f.2 ∧ t.1.store.nodes = f.1.eval ∧ t.1.rules = f.1.eval.map (·.rule) ∧ t.1.size = f.1.eval.length ∧
    (∀ c, t.1.store.family c = f.1.eval.filter (·.rule.classifier == c)) ∧
    (∀ k, t.1.store.index.chain k = f.1.arrival.filter (·.key == k)) ∧
    (∀ hash, t.1.store.flowChain hash =
      f.1.arrival.filter fun n => n.rule.classifier.isFlowKeyed && n.key == hash) ∧
    (∀ n, t.1.store.findSame n = f.1.findSame n) ∧
    (∀ sel c, sel.isKeyed c = true → t.1.store.find sel c = f.1.find sel c) := by
  intro t f
  obtain ⟨h, hshown⟩ := Stands.run cs hcs (stands_fresh config plugins)
  refine ⟨hshown, h.eval, congrArg (List.map Node.rule) h.eval, h.size,
    fun c => congrArg (List.filter fun n : Node => n.rule.classifier == c) h.eval, h.chains, fun hash => ?_, h.findSame,
    fun sel c hk => h.find hk⟩
  unfold Store.flowChain
  rw [h.chains, List.filter_filter]

/-- Two rules of one precedence, the first raised above the second, replaced there and joined by a flow-keyed rule
under the same key: evaluation and arrival disagree on the two. -/
def raised : List Call :=
  [.add { id := 2, classifier := .scs, precedence := 3 }, .add { id := 2, classifier := .sawf, precedence := 3 },
    .add { classifier := .ifli, flow := { srcPort := some 2 } }, .add { id := 2, classifier := .sawf, precedence := 7 },
    .delete (.id 9) .scs, .add { id := 2, classifier := .sawf, precedence := 7 },
    .add { id := 2, classifier := .scs, precedence := 255 }, .queryByType .scs, .query (.id 2) .sawf, .flush (some .mesh)]

theorem run_stands_for_flat_raised : (∀ c ∈ raised, c.isSettled = true) ∧
    (Table.run raised {}).2 = (Flat.run raised { config := {}, plugins := {} }).2 ∧
    (Flat.run raised { config := {}, plugins := {} }).1.eval.map (·.serial) = [4, 2, 5] ∧
    (Flat.run raised { config := {}, plugins := {} }).1.arrival.map (·.serial) = [5, 4, 2] := by
  have hcs : ∀ c ∈ raised, c.isSettled = true := by decide
  exact ⟨hcs, (run_stands_for_flat {} {} raised hcs).1, by decide, by decide⟩

end TrafficRules
