import Mathlib.Data.UInt
import TrafficRules.Proofs.Engine.Keeps
import TrafficRules.Proofs.Lookup.Admission
import TrafficRules.Proofs.Lookup.Streams
/-!
# Counted — which lookups count, and for which family

A lookup is counted for the family that decides, so a flow may be counted for any of four, and one that is not looked up
for none.  One deed counts the lookup it is (`stats_act`), and nothing else counts lookups; so at the end of a run each
family has counted its own (`stats_after`).  Two families count hits only.
-/
namespace TrafficRules

/-- What is done to a table: it answers a call, turns a writer away, or is looked up in. -/
inductive Deed where
  | call (c : Call)
  | refuse
  | look (i : ClassifyInput)

/-- A lookup and the table it was made on. -/
structure Look where
  table : Table
  input : ClassifyInput

namespace Look

/-- Frames and streams count always, flows if they leave by a device and there are rules, latency requests never. -/
def counts (x : Look) : Bool :=
  match x.input with
  | .frame _ | .scs _ | .mscs _ => true
  | .sawf i => i.destDev.isSome && !x.table.rules.isEmpty
  | .latency _ => false

/-- The lookup selects a rule. -/
def hits (x : Look) : Bool := (x.table.selects x.input).isSome

/-- The family that decides.  A flow without a rule is left to the service-aware one. -/
def family (x : Look) : Classifier :=
  match x.input with
  | .frame _ | .latency _ => .mesh
  | .sawf i => (x.table.classifyFlow i).ruleType.getD .sawf
  | .scs _ => .scs
  | .mscs _ => .mscs

def countsFor (f : Classifier) (x : Look) : Bool := x.family == f && x.counts

end Look

theorem Table.isMatch_classifyFlow (t : Table) (i : FlowInput) :
    (t.classifyFlow i).isMatch = (t.selects (.sawf i)).isSome := by
  rw [t.classifyFlow_eq_selects i]
  cases t.selects (.sawf i) with
  | none => rfl
  | some n =>
    show n.flowDecision.ruleType.isSome = true
    rw [Node.flowDecision_ruleType]
    cases n.rule.classifier <;> rfl

/-- The families of the later passes of a flow are named by hits only. -/
theorem Look.hits_of_family {x : Look} (hf : x.family = .sawfScs ∨ x.family = .ifli) : x.hits = true := by
  obtain ⟨t, i⟩ := x
  cases i with
  | sawf i =>
    show (t.selects (.sawf i)).isSome = true
    rw [← Table.isMatch_classifyFlow]
    unfold FlowDecision.isMatch
    unfold family at hf
    cases hr : (t.classifyFlow i).ruleType with
    | some f => rfl
    | none => simp [hr] at hf
  | _ => simp [family] at hf

theorem Look.countP_hits_le (f : Classifier) (xs : List Look) :
    (xs.countP fun x => x.countsFor f && x.hits) ≤ xs.countP (countsFor f) :=
  List.countP_mono_left fun _ _ hx => (Bool.and_eq_true_iff.1 hx).1

theorem Look.sum_countsFor (p : Look → Bool) (xs : List Look) :
    (Classifier.all.map fun f => xs.countP fun x => x.countsFor f && p x).sum = xs.countP fun x => x.counts && p x := by
  simpa only [countsFor, Bool.and_assoc] using Classifier.sum_countP family (fun x => x.counts && p x) xs

/-- The stats with so many lookups more, and so many hits. -/
def MatchStats.plus (s : MatchStats) (lookups hits : Nat) : MatchStats :=
  ⟨s.lookups + .ofNat lookups, s.hits + .ofNat hits⟩

theorem MatchStats.plus_zero (s : MatchStats) : s.plus 0 0 = s := by
  show MatchStats.mk (s.lookups + 0) (s.hits + 0) = s
  rw [UInt64.add_zero, UInt64.add_zero]

theorem MatchStats.plus_plus (s : MatchStats) (n m n' m' : Nat) : (s.plus n m).plus n' m' = s.plus (n + n') (m + m') := by
  unfold plus
  rw [UInt64.ofNat_add, UInt64.ofNat_add, UInt64.add_assoc, UInt64.add_assoc]

namespace Table

def act (t : Table) : Deed → Table
  | .call c => (t.step c).1
  | .refuse => t.tally .rejected
  | .look i => t.counting i

def after (t : Table) (ds : List Deed) : Table := ds.foldl act t

def look? (t : Table) : Deed → Option Look
  | .look i => some ⟨t, i⟩
  | _ => none

/-- The lookups of a run, each on the table it finds. -/
def looks : List Deed → Table → List Look
  | [], _ => []
  | d :: ds, t => (t.look? d).toList ++ looks ds (t.act d)

theorem act_reachable {t : Table} (h : Reachable t) : ∀ (d : Deed), Reachable (t.act d)
  | .call c => step_reachable h c
  | .refuse => h.count .rejected
  | .look i => h.counting i

/-! ## One deed -/

/-- **A lookup that counts is counted for its family**, and for a hit there if it selects a rule. -/
theorem lookupTally?_eq {t : Table} (h : Valid t) (i : ClassifyInput) :
    t.lookupTally? i = if (Look.mk t i).counts then some (.lookup (Look.mk t i).family (Look.mk t i).hits) else none := by
  cases i with
  | frame f | latency f => rfl
  | sawf i =>
    have hempty : t.rules.isEmpty = t.store.isEmpty := Bool.eq_iff_iff.2 (List.isEmpty_iff.trans h.isEmpty_iff.symm)
    have hcounts : (Look.mk t (.sawf i)).counts = t.consults i := congrArg (fun b => i.destDev.isSome && !b) hempty
    rw [hcounts]
    unfold lookupTally?
    dsimp only
    rw [Table.isMatch_classifyFlow]
    rfl
  | scs i | mscs i =>
    unfold lookupTally? classifyScs classifyMscs
    dsimp only
    rw [PriorityDecision.ofHit_priority, Option.isSome_map, Option.isSome_map]
    rfl

theorem stats_counting {t : Table} (h : Valid t) (i : ClassifyInput) (f : Classifier) :
    (t.counting i).counters.stats f = (t.counters.stats f).plus ([Look.mk t i].countP (Look.countsFor f))
      ([Look.mk t i].countP fun x => x.countsFor f && x.hits) := by
  unfold counting
  rw [lookupTally?_eq h]
  cases hc : (Look.mk t i).counts with
  | false => simp [Look.countsFor, hc, MatchStats.plus_zero]
  | true =>
    rw [if_pos rfl]
    show (t.counters.families.modify _ _).get f = _
    rw [PerFamily.get_modify]
    by_cases hf : f = (Look.mk t i).family
    · subst hf
      cases hh : (Look.mk t i).hits <;> simp [Look.countsFor, hc, hh, Counters.stats, MatchStats.plus]
    · simp [Look.countsFor, hf, Ne.symm hf, MatchStats.plus_zero, Counters.stats]

theorem families_step (t : Table) (c : Call) : (t.step c).1.counters.families = t.counters.families := by
  cases c with
  | add r => exact (IsChange.add r).families t
  | delete sel c => exact (IsChange.delete sel c).families t
  | flush c => exact (IsChange.flush c).families t
  | _ => rfl

/-- **A deed counts the lookup it is**, if it is one. -/
theorem stats_act {t : Table} (h : Valid t) (d : Deed) (f : Classifier) :
    (t.act d).counters.stats f = (t.counters.stats f).plus ((t.look? d).toList.countP (Look.countsFor f))
      ((t.look? d).toList.countP fun x => x.countsFor f && x.hits) := by
  cases d with
  | call c => exact (congrArg (PerFamily.get · f) (families_step t c)).trans (MatchStats.plus_zero _).symm
  | refuse => exact (MatchStats.plus_zero _).symm
  | look i => exact stats_counting h i f

/-! ## A run -/

/-- **A family counts its lookups**, as far as 64 bits count. -/
theorem stats_after (f : Classifier) : ∀ (ds : List Deed) {t : Table}, Reachable t →
    (t.after ds).counters.stats f = (t.counters.stats f).plus ((looks ds t).countP (Look.countsFor f))
      ((looks ds t).countP fun x => x.countsFor f && x.hits)
  | [], _, _ => (MatchStats.plus_zero _).symm
  | d :: ds, t, h => by
    rw [looks, List.countP_append, List.countP_append, ← MatchStats.plus_plus, ← stats_act h.valid]
    exact stats_after f ds (act_reachable h d)

/-- From a fresh table on, and as long as no counter overflows, it counts them exactly. -/
theorem stats_after_fresh {config : TableConfig} {plugins : Plugins} {ds : List Deed} {f : Classifier}
    (hfit : (looks ds { config, plugins }).countP (Look.countsFor f) < UInt64.size) :
    let xs := looks ds { config, plugins }
    let s := (after { config, plugins } ds).counters.stats f
    s.lookups.toNat = xs.countP (Look.countsFor f) ∧ s.hits.toNat = xs.countP fun x => x.countsFor f && x.hits := by
  intro xs s
  have hfresh : ({ config, plugins } : Table).counters.stats f = {} := by
    unfold Counters.stats
    exact PerFamily.get_fill _ f
  have hs : s = _ := stats_after f ds (.fresh config plugins)
  have hfit' := (Look.countP_hits_le f xs).trans_lt hfit
  rw [hs, hfresh]
  constructor
  · exact (congrArg UInt64.toNat (UInt64.zero_add _)).trans (UInt64.toNat_ofNat_of_lt hfit)
  · exact (congrArg UInt64.toNat (UInt64.zero_add _)).trans (UInt64.toNat_ofNat_of_lt hfit')

/-- **Every lookup is accounted for.**  In any run on a fresh table in which no family counts more lookups than a counter
holds: the hits of each family are among its lookups, and the misses are the rest; the lookups of all families together are
those of frames and streams, and of flows that leave by a device while there are rules; the hits are those of them that
selected a rule; and the families of the later passes of a flow count a lookup for each hit and no other. -/
theorem lookups_accounted_for (config : TableConfig) (plugins : Plugins) (ds : List Deed)
    (hfit : ∀ f, (looks ds { config, plugins }).countP (Look.countsFor f) < UInt64.size) :
    let xs := looks ds { config, plugins }
    let s := (after { config, plugins } ds).counters.stats
    (∀ f, (s f).hits ≤ (s f).lookups ∧ (s f).misses.toNat + (s f).hits.toNat = (s f).lookups.toNat) ∧
    (Classifier.all.map fun f => (s f).lookups.toNat).sum = xs.countP Look.counts ∧
    (Classifier.all.map fun f => (s f).hits.toNat).sum = xs.countP (fun x => x.counts && x.hits) ∧
    ∀ f, f = .sawfScs ∨ f = .ifli → (s f).lookups = (s f).hits := by
  intro xs s
  have hlookups : ∀ f, (s f).lookups.toNat = xs.countP (Look.countsFor f) := fun f => (stats_after_fresh (hfit f)).1
  have hhits : ∀ f, (s f).hits.toNat = xs.countP fun x => x.countsFor f && x.hits := fun f => (stats_after_fresh (hfit f)).2
  refine ⟨fun f => ?_, ?_, ?_, fun f hf => ?_⟩
  · have hle : (s f).hits ≤ (s f).lookups := by
      rw [UInt64.le_iff_toNat_le, hlookups, hhits]
      exact Look.countP_hits_le f xs
    refine ⟨hle, ?_⟩
    unfold MatchStats.misses
    rw [if_pos hle, UInt64.toNat_sub_of_le _ _ hle]
    exact Nat.sub_add_cancel hle
  · simpa only [hlookups, Bool.and_true] using Look.sum_countsFor (fun _ => true) xs
  · simpa only [hhits] using Look.sum_countsFor Look.hits xs
  · refine UInt64.toNat_inj.1 ?_
    rw [hlookups, hhits]
    refine List.countP_congr fun x _ => ?_
    constructor
    · intro hx
      have hfamily : x.family = f := beq_iff_eq.1 (Bool.and_eq_true_iff.1 hx).1
      rw [hx, Look.hits_of_family (by rwa [hfamily])]
      rfl
    · exact fun hx => (Bool.and_eq_true_iff.1 hx).1

/-- A day with a lookup of each kind, and flows before and after there is a rule for them. -/
def lookedUp : List Deed :=
  [.look (.frame {}), .look (.sawf { destDev := some "eth0" }),
    .call (.add { id := 1, classifier := .scs, flow := { dstPort := some 443 } }),
    .call (.add { classifier := .ifli, flow := { dstPort := some 22 } }),
    .look (.sawf { dstPort := 443, destDev := some "eth0" }), .look (.sawf { dstPort := 443 }),
    .look (.sawf { dstPort := 22, destDev := some "eth0" }), .look (.sawf { dstPort := 80, destDev := some "eth0" }),
    .refuse, .look (.scs { dstPort := 443 }), .call (.delete (.id 1) .scs), .look (.scs { dstPort := 443 }),
    .look (.latency {}), .look (.mscs {})]

theorem lookups_accounted_for_lookedUp :
    let s := (after {} lookedUp).counters.stats
    (looks lookedUp {}).length < UInt64.size ∧
    (Classifier.all.map fun f => (s f).lookups.toNat).sum = 7 ∧ (Classifier.all.map fun f => (s f).hits.toNat).sum = 3 ∧
    ((s .scs).lookups, (s .scs).misses.toNat + (s .scs).hits.toNat) = (2, 2) ∧
    ((s .sawfScs).lookups = (s .sawfScs).hits ∧ (s .ifli).lookups = (s .ifli).hits) := by
  intro s
  have hlength : (looks lookedUp {}).length < UInt64.size := by decide +kernel
  obtain ⟨hmisses, hlookups, hhits, honly⟩ :=
    lookups_accounted_for {} {} lookedUp fun f => List.countP_le_length.trans_lt hlength
  have hscs : (s .scs).lookups = 2 := by decide +kernel
  refine ⟨hlength, hlookups.trans (by decide +kernel), hhits.trans (by decide +kernel), ?_, honly _ (Or.inl rfl),
    honly _ (Or.inr rfl)⟩
  rw [(hmisses .scs).2, hscs]
  rfl

end Table

/-! ## The table of an engine -/

theorem Table.kept_after (t₀ : Table) : Kept fun t => ∃ ds, t = t₀.after ds := by
  have hact : ∀ {t : Table} (d : Deed), (∃ ds, t = t₀.after ds) → ∃ ds, t.act d = t₀.after ds := by
    rintro t d ⟨ds, rfl⟩
    refine ⟨ds ++ [d], ?_⟩
    unfold after
    rw [List.foldl_append]
    rfl
  exact ⟨fun r => hact (.call (.add r)), fun sel c => hact (.call (.delete sel c)), fun c => hact (.call (.flush c)),
    hact .refuse, fun i => hact (.look i), fun plugins => hact (.call (.plug plugins))⟩

/-- **The table of an engine is the table after a run**, whatever its observers do. -/
theorem Engine.built_after (config : TableConfig) (plugins : Plugins) (observers : List String) (rules : List Rule)
    (cs : List Command) : ∃ ds, (performAll cs (build config plugins observers rules).1).table =
      Table.after { config, plugins } ds :=
  performAll_keeps (Table.kept_after _) cs (addAll_keeps (Table.kept_after _) rules ⟨[], rfl⟩)

end TrafficRules
