import TrafficRules.Proofs.Engine.Keeps
import TrafficRules.Proofs.Table.RoundTrip
/-!
# Request — one rule, three commands

A request names a rule and says what to do with it.  Its query and its deletion go by the selector of the rule, its
addition by what the rule stands for; but for a flow-keyed rule with an id the two come to one node.  So an addition
modifies what a query before it would have found and a deletion in its stead would have taken away (`requests_agree`).
-/
namespace TrafficRules

def Command.request (op : AdminCommand) (r : Rule) : Command := .update ⟨op.code, r⟩

namespace Engine

variable {e : Engine} {r : Rule}

theorem reply_request_query (e : Engine) (r : Rule) : (e.perform (.request .query r)).2 =
    .request r.id ((e.table.query r.selector r.classifier).map .found) := rfl

theorem reply_request_add (hi : e.busy = false) (r : Rule) :
    (e.perform (.request .add r)).2 = .request r.id (e.table.add r).result := by
  show Reply.request r.id (e.write tell (·.add r)).2 = _
  rw [reply_write hi]

theorem reply_request_delete (hi : e.busy = false) (r : Rule) :
    (e.perform (.request .delete r)).2 = .request r.id (e.table.delete r.selector r.classifier).result := by
  show Reply.request r.id (e.write tell (·.delete r.selector r.classifier)).2 = _
  rw [reply_write hi]

theorem store_request_add (hi : e.busy = false) (r : Rule) :
    (e.perform (.request .add r)).1.table.store = (e.table.add r).table.store :=
  store_write (leads_tell _) hi (·.add r)

theorem store_request_delete (hi : e.busy = false) (r : Rule) :
    (e.perform (.request .delete r)).1.table.store = (e.table.delete r.selector r.classifier).table.store :=
  store_write (leads_tell _) hi (·.delete r.selector r.classifier)

theorem idle_of_request_add {o : Outcome} (ho : (e.perform (.request .add r)).2 = .request r.id (.ok o)) : e.busy = false := by
  cases hb : e.busy with
  | false => rfl
  | true =>
    have hrefused : (e.perform (.request .add r)).2 = .request r.id (.error .concurrentWriteRejected) := by
      show Reply.request r.id (e.write tell (·.add r)).2 = _
      rw [write_busy hb]
    cases ho.symm.trans hrefused

/-- **The three commands mean one node.**  In any reachable state, and for any rule but a flow-keyed one with an id, the
selector of the rule finds the node that an addition of the rule stands for, and neither finds one when the other does not.
So an addition that succeeds modifies exactly when a query before it finds a rule and a deletion in its stead deletes one;
and then the rule that was found is the one that the deletion takes away and the addition replaces: the addition leaves
what the deletion would have left, and the node that is new. -/
theorem requests_agree {e : Engine} (h : e.table.Reachable) {r : Rule} (hr : r.classifier = .ifli → r.id = noRuleId) :
    (∀ k, e.table.store.find r.selector r.classifier = e.table.store.findSame (Node.ofRule k r)) ∧
    ∀ o, (e.perform (.request .add r)).2 = .request r.id (.ok o) →
      ((∃ key, o = .modified key) ↔ ∃ x, (e.perform (.request .query r)).2 = .request r.id (.ok (.found x))) ∧
      ((∃ key, o = .modified key) ↔ (e.perform (.request .delete r)).2 = .request r.id (.ok .deleted)) ∧
      ((∃ key, o = .modified key) → ∃ old ∈ e.table.store.nodes,
        e.table.store.findSame (e.table.incoming r) = some old ∧
        (e.perform (.request .query r)).2 = .request r.id (.ok (.found old.rule)) ∧
        (e.perform (.request .delete r)).1.table.store.nodes = Node.removeFrom old e.table.store.nodes ∧
        (∀ k, (e.perform (.request .delete r)).1.table.store.index.chain k = Node.removeFrom old (e.table.store.index.chain k)) ∧
        ∀ m, m ∈ (e.perform (.request .add r)).1.table.store.nodes ↔
          m = e.table.incoming r ∨ m ∈ (e.perform (.request .delete r)).1.table.store.nodes) := by
  refine ⟨fun k => e.table.store.find_selector k hr, fun o ho => ?_⟩
  have hi := idle_of_request_add ho
  have hfind := e.table.store.find_selector e.table.nextSerial hr
  rw [reply_request_add hi, Reply.request.injEq] at ho
  rw [reply_request_delete hi, store_request_delete hi, store_request_add hi, Table.store_of_accepted ho.2, reply_request_query]
  rcases Table.add_outcome ho.2 with ⟨hnone, key, rfl⟩ | ⟨old, hold, key, rfl⟩
  · have hfind : e.table.store.find r.selector r.classifier = none := hfind.trans hnone
    rcases Table.named_answers h.valid r.selector r.classifier with ⟨-, hd, hq⟩ | ⟨-, -, hd, hq⟩ | ⟨-, n, hn, -⟩
    · simp [hd, hq, Except.map]
    · simp [hd, hq, Except.map]
    · cases hfind.symm.trans hn
  · have hfind : e.table.store.find r.selector r.classifier = some old := hfind.trans hold
    have hquery := (Table.query_eq_ok_iff h.valid).2 ⟨old, hfind, rfl⟩
    obtain ⟨hdeleted, hnodes, hchains⟩ := Table.delete_of_found h.valid hfind
    rw [hquery, hdeleted, hnodes]
    have hput := h.valid.store.put_perm_of_found hold
    exact ⟨⟨fun _ => ⟨old.rule, rfl⟩, fun _ => ⟨key, rfl⟩⟩, ⟨fun _ => rfl, fun _ => ⟨key, rfl⟩⟩, fun _ =>
      ⟨old, (h.valid.store.of_find hfind).1, hold, rfl, rfl, hchains, fun m => by rw [hput.mem_iff, List.mem_cons]⟩⟩

/-- A flow-keyed rule with an id, which requests about a rule of its tuple without an id mean. -/
def namedFlow : Engine :=
  performAll [.add { id := 5, classifier := .ifli, flow := { dstPort := some 2 } }] (build {} {} ["first"] []).1

theorem requests_agree_namedFlow : namedFlow.table.Reachable ∧
    (∃ key, (namedFlow.perform (.request .add { classifier := .ifli, flow := { dstPort := some 2 } })).2 =
      .request noRuleId (.ok (.modified key))) ∧
    (namedFlow.perform (.request .delete { classifier := .ifli, flow := { dstPort := some 2 } })).2 =
      .request noRuleId (.ok .deleted) ∧
    namedFlow.table.store.find (.flow { dstPort := 2 }) .ifli =
      namedFlow.table.store.findSame (Node.ofRule 1 { classifier := .ifli, flow := { dstPort := some 2 } }) := by
  have h : namedFlow.table.Reachable := built_reachable {} {} ["first"] [] _
  have hadd : (namedFlow.perform (.request .add { classifier := .ifli, flow := { dstPort := some 2 } })).2 =
      .request noRuleId (.ok (.modified (some 2))) := by rfl
  obtain ⟨hfind, hall⟩ := requests_agree (r := { classifier := .ifli, flow := { dstPort := some 2 } }) h fun _ => rfl
  exact ⟨h, ⟨some 2, hadd⟩, (hall _ hadd).2.1.1 ⟨some 2, rfl⟩, hfind 1⟩

end Engine
end TrafficRules
