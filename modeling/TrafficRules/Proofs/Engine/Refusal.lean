import TrafficRules.Proofs.Engine.Keeps
import TrafficRules.Proofs.Engine.Transcript
import TrafficRules.Proofs.Table.Answers
/-!
# Refusal — when an operation fails, and that nothing comes of it

What a table answers an addition, a deletion and a query settles when each fails (`Table.add_answers`,
`Table.named_answers`).  An operation that fails leaves the engine as it was but for a note of the validator it asked, so
whatever comes after it is as if it had not been asked for (`errors_exact_and_atomic`).
-/
namespace TrafficRules

namespace Engine

variable {tell : Event → Engine → Engine} {e : Engine} {α : Type} {change : Table → Transition α}

theorem write_failed (hch : Table.IsChange change) (hi : e.busy = false) {err : UpdateError}
    (he : (e.write tell change).2 = .error err) :
    (e.write tell change).1 = e.note ((change e.table).consulted.map .consulted) := by
  rw [reply_write hi] at he
  obtain ⟨htable, hevent⟩ := hch.of_error he
  rw [write_idle hi]
  show { announced tell change e with busy := false } = _
  unfold announced published
  rw [hevent, htable]
  obtain ⟨table, busy, notifier, names, held, notes⟩ := e
  obtain rfl : busy = false := hi
  rfl

theorem note_nil (e : Engine) : e.note [] = e := by
  unfold note
  rw [List.append_nil]

/-- **Nothing comes of an operation that fails** but a note of the validator it asked. -/
theorem performWith_failed (hi : e.busy = false) {c : Command} (hc : ∀ s, c ≠ .apply s) {err : UpdateError}
    (he : (performWith tell c e).2.error? = some err) :
    ∃ calls : List Consultation, (performWith tell c e).1 = e.note (calls.map .consulted) := by
  cases c with
  | add r => exact ⟨_, write_failed (.add r) hi (Reply.error_update.1 he)⟩
  | delete sel c => exact ⟨_, write_failed (.delete sel c) hi (Reply.error_update.1 he)⟩
  | flush c => exact ⟨_, write_failed (.flush c) hi (Reply.error_flushed.1 he)⟩
  | update q =>
    have he : (e.update tell q).2 = .error err := Reply.error_request.1 he
    show ∃ calls : List Consultation, (e.update tell q).1 = _
    unfold update at he ⊢
    cases hcode : AdminCommand.ofCode? q.command with
    | none => exact ⟨[], (note_nil e).symm⟩
    | some op =>
      rw [hcode] at he
      cases op with
      | add => exact ⟨_, write_failed (.add q.rule) hi he⟩
      | delete => exact ⟨_, write_failed (.delete q.rule.selector q.rule.classifier) hi he⟩
      | query => exact ⟨[], (note_nil e).symm⟩
  | query sel c => exact ⟨[], (note_nil e).symm⟩
  | queryByType c => exact ⟨[], (note_nil e).symm⟩
  | apply s => exact absurd rfl (hc s)
  | registerPlugin c v =>
    unfold performWith at he
    dsimp only at he
    split at he <;> cases he
  | _ => cases he

/-- **Errors are exact and atomic.**  Between commands, an addition fails for want of room whatever the rule, then for a
fault of the rule or for the validator's, and else stores the rule; a deletion and a query fail on an empty table, then
for a rule that is not there; a flush does not fail.  And an operation that fails is as if it had not been asked for: the
engine is left with a note of the calls of the validator at most, and any run from there shows what it would have shown. -/
theorem errors_exact_and_atomic {e : Engine} (h : e.table.Reachable) (hi : e.busy = false) :
    (∀ r : Rule,
      ((∃ n, (e.perform (.add r)).2 = .update (.error (.tableFull n))) ↔ e.table.Full) ∧
      (e.table.Full → e.perform (.add r) = (e, .update (.error (.tableFull e.table.config.maxRules)))) ∧
      ((∃ reason, (e.perform (.add r)).2 = .update (.error (.invalidEntry reason))) ↔ ¬ e.table.Full ∧ e.table.Unfit r) ∧
      ((∃ key, (e.perform (.add r)).2 = .update (.ok (.modified key))) ↔
        ¬ e.table.Full ∧ ¬ e.table.Unfit r ∧ ∃ old, e.table.store.findSame (e.table.incoming r) = some old) ∧
      ((∃ key, (e.perform (.add r)).2 = .update (.ok (.added key))) ↔
        ¬ e.table.Full ∧ ¬ e.table.Unfit r ∧ e.table.store.findSame (e.table.incoming r) = none)) ∧
    (∀ (sel : Selector) (c : Classifier),
      ((e.perform (.delete sel c)).2 = .update (.error .tableEmpty) ↔ e.table.rules = []) ∧
      ((∃ id f, (e.perform (.delete sel c)).2 = .update (.error (.ruleNotFound id f))) ↔
        e.table.rules ≠ [] ∧ e.table.store.find sel c = none) ∧
      ((e.perform (.delete sel c)).2 = .update (.ok .deleted) ↔ e.table.rules ≠ [] ∧ ∃ n, e.table.store.find sel c = some n) ∧
      ((e.perform (.query sel c)).2 = .rule (.error .tableEmpty) ↔ e.table.rules = []) ∧
      ((∃ id f, (e.perform (.query sel c)).2 = .rule (.error (.ruleNotFound id f))) ↔
        e.table.rules ≠ [] ∧ e.table.store.find sel c = none) ∧
      ∀ r, (e.perform (.query sel c)).2 = .rule (.ok r) ↔
        e.table.rules ≠ [] ∧ ∃ n, e.table.store.find sel c = some n ∧ n.rule = r) ∧
    (∀ c, ∃ n, (e.perform (.flush c)).2 = .flushed (.ok n)) ∧
    ∀ c err, (∀ s, c ≠ .apply s) → (e.perform c).2.error? = some err →
      (∃ calls : List Consultation, (e.perform c).1 = e.note (calls.map .consulted)) ∧
      (e.perform c).1.table = e.table ∧ (e.perform c).1.deliveries = e.deliveries ∧
      ∀ cs, (transcript Engine.tell cs (e.perform c).1).map shown = (transcript Engine.tell cs e).map shown := by
  refine ⟨fun r => ?_, fun sel c => ?_, fun c => ?_, fun c err hc he => ?_⟩
  · have hreply : (e.perform (.add r)).2 = .update (e.table.add r).result := reply_add hi r
    rw [hreply]
    rcases e.table.add_answers r with ⟨hfull, hadd⟩ | ⟨hfull, hunfit, reason, hres⟩ | ⟨hfull, hfit, ⟨old, key, hf, hres⟩ | ⟨key, hf, hres⟩⟩
    · have hfail : (e.perform (.add r)).2 = .update (.error (.tableFull e.table.config.maxRules)) := by rw [hreply, hadd]
      refine ⟨by simp [hadd, hfull], fun _ => Prod.ext ?_ hfail, by simp [hadd, hfull], by simp [hadd, hfull], by simp [hadd, hfull]⟩
      have hres : (e.write Engine.tell (·.add r)).2 = .error (.tableFull e.table.config.maxRules) := by
        rw [reply_write hi, hadd]
      show (e.write Engine.tell (·.add r)).1 = e
      rw [write_failed (.add r) hi hres, hadd]
      exact note_nil e
    · simp [hres, hfull, hunfit]
    · simp [hres, hfull, hfit, hf]
    · simp [hres, hfull, hfit, hf]
  · have hdelete : (e.perform (.delete sel c)).2 = .update (e.table.delete sel c).result := reply_delete hi sel c
    have hquery : (e.perform (.query sel c)).2 = .rule (e.table.query sel c) := rfl
    rw [hdelete, hquery]
    rcases Table.named_answers h.valid sel c with ⟨hr, hd, hq⟩ | ⟨hr, hf, hd, hq⟩ | ⟨hr, n, hf, hd, hq⟩
    · simp [hr, hd, hq]
    · simp [hr, hf, hd, hq]
    · simp [hr, hf, hd, hq]
  · have hflush : (e.perform (.flush c)).2 = .flushed (e.table.flush c).result := reply_flush hi c
    rw [hflush]
    rcases e.table.flush_cases c with ⟨-, hres, -⟩ | ⟨hres, -⟩
    · exact ⟨_, by rw [hres]⟩
    · exact ⟨_, by rw [hres]⟩
  · obtain ⟨calls, hcalls⟩ := performWith_failed hi hc he
    have hcalls : (e.perform c).1 = e.note (calls.map .consulted) := hcalls
    have hquiet := deliveries_consulted e calls
    refine ⟨⟨calls, hcalls⟩, by rw [hcalls]; rfl, by rw [hcalls, hquiet], fun cs => ?_⟩
    rw [hcalls]
    exact shown_note ignoresNotes_tell hquiet cs

/-- One rule in a table for two, an observer, and no validator to ask. -/
def halfFull : Engine := performAll [.add { id := 1, classifier := .scs }] (build { maxRules := 2 } {} ["first"] []).1

/-- A wireless rule. -/
def overWireless : Rule := { id := 5, classifier := .sawf, wlan := some {} }

theorem errors_exact_and_atomic_halfFull : halfFull.table.Reachable ∧ halfFull.busy = false ∧
    (∃ reason, (halfFull.perform (.add overWireless)).2 = .update (.error (.invalidEntry reason))) ∧
    (∃ key, (halfFull.perform (.add { id := 1, classifier := .scs, precedence := 9 })).2 = .update (.ok (.modified key))) ∧
    (∃ id f, (halfFull.perform (.query (.id 9) .scs)).2 = .rule (.error (.ruleNotFound id f))) ∧
    (halfFull.perform (.add overWireless)).1.table = halfFull.table := by
  have h : halfFull.table.Reachable := built_reachable { maxRules := 2 } {} ["first"] [] _
  have hi : halfFull.busy = false := performAllWith_idle _ rfl
  have hroom : ¬ halfFull.table.Full := by
    show ¬ halfFull.table.config.maxRules.toNat ≤ halfFull.table.size
    decide +kernel
  have hfault : Rule.fault? { id := 1, classifier := .scs, precedence := 9 } = none := by decide
  have hscs : ¬ halfFull.table.Unfit { id := 1, classifier := .scs, precedence := 9 } := by
    rintro (hf | ⟨w, hc, -⟩)
    · rw [hfault] at hf
      cases hf
    · cases hc
  have hrefused : halfFull.table.Unfit overWireless := Or.inr ⟨{}, rfl, rfl, fun v hv => by cases hv⟩
  obtain ⟨hadd, hnamed, -, hatomic⟩ := errors_exact_and_atomic h hi
  obtain ⟨reason, hreason⟩ := (hadd overWireless).2.2.1.2 ⟨hroom, hrefused⟩
  exact ⟨h, hi, ⟨reason, hreason⟩, (hadd _).2.2.2.1.2 ⟨hroom, hscs, _, rfl⟩,
    (hnamed _ _).2.2.2.2.1.2 ⟨by decide +kernel, rfl⟩, (hatomic (.add overWireless) _ (fun s h => by cases h) (by rw [hreason]; rfl)).2.1⟩

end Engine
end TrafficRules
