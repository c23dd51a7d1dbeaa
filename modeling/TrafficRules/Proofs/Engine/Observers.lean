import TrafficRules.Proofs.Engine.Transcript
/-!
# Observers — what observers do has no part in what callers get

The same operations on the same table, once observed and once not, run side by side: the tables differ in what they
count and in nothing else (`Unobserved`).  That rests on the hold of the writer: it begins before the first check and
ends after the last observer, and in it a change is turned away before it looks at anything (`performWith_refused`).
-/
namespace TrafficRules

namespace Command

/-- Operations on rules, and lookups that show nothing but rules. -/
def isOperation : Command → Bool
  | .add _ | .update _ | .delete _ _ | .flush _ | .apply _ => true
  | .query _ _ | .queryByType _ | .classify _ | .rules | .dump | .isEmpty | .chain _ | .config => true
  | _ => false

/-- How a change is turned away in the hold of a writer. -/
def refusal? : Command → Option Reply
  | .add _ | .delete _ _ => some (.update (.error .concurrentWriteRejected))
  | .flush _ => some (.flushed (.error .concurrentWriteRejected))
  | .update q =>
    match AdminCommand.ofCode? q.command with
    | some .add | some .delete => some (.request q.rule.id (.error .concurrentWriteRejected))
    | _ => none
  | _ => none

end Command

/-- A rule set stops at an error that an addition gave. -/
theorem RuleSet.applyTo_answers {σ : Type} {Q : σ → Prop} {add : σ → Rule → σ × UpdateResult} {err : UpdateError}
    (hadd : ∀ s r, Q s → Q (add s r).1 ∧ (add s r).2 ≠ .error err) (id : UInt32) :
    ∀ (es : List RuleEntry) (sum : ApplySummary) (s : σ), Q s → (applyTo add es sum s).2 ≠ .error (.notInstalled id err)
  | [], _, _, _ => fun h => by cases h
  | e :: es, sum, s, hs => by
    obtain ⟨hnext, hres⟩ := hadd s e.rule hs
    rw [applyTo]
    split
    · rcases hr : add s e.rule with ⟨s', err' | _ | _ | _ | _⟩ <;> rw [hr] at hnext hres
      · intro h
        cases h
        exact hres rfl
      all_goals exact applyTo_answers hadd id es _ s' hnext
    · exact applyTo_answers hadd id es _ s hs

namespace Engine

variable {tell tell' : Event → Engine → Engine} {e e' b : Engine}

/-! ## In hold -/

/-- The engine with one more writer turned away. -/
def rejecting (e : Engine) : Engine :=
  { e with table := { e.table with counters := { e.table.counters with rejections := e.table.counters.rejections + 1 } } }

/-- **A change in the hold of a writer** is turned away and counted, whoever would be told. -/
theorem performWith_refused (hb : e.busy = true) {c : Command} {reply : Reply} (hc : c.refusal? = some reply) :
    performWith tell c e = (e.rejecting, reply) := by
  cases c with
  | add r =>
    cases hc
    show (e.write tell (·.add r)).map id Reply.update = _
    rw [write_busy hb]
    rfl
  | delete sel c =>
    cases hc
    show (e.write tell (·.delete sel c)).map id Reply.update = _
    rw [write_busy hb]
    rfl
  | flush c =>
    cases hc
    show (e.write tell (·.flush c)).map id Reply.flushed = _
    rw [write_busy hb]
    rfl
  | update q =>
    show (e.update tell q).map id (Reply.request q.rule.id) = _
    unfold Command.refusal? at hc
    unfold update
    dsimp only at hc
    split at hc
    · rename_i hcode
      cases hc
      rw [hcode]
      dsimp only
      rw [write_busy hb]
      rfl
    · rename_i hcode
      cases hc
      rw [hcode]
      dsimp only
      rw [write_busy hb]
      rfl
    · cases hc
  | _ => cases hc

theorem Held.plugins {t : Table} (h : Held t e) {c : Command} (hc : c.isPlain = true) :
    (Engine.performWith tell c e).1.table.plugins = e.table.plugins := by
  cases hch : c.isChange with
  | true =>
    have hboth : Held t (Engine.performWith tell c e).1 ∧ (Engine.performWith tell c e).1.table.plugins = e.table.plugins := by
      refine performWith_of_change (Q := fun e' => Held t e' ∧ e'.table.plugins = e.table.plugins)
        (fun _ e' he => ⟨he.1.write, ?_⟩) hch ⟨h, rfl⟩
      rw [write_busy he.1.busy]
      exact he.2
    exact hboth.2
  | false =>
    rcases (performWith_other hch).2.2 with htable | ⟨i, htable⟩ | ⟨hplain, -⟩
    · rw [htable]
    · obtain ⟨counted, hcounted⟩ := e.table.counting_eq i
      rw [htable, hcounted]
    · rw [hc] at hplain
      cases hplain

/-- Plain callbacks change nothing of a table but what it counts. -/
theorem Within.counted (h : Within Command.isPlain e e') (hb : e.busy = true) :
    ∃ counters, e'.table = { e.table with counters } := by
  have hplugins : e'.table.plugins = e.table.plugins := by
    induction h with
    | start => rfl
    | note ns _ ih => exact ih
    | perform hc hw ih => exact ((hw.held hb).plugins (Command.of_all hc)).trans ih
  obtain ⟨-, counters, plugins, htable⟩ := h.held hb
  rw [htable] at hplugins ⊢
  obtain rfl : plugins = e.table.plugins := hplugins
  exact ⟨counters, rfl⟩

/-! ## Between commands -/

theorem write_answers (hi : e.busy = false) {α : Type} {change : Table → Transition α} (hch : Table.IsChange change) :
    (e.write tell change).2 ≠ .error .concurrentWriteRejected := by
  rw [reply_write hi]
  exact hch.answers e.table

theorem query_not_rejected (t : Table) (sel : Selector) (c : Classifier) : t.query sel c ≠ .error .concurrentWriteRejected := by
  rw [Table.query_eq]
  split
  · simp
  · split <;> simp

/-- **Between commands no change is turned away.** -/
theorem performWith_answers (hi : e.busy = false) (c : Command) :
    (performWith tell c e).2.error? ≠ some .concurrentWriteRejected := by
  cases c with
  | add r => exact mt Reply.error_update.1 (write_answers hi (.add r))
  | delete sel c => exact mt Reply.error_update.1 (write_answers hi (.delete sel c))
  | flush c => exact mt Reply.error_flushed.1 (write_answers hi (.flush c))
  | query sel c => exact mt Reply.error_rule.1 (query_not_rejected e.table sel c)
  | queryByType c =>
    refine mt Reply.error_listing.1 ?_
    unfold Table.queryByType
    split
    · simp
    · split <;> simp
  | update q =>
    show (Reply.request q.rule.id (e.update tell q).2).error? ≠ _
    refine mt Reply.error_request.1 ?_
    unfold update
    split
    · simp
    · exact write_answers hi (.add q.rule)
    · exact write_answers hi (.delete q.rule.selector q.rule.classifier)
    · have hquery := query_not_rejected e.table q.rule.selector q.rule.classifier
      cases hres : e.table.query q.rule.selector q.rule.classifier with
      | error err =>
        rw [hres] at hquery
        exact fun h => hquery (congrArg Except.error (Except.error.inj h))
      | ok r => exact fun h => by cases h
  | apply s =>
    have hres : ∀ id, (RuleSet.applyTo (fun e r => e.write tell (·.add r)) s.rules {} e).2 ≠
        .error (.notInstalled id .concurrentWriteRejected) :=
      fun id => RuleSet.applyTo_answers (Q := fun e : Engine => e.busy = false)
        (fun e r he => ⟨by rw [write_idle he], write_answers he (.add r)⟩) id s.rules {} e hi
    exact mt Reply.error_applied.1 fun ⟨id, h⟩ => hres id h
  | registerPlugin c v =>
    unfold performWith
    dsimp only
    split <;> exact fun h => by cases h
  | _ => exact fun h => by cases h

theorem transcript_idle : ∀ (cs : List Command) {e : Engine}, e.busy = false →
    ∀ s ∈ transcript tell cs e, s.1.busy = false ∧ s.2.error? ≠ some .concurrentWriteRejected
  | [], _, _, _, hs => by cases hs
  | c :: cs, _, hi, s, hs => by
    rcases List.mem_cons.1 hs with rfl | hs
    · exact ⟨performWith_idle hi c, performWith_answers hi c⟩
    · exact transcript_idle cs (performWith_idle hi c) s hs

/-! ## Side by side -/

/-- Two engines between commands, one with observers that leave the plugins alone and one with none, over tables that
differ in what they count and in nothing else. -/
structure Unobserved (e b : Engine) : Prop where
  idle : e.busy = false
  obeys : e.Obeys Command.isPlain
  bare : b.busy = false
  alone : b.notifier.observers = []
  table : ∃ counters, b.table = { e.table with counters }

theorem announced_alone (h : b.notifier.observers = []) {α : Type} (change : Table → Transition α) :
    announced Engine.tell change b = b.published change := by
  unfold announced
  split
  · rfl
  · show (b.notifier.observers.foldl _ (b.published change)) = _
    rw [h]
    rfl

namespace Unobserved

variable (ht : Leads Command.isPlain tell) (h : Unobserved e b)
include ht h

theorem write {α : Type} {change : Table → Transition α} (hch : Table.IsChange change) :
    Unobserved (e.write tell change).1 (b.write Engine.tell change).1 ∧
      (e.write tell change).2 = (b.write Engine.tell change).2 := by
  have hobeys : (e.write tell change).1.Obeys Command.isPlain :=
    (ofRoster_obeys _).write ((ofRoster_obeys _).led ht) h.obeys
  obtain ⟨counters, htable⟩ := h.table
  obtain ⟨counters', hsame⟩ := hch.counters e.table counters
  rw [← htable] at hsame
  obtain ⟨counted, hcounted⟩ := (ht.announced h.obeys change).counted rfl
  rw [write_idle h.idle] at hobeys ⊢
  rw [write_idle h.bare, announced_alone h.alone]
  refine ⟨⟨rfl, hobeys, rfl, h.alone, counters', ?_⟩, ?_⟩
  · show (change b.table).table = { (announced tell change e).table with counters := counters' }
    rw [hsame, hcounted]
    rfl
  · show (change e.table).result = (change b.table).result
    rw [hsame]

theorem performWith {c : Command} (hc : c.isOperation = true) :
    Unobserved (performWith tell c e).1 (performWith Engine.tell c b).1 ∧
      (Engine.performWith tell c e).2 = (Engine.performWith Engine.tell c b).2 := by
  obtain ⟨counters, htable⟩ := h.table
  cases hch : c.isChange with
  | true =>
    refine performWith_related (fun hch _ _ he => he.write ht hch) (fun he => ?_) hch h
    obtain ⟨counters, htable⟩ := he.table
    rw [htable]
    rfl
  | false =>
    cases c with
    | add _ | update _ | delete _ _ | flush _ | apply _ => cases hch
    | classify i =>
      obtain ⟨counted, hcounted⟩ := e.table.counting_eq i
      obtain ⟨counted', hcounted'⟩ := b.table.counting_eq i
      refine ⟨⟨h.idle, h.obeys, h.bare, h.alone, counted', ?_⟩, ?_⟩
      · show b.table.counting i = { e.table.counting i with counters := counted' }
        rw [hcounted', hcounted, htable]
      · show Reply.decided (e.table.decide i) = Reply.decided (b.table.decide i)
        rw [htable]
        cases i <;> rfl
    | query _ _ | queryByType _ | rules | dump | isEmpty | chain _ | config =>
      obtain ⟨table, _, _, _, _, _⟩ := b
      obtain rfl : table = { e.table with counters } := htable
      exact ⟨h, rfl⟩
    | _ => cases hc

end Unobserved

/-- **The same replies and the same rules**, observed or not. -/
theorem transcript_unobserved (ht : Leads Command.isPlain tell) : ∀ (cs : List Command),
    (∀ c ∈ cs, c.isOperation = true) → ∀ {e b : Engine}, Unobserved e b →
    (transcript tell cs e).map (fun s => (s.2, s.1.table.store)) =
      (transcript Engine.tell cs b).map fun s => (s.2, s.1.table.store)
  | [], _, _, _, _ => rfl
  | c :: cs, hcs, e, b, h => by
    obtain ⟨hc, hcs⟩ := List.forall_mem_cons.1 hcs
    obtain ⟨hnext, hreply⟩ := h.performWith ht hc
    have hstore : (performWith tell c e).1.table.store = (performWith Engine.tell c b).1.table.store := by
      obtain ⟨counters, htable⟩ := hnext.table
      rw [htable]
    rw [transcript, transcript, List.map_cons, List.map_cons, hreply, hstore, transcript_unobserved ht cs hcs hnext]

/-- Who is told matters in the hold of a writer only. -/
theorem performWith_told (htell : ∀ event e, e.busy = true → tell' event e = tell event e) (c : Command) (e : Engine) :
    performWith tell' c e = performWith tell c e := by
  have hw : ∀ {β : Type} (change : Table → Transition β) (e : Engine), e.write tell' change = e.write tell change := by
    intro β change e
    cases hb : e.busy with
    | true => rw [write_busy hb, write_busy hb]
    | false =>
      have ha : announced tell' change e = announced tell change e := by
        unfold announced
        split
        · rfl
        · exact htell _ _ rfl
      rw [write_idle hb, write_idle hb, ha]
  unfold performWith update
  simp only [hw]

theorem transcript_told (htell : ∀ event e, e.busy = true → tell' event e = tell event e) :
    ∀ (cs : List Command) (e : Engine), transcript tell' cs e = transcript tell cs e
  | [], _ => rfl
  | c :: cs, e => by
    rw [transcript, transcript, performWith_told htell, transcript_told htell cs]

/-- **Observers cannot influence the table.**  Between commands and with observers that leave the plugins alone, whatever
else they ask for when told: every operation is answered as with no observers at all, over the same rules; after every
command the table is free, and no command was turned away for another writer; observers are told in the hold of the
writer only; and in it no rule moves, and every change is turned away, told to nobody and counted as one rejection. -/
theorem observers_cannot_influence (ht : Leads Command.isPlain tell) (hi : e.busy = false) (ho : e.Obeys Command.isPlain) :
    (∀ cs, (∀ c ∈ cs, c.isOperation = true) →
      (transcript tell cs e).map (fun s => (s.2, s.1.table.store)) =
        (transcript Engine.tell cs { table := e.table }).map fun s => (s.2, s.1.table.store)) ∧
    (∀ cs, ∀ s ∈ transcript tell cs e, s.1.busy = false ∧ s.2.error? ≠ some .concurrentWriteRejected) ∧
    (∀ tell', (∀ event e, e.busy = true → tell' event e = tell event e) → ∀ cs, transcript tell' cs e = transcript tell cs e) ∧
    ∀ e₀ e₁, e₀.busy = true → Within Command.isPlain e₀ e₁ →
      e₁.busy = true ∧ e₁.table.store = e₀.table.store ∧
      ∀ c reply, c.refusal? = some reply → ∀ tell', performWith tell' c e₁ = (e₁.rejecting, reply) := by
  refine ⟨fun cs hcs => ?_, fun cs => transcript_idle cs hi, fun tell' htell cs => transcript_told htell cs e,
    fun e₀ e₁ hb hw => ?_⟩
  · have hstart : Unobserved e { table := e.table } := ⟨hi, ho, rfl, rfl, e.table.counters, rfl⟩
    exact transcript_unobserved ht cs hcs hstart
  · have hheld := hw.held hb
    exact ⟨hheld.busy, hheld.store, fun c reply hc tell' => performWith_refused hheld.busy hc⟩

def watched : Engine := ({} : Engine).observe ⟨"first", meddling⟩

/-- Operations that succeed, and fail at one check after another. -/
def errands : List Command :=
  [.add { id := 1, classifier := .scs }, .add { id := 1, classifier := .scs, precedence := 3 }, .classify (.scs {}),
    .add { id := 5, classifier := .sawf, wlan := some {} }, .delete (.id 9) .scs, .delete (.id 1) .scs, .delete (.id 1) .scs,
    .flush none]

theorem observers_cannot_influence_watched :
    Leads Command.isPlain Engine.tell ∧ watched.busy = false ∧ watched.Obeys Command.isPlain ∧
    (transcript Engine.tell errands watched).map (fun s => (s.2, s.1.table.store)) =
      (transcript Engine.tell errands { table := watched.table }).map (fun s => (s.2, s.1.table.store)) ∧
    (transcript Engine.tell errands watched).map (·.1.table.counters.rejections) = [3, 4, 4, 4, 4, 5, 5, 5] := by
  have ht := leads_tell Command.isPlain
  have ho : watched.Obeys Command.isPlain := by
    show ∀ q ∈ watched.notifier.observers, ∀ c ∈ q.2.reactions, c.all Command.isPlain = true
    decide +kernel
  obtain ⟨hsame, -⟩ := observers_cannot_influence (e := watched) ht rfl ho
  exact ⟨ht, rfl, ho, hsame errands (by decide +kernel), by decide +kernel⟩

end Engine
end TrafficRules
