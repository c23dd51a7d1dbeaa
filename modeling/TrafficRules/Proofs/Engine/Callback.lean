import TrafficRules.Engine
import TrafficRules.Proofs.Table.Change
/-!
# Callback — what happens while observers are told

An idle engine carries a change out in three steps (`write_idle`): the table is published with a writer in hold of it,
the observers are told, the writer lets go.  `Within` is what an observer can bring about meanwhile, by notes and
commands it chooses as it likes; the engine's own way of telling is of this kind (`leads_tell`).  In the hold of a
writer every change is turned away untold, so none of this reaches the store (`Within.held`).
-/
namespace TrafficRules

mutual

/-- A check of a command and of every command of the observers it registers. -/
def Command.all (ok : Command → Bool) : Command → Bool
  | .observe name reactions => ok (.observe name reactions) && Command.allOf ok reactions
  | c => ok c

def Command.allOf (ok : Command → Bool) : List Command → Bool
  | [] => true
  | c :: cs => c.all ok && Command.allOf ok cs

end

namespace Command

theorem allOf_iff (ok : Command → Bool) : ∀ (cs : List Command), allOf ok cs = true ↔ ∀ c ∈ cs, c.all ok = true
  | [] => by simp [allOf]
  | c :: cs => by simp [allOf, allOf_iff ok cs]

mutual

theorem all_true : ∀ (c : Command), c.all (fun _ => true) = true
  | .observe _ reactions => by
    rw [all, allOf_true reactions]
    rfl
  | .add _ | .update _ | .delete _ _ | .query _ _ | .queryByType _ | .flush _ | .apply _ | .classify _ | .rules | .dump
  | .describe | .config | .isEmpty | .counters | .chain _ | .hold _ | .held _ | .unobserve _ | .registerPlugin _ _
  | .unregisterPlugin _ | .pluginSlots | .pluginValidate _ | .pluginQuery _ | .unreadable _ => rfl

theorem allOf_true : ∀ (cs : List Command), allOf (fun _ => true) cs = true
  | [] => rfl
  | c :: cs => by
    rw [allOf, all_true c, allOf_true cs]
    rfl

end

theorem of_all {ok : Command → Bool} : ∀ {c : Command}, c.all ok = true → ok c = true
  | .observe _ _, h => by
    rw [all, Bool.and_eq_true] at h
    exact h.1
  | .add _, h | .update _, h | .delete _ _, h | .query _ _, h | .queryByType _, h | .flush _, h | .apply _, h
  | .classify _, h | .rules, h | .dump, h | .describe, h | .config, h | .isEmpty, h | .counters, h | .chain _, h
  | .hold _, h | .held _, h | .unobserve _, h | .registerPlugin _ _, h | .unregisterPlugin _, h | .pluginSlots, h
  | .pluginValidate _, h | .pluginQuery _, h | .unreadable _, h => h

theorem reactions_of_all {ok : Command → Bool} {name : String} {reactions : List Command}
    (h : (Command.observe name reactions).all ok = true) : ∀ c ∈ reactions, c.all ok = true := by
  rw [all, Bool.and_eq_true] at h
  exact (allOf_iff ok reactions).1 h.2

/-- Additions, deletions and flushes, by themselves or in a request or a rule set. -/
def isChange : Command → Bool
  | .add _ | .update _ | .delete _ _ | .flush _ | .apply _ => true
  | _ => false

/-- The plugins stay as they are. -/
def isPlain : Command → Bool
  | .registerPlugin _ _ | .unregisterPlugin _ => false
  | _ => true

end Command

theorem RuleSet.applyTo_keeps {σ : Type} {Q : σ → Prop} {add : σ → Rule → σ × UpdateResult}
    (hadd : ∀ s r, Q s → Q (add s r).1) : ∀ (es : List RuleEntry) (sum : ApplySummary) (s : σ), Q s →
      Q (applyTo add es sum s).1
  | [], _, _, h => h
  | e :: es, sum, s, h => by
    have hs := hadd s e.rule h
    rw [applyTo]
    split
    · rcases hr : add s e.rule with ⟨s', err | _ | _ | _ | _⟩ <;> rw [hr] at hs
      · exact hs
      all_goals exact applyTo_keeps hadd es _ s' hs
    · exact applyTo_keeps hadd es _ s h

theorem Table.counting_eq (t : Table) (i : ClassifyInput) : ∃ counters, t.counting i = { t with counters } := by
  unfold counting
  split
  · exact ⟨t.counters, rfl⟩
  · exact ⟨_, rfl⟩

/-- The observer told, and of what. -/
def Note.delivery? : Note → Option (String × Event)
  | .told name event => some (name, event)
  | _ => none

namespace Engine

/-- What the observers were told. -/
def deliveries (e : Engine) : List (String × Event) := e.notes.filterMap Note.delivery?

theorem deliveries_note (e : Engine) (ns : List Note) :
    (e.note ns).deliveries = e.deliveries ++ ns.filterMap Note.delivery? := List.filterMap_append

theorem deliveries_consulted (e : Engine) (calls : List Consultation) :
    (e.note (calls.map .consulted)).deliveries = e.deliveries := by
  have hnone : (calls.map Note.consulted).filterMap Note.delivery? = [] := by
    rw [List.filterMap_map]
    exact List.filterMap_eq_nil_iff.2 fun _ _ => rfl
  rw [deliveries_note, hnone, List.append_nil]

/-- Nobody is told. -/
def silent : Event → Engine → Engine := fun _ e => e

variable {α : Type} {tell : Event → Engine → Engine} {change : Table → Transition α} {e : Engine}

/-! ## The writer's hold -/

/-- What the observers of a change are shown: the table after it, in the hold of its writer. -/
def published (change : Table → Transition α) (e : Engine) : Engine :=
  { e with table := (change e.table).table, busy := true }.note ((change e.table).consulted.map .consulted)

theorem deliveries_published (change : Table → Transition α) (e : Engine) :
    (e.published change).deliveries = e.deliveries := deliveries_consulted _ _

/-- The engine once the observers are told, if there is an event to tell. -/
def announced (tell : Event → Engine → Engine) (change : Table → Transition α) (e : Engine) : Engine :=
  match (change e.table).event with
  | none => e.published change
  | some event => tell event (e.published change)

/-- **A change of an idle engine**: published, told, let go. -/
theorem write_idle (h : e.busy = false) :
    e.write tell change = ({ announced tell change e with busy := false }, (change e.table).result) := by
  unfold write
  rw [h]
  rfl

/-- **A change of an engine in hold** is turned away. -/
theorem write_busy (h : e.busy = true) :
    e.write tell change = ({ e with table := e.table.tally .rejected }, .error .concurrentWriteRejected) := by
  unfold write
  rw [if_pos h]

theorem performWith_of_edit {Q : Engine → Prop} (hadd : ∀ r {e}, Q e → Q (e.write tell (·.add r)).1)
    (hdelete : ∀ sel c {e}, Q e → Q (e.write tell (·.delete sel c)).1) {c : Command} (hc : c.isChange = true)
    (hflush : ∀ x, c = .flush x → Q (e.write tell (·.flush x)).1) (h : Q e) : Q (performWith tell c e).1 := by
  cases c with
  | add r => exact hadd r h
  | delete sel c => exact hdelete sel c h
  | flush x => exact hflush x rfl
  | update q =>
    show Q (e.update tell q).1
    unfold update
    split
    · exact h
    · exact hadd q.rule h
    · exact hdelete q.rule.selector q.rule.classifier h
    · exact h
  | apply s => exact RuleSet.applyTo_keeps (fun _ r he => hadd r he) s.rules {} e h
  | _ => cases hc

/-- **A command that changes rules is made of changes**: it keeps what each of them does. -/
theorem performWith_of_change {Q : Engine → Prop}
    (hw : ∀ {β : Type} {change : Table → Transition β}, Table.IsChange change → ∀ {e}, Q e → Q (e.write tell change).1)
    {c : Command} (hc : c.isChange = true) (h : Q e) : Q (performWith tell c e).1 :=
  performWith_of_edit (fun r _ => hw (.add r)) (fun sel c _ => hw (.delete sel c)) hc (fun x _ => hw (.flush x) h) h

theorem reply_write (h : e.busy = false) : (e.write tell change).2 = (change e.table).result := by rw [write_idle h]

theorem reply_add (h : e.busy = false) (r : Rule) : (performWith tell (.add r) e).2 = .update (e.table.add r).result := by
  show Reply.update (e.write tell (·.add r)).2 = _
  rw [reply_write h]

theorem reply_delete (h : e.busy = false) (sel : Selector) (c : Classifier) :
    (performWith tell (.delete sel c) e).2 = .update (e.table.delete sel c).result := by
  show Reply.update (e.write tell (·.delete sel c)).2 = _
  rw [reply_write h]

theorem reply_flush (h : e.busy = false) (c : Option Classifier) :
    (performWith tell (.flush c) e).2 = .flushed (e.table.flush c).result := by
  show Reply.flushed (e.write tell (·.flush c)).2 = _
  rw [reply_write h]

/-- **What the other commands can do**: they leave the flag of the writer alone and tell nobody, and all that befalls the
table is a lookup counted or, by a command that is not plain, a change of plugins. -/
theorem performWith_other {c : Command} (hc : c.isChange = false) :
    (performWith tell c e).1.busy = e.busy ∧ (performWith tell c e).1.deliveries = e.deliveries ∧
      ((performWith tell c e).1.table = e.table ∨ (∃ i, (performWith tell c e).1.table = e.table.counting i) ∨
        c.isPlain = false ∧ ∃ plugins, (performWith tell c e).1.table = { e.table with plugins }) := by
  cases c with
  | add _ | update _ | delete _ _ | flush _ | apply _ => cases hc
  | classify i =>
    exact ⟨rfl, deliveries_consulted { e with table := e.table.counting i } _, Or.inr (Or.inl ⟨i, rfl⟩)⟩
  | unobserve name =>
    show (e.unobserve name).1.busy = e.busy ∧ (e.unobserve name).1.deliveries = e.deliveries ∧
      ((e.unobserve name).1.table = e.table ∨ _)
    unfold unobserve
    split <;> exact ⟨rfl, rfl, Or.inl rfl⟩
  | registerPlugin c v =>
    unfold performWith
    dsimp only
    split
    · exact ⟨rfl, rfl, Or.inl rfl⟩
    · exact ⟨rfl, rfl, Or.inr (Or.inr ⟨rfl, _, rfl⟩)⟩
  | unregisterPlugin c => exact ⟨rfl, rfl, Or.inr (Or.inr ⟨rfl, _, rfl⟩)⟩
  | pluginValidate q =>
    refine ⟨rfl, (deliveries_note e _).trans ?_, Or.inl rfl⟩
    cases e.table.plugins.validator <;> exact List.append_nil _
  | pluginQuery q =>
    refine ⟨rfl, (deliveries_note e _).trans ?_, Or.inl rfl⟩
    cases e.table.plugins.query <;> exact List.append_nil _
  | _ => exact ⟨rfl, rfl, Or.inl rfl⟩

theorem store_performWith {c : Command} (hc : c.isChange = false) : (performWith tell c e).1.table.store = e.table.store := by
  rcases (performWith_other hc).2.2 with htable | ⟨i, htable⟩ | ⟨-, plugins, htable⟩
  · rw [htable]
  · obtain ⟨counters, hcounted⟩ := e.table.counting_eq i
    rw [htable, hcounted]
  · rw [htable]

theorem performWith_idle (h : e.busy = false) (c : Command) : (performWith tell c e).1.busy = false := by
  cases hc : c.isChange with
  | true => exact performWith_of_change (Q := fun e => e.busy = false) (fun _ _ he => by rw [write_idle he]) hc h
  | false => exact (performWith_other hc).1.trans h

/-- The engine after commands. -/
def performAllWith (tell : Event → Engine → Engine) (cs : List Command) (e : Engine) : Engine :=
  cs.foldl (fun e c => (performWith tell c e).1) e

theorem performAllWith_of_perform {Q : Engine → Prop} (hperform : ∀ c {e}, Q e → Q (performWith tell c e).1) :
    ∀ (cs : List Command) {e : Engine}, Q e → Q (performAllWith tell cs e)
  | [], _, h => h
  | c :: cs, _, h => performAllWith_of_perform hperform cs (hperform c h)

theorem performAllWith_idle (cs : List Command) (h : e.busy = false) : (performAllWith tell cs e).busy = false :=
  performAllWith_of_perform (Q := fun e => e.busy = false) (fun c _ he => performWith_idle he c) cs h

/-- **The rules an engine is built with** are added one after another, up to one that is refused. -/
theorem addAll_of_write {Q : Engine → Prop} (hadd : ∀ r {e}, Q e → Q (e.write Engine.tell (·.add r)).1) :
    ∀ (rs : List Rule) {e : Engine}, Q e → Q (build.addAll rs e).1
  | [], _, h => h
  | r :: rs, e, h => by
    have hw := hadd r h
    unfold build.addAll
    rcases hr : e.write Engine.tell (·.add r) with ⟨e', err | o⟩ <;> rw [hr] at hw
    · exact hw
    · exact addAll_of_write hadd rs hw

/-! ## In hold -/

/-- Still in hold, with a table that differs in its counters and plugins at most. -/
structure Held (t : Table) (e : Engine) : Prop where
  busy : e.busy = true
  table : ∃ counters plugins, e.table = { t with counters, plugins }

theorem Held.store {t : Table} (h : Held t e) : e.table.store = t.store := by
  obtain ⟨-, counters, plugins, ht⟩ := h
  rw [ht]

namespace Held

variable {t : Table} (h : Held t e)
include h

theorem note (ns : List Note) : Held t (e.note ns) := ⟨h.busy, h.table⟩

theorem write : Held t (e.write tell change).1 := by
  obtain ⟨hb, counters, plugins, ht⟩ := h
  rw [write_busy hb]
  refine ⟨hb, counters.tally .rejected, plugins, ?_⟩
  show e.table.tally .rejected = _
  rw [ht]
  rfl

/-- **No command of a callback moves a rule or ends the hold.** -/
theorem performWith (c : Command) : Held t (performWith tell c e).1 := by
  cases hc : c.isChange with
  | true => exact performWith_of_change (fun _ _ he => he.write) hc h
  | false =>
    obtain ⟨hb, counters, plugins, ht⟩ := h
    refine ⟨(performWith_other hc).1.trans hb, ?_⟩
    rcases (performWith_other hc).2.2 with htable | ⟨i, htable⟩ | ⟨-, plugins', htable⟩
    · exact ⟨counters, plugins, htable.trans ht⟩
    · obtain ⟨counted, hcounted⟩ := e.table.counting_eq i
      exact ⟨counted, plugins, by rw [htable, hcounted, ht]⟩
    · exact ⟨counters, plugins', by rw [htable, ht]⟩

end Held

/-! ## What a callback can bring about -/

/-- What notes and commands that pass a check lead to from `e`, with nobody to tell. -/
inductive Within (ok : Command → Bool) (e : Engine) : Engine → Prop
  | start : Within ok e e
  | note {e₁ : Engine} (ns : List Note) : Within ok e e₁ → Within ok e (e₁.note ns)
  | perform {e₁ : Engine} {c : Command} : c.all ok = true → Within ok e e₁ → Within ok e (performWith silent c e₁).1

/-- The commands of the observers pass the check. -/
def Obeys (ok : Command → Bool) (e : Engine) : Prop :=
  ∀ q ∈ e.notifier.observers, ∀ c ∈ q.2.reactions, c.all ok = true

/-- A way of telling that lets observers do what passes the check, and nothing else. -/
def Leads (ok : Command → Bool) (tell : Event → Engine → Engine) : Prop :=
  ∀ event e, e.busy = true → e.Obeys ok → Within ok e (tell event e)

variable {ok : Command → Bool} {e₁ : Engine}

theorem Within.held (h : Within ok e e₁) (hb : e.busy = true) : Held e.table e₁ := by
  induction h with
  | start => exact ⟨hb, e.table.counters, e.table.plugins, rfl⟩
  | note ns _ ih => exact ih.note ns
  | perform _ _ ih => exact ih.performWith _

theorem within_react (event : Event) {o : Observer} (ho : ∀ c ∈ o.reactions, c.all ok = true) (h : Within ok e e₁) :
    Within ok e (react event o e₁) := by
  unfold react
  have h₀ := h.note [.told o.name event]
  generalize e₁.note [.told o.name event] = e₀ at h₀
  generalize o.reactions = cs at ho
  induction cs generalizing e₀ with
  | nil => exact h₀
  | cons c cs ih =>
    obtain ⟨hc, hcs⟩ := List.forall_mem_cons.1 ho
    exact ih _ ((h₀.perform hc).note _) hcs

theorem within_told (event : Event) : ∀ (os : List (Nat × Observer)), (∀ q ∈ os, ∀ c ∈ q.2.reactions, c.all ok = true) →
    ∀ {e₁ : Engine}, Within ok e e₁ → Within ok e (os.foldl (fun e q => react event q.2 e) e₁)
  | [], _, _, h => h
  | _ :: os, hos, _, h => by
    obtain ⟨hq, hos⟩ := List.forall_mem_cons.1 hos
    exact within_told event os hos (within_react event hq h)

theorem leads_tell (ok : Command → Bool) : Leads ok Engine.tell :=
  fun event e _ ho => within_told event e.notifier.observers ho .start

theorem obeys_any (e : Engine) : e.Obeys fun _ => true := fun _ _ c _ => c.all_true

/-- Every kind of change, tried by an observer that then registers another and takes itself off. -/
def meddling : List Command :=
  [.add { id := 8, classifier := .scs }, .delete (.id 1) .scs, .flush none, .classify (.scs {}),
    .observe "second" [.flush none], .unobserve "first"]

theorem Leads.announced (ht : Leads ok tell) (ho : e.Obeys ok) (change : Table → Transition α) :
    Within ok (e.published change) (announced tell change e) := by
  unfold Engine.announced
  split
  · exact .start
  · exact ht _ _ rfl ho

/-- **What observers do leaves the store as it was published.** -/
theorem store_write (ht : Leads (fun _ => true) tell) (hi : e.busy = false) (change : Table → Transition α) :
    (e.write tell change).1.table.store = (change e.table).table.store := by
  have hheld := (ht.announced (obeys_any e) change).held rfl
  rw [write_idle hi]
  exact hheld.store

/-! ## Who is registered -/

/-- A property of who is registered, which no command that passes the check ends. -/
structure OfRoster (ok : Command → Bool) (Q : Engine → Prop) : Prop where
  obeys : ∀ {e}, Q e → e.Obeys ok
  frame : ∀ {e e' : Engine}, Q e → e'.notifier = e.notifier → e'.names = e.names → Q e'
  observe : ∀ {e name reactions}, (Command.observe name reactions).all ok = true → Q e → Q (e.observe ⟨name, reactions⟩)
  unobserve : ∀ {e name}, ok (.unobserve name) = true → Q e → Q (e.unobserve name).1

namespace OfRoster

variable {Q : Engine → Prop} (hQ : OfRoster ok Q)
include hQ

theorem write (ht : ∀ event e, e.busy = true → Q e → Q (tell event e)) (h : Q e) : Q (e.write tell change).1 := by
  cases hb : e.busy with
  | true =>
    rw [write_busy hb]
    exact hQ.frame h rfl rfl
  | false =>
    rw [write_idle hb]
    have hp : Q (e.published change) := hQ.frame h rfl rfl
    have ha : Q (announced tell change e) := by
      unfold announced
      split
      · exact hp
      · exact ht _ _ rfl hp
    exact hQ.frame ha rfl rfl

theorem performWith (ht : ∀ event e, e.busy = true → Q e → Q (tell event e)) {c : Command} (hc : c.all ok = true)
    (h : Q e) : Q (performWith tell c e).1 := by
  cases hch : c.isChange with
  | true => exact performWith_of_change (fun _ _ he => hQ.write ht he) hch h
  | false =>
    cases c with
    | add _ | update _ | delete _ _ | flush _ | apply _ => cases hch
    | observe name reactions => exact hQ.observe hc h
    | unobserve name => exact hQ.unobserve (Command.of_all hc) h
    | registerPlugin c v =>
      unfold Engine.performWith
      dsimp only
      split
      · exact h
      · exact hQ.frame h rfl rfl
    | _ => exact hQ.frame h rfl rfl

theorem within (h : Within ok e e₁) (he : Q e) : Q e₁ := by
  induction h with
  | start => exact he
  | note ns _ ih => exact hQ.frame ih rfl rfl
  | perform hc _ ih => exact hQ.performWith (fun _ _ _ h => h) hc ih

theorem led (ht : Leads ok tell) (event : Event) (e : Engine) (hb : e.busy = true) (h : Q e) : Q (tell event e) :=
  hQ.within (ht event e hb (hQ.obeys h)) h

/-- **A command keeps a property of the roster**, with what the observers it tells bring about. -/
theorem perform (ht : Leads ok tell) {c : Command} (hc : c.all ok = true) (h : Q e) : Q (Engine.performWith tell c e).1 :=
  hQ.performWith (hQ.led ht) hc h

end OfRoster

theorem ofRoster_obeys (ok : Command → Bool) : OfRoster ok (Obeys ok) where
  obeys h := h
  frame h hn _ := fun q hq => h q (hn ▸ hq)
  observe hc h := by
    intro q hq
    rcases List.mem_append.1 hq with hq | hq
    · exact h q hq
    · rw [List.mem_singleton.1 hq]
      exact Command.reactions_of_all hc
  unobserve _ h := by
    unfold Engine.unobserve
    split
    · exact h
    · exact fun q hq => h q (List.mem_filter.1 hq).1

end Engine
end TrafficRules
