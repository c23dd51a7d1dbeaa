import TrafficRules.Proofs.Engine.Callback
import TrafficRules.Proofs.Table.Reachable
/-!
# Keeps — what holds of the table of an engine

A property of tables that additions, deletions, flushes, refused writers, lookups and registered plugins keep
(`Table.Kept`) is kept by every command of an engine, whatever its observers do when told (`Engine.perform_keeps`): what
they bring about is made of commands too, with nobody to tell.  So every table an engine comes to have is reachable
(`Engine.built_reachable`).
-/
namespace TrafficRules

/-- A property that no change of a table ends. -/
structure Table.Kept (P : Table → Prop) : Prop where
  add : ∀ {t} r, P t → P (t.add r).table
  delete : ∀ {t} sel c, P t → P (t.delete sel c).table
  flush : ∀ {t} c, P t → P (t.flush c).table
  refuse : ∀ {t}, P t → P (t.tally .rejected)
  look : ∀ {t : Table} i, P t → P (t.counting i)
  plug : ∀ {t : Table} plugins, P t → P { t with plugins }

/-- A lookup counts once or not at all. -/
theorem Table.counting_cases (t : Table) (i : ClassifyInput) :
    t.counting i = t ∨ ∃ c hit, t.counting i = t.tally (.lookup c hit) := by
  unfold counting lookupTally?
  cases i with
  | latency f => exact Or.inl rfl
  | sawf i =>
    by_cases hc : t.consults i = true
    · simp only [hc, if_true]
      exact Or.inr ⟨_, _, rfl⟩
    · simp only [hc]
      exact Or.inl rfl
  | _ => exact Or.inr ⟨_, _, rfl⟩

theorem Table.Reachable.counting {t : Table} (h : Reachable t) (i : ClassifyInput) : Reachable (t.counting i) := by
  rcases t.counting_cases i with he | ⟨c, hit, he⟩ <;> rw [he]
  · exact h
  · exact h.count (.lookup c hit)

theorem Table.kept_reachable : Kept Reachable := ⟨.add, .delete, .flush, .count .rejected, fun i h => h.counting i, .plug⟩

theorem Table.Kept.change {P : Table → Prop} (hP : Kept P) {α : Type} {change : Table → Transition α} (hch : IsChange change)
    {t : Table} (h : P t) : P (change t).table := by
  cases hch with
  | add r => exact hP.add r h
  | delete sel c => exact hP.delete sel c h
  | flush c => exact hP.flush c h

namespace Engine

variable {P : Table → Prop}

/-- Telling keeps the property. -/
def TellKeeps (P : Table → Prop) (tell : Event → Engine → Engine) : Prop :=
  ∀ event e, e.busy = true → P e.table → P (tell event e).table

section With

variable (hP : Table.Kept P) {tell : Event → Engine → Engine} (htell : TellKeeps P tell)
include hP htell

theorem write_keeps {α : Type} {change : Table → Transition α} (hch : Table.IsChange change) {e : Engine}
    (h : P e.table) : P (e.write tell change).1.table := by
  cases hb : e.busy with
  | true =>
    rw [write_busy hb]
    exact hP.refuse h
  | false =>
    rw [write_idle hb]
    show P (announced tell change e).table
    have hp : P (e.published change).table := hP.change hch h
    unfold announced
    split
    · exact hp
    · exact htell _ _ rfl hp

theorem performWith_keeps (c : Command) {e : Engine} (h : P e.table) : P (performWith tell c e).1.table := by
  cases hc : c.isChange with
  | true => exact performWith_of_change (Q := fun e => P e.table) (fun hch _ he => write_keeps hP htell hch he) hc h
  | false =>
    rcases (performWith_other hc).2.2 with htable | ⟨i, htable⟩ | ⟨-, plugins, htable⟩
    · rw [htable]
      exact h
    · rw [htable]
      exact hP.look i h
    · rw [htable]
      exact hP.plug plugins h

end With

theorem performAllWith_keeps (hP : Table.Kept P) {tell : Event → Engine → Engine} (htell : TellKeeps P tell)
    (cs : List Command) {e : Engine} (h : P e.table) : P (performAllWith tell cs e).table :=
  performAllWith_of_perform (Q := fun e => P e.table) (fun c _ he => performWith_keeps hP htell c he) cs h

section Observed

variable (hP : Table.Kept P)
include hP

theorem Within.keeps {ok : Command → Bool} {e e₁ : Engine} (h : Within ok e e₁) (he : P e.table) : P e₁.table := by
  induction h with
  | start => exact he
  | note ns _ ih => exact ih
  | perform _ _ ih => exact performWith_keeps hP (fun _ _ _ h => h) _ ih

theorem Leads.keeps {tell : Event → Engine → Engine} (ht : Leads (fun _ => true) tell) : TellKeeps P tell :=
  fun event e hb h => (ht event e hb (obeys_any e)).keeps hP h

/-- **A command keeps what every change of a table keeps**, with the commands of the observers it tells. -/
theorem perform_keeps (c : Command) {e : Engine} (h : P e.table) : P (e.perform c).1.table :=
  performWith_keeps hP ((leads_tell _).keeps hP) c h

theorem addAll_keeps (rs : List Rule) {e : Engine} (h : P e.table) : P (build.addAll rs e).1.table :=
  addAll_of_write (Q := fun e => P e.table) (fun r _ he => write_keeps hP ((leads_tell _).keeps hP) (.add r) he) rs h

end Observed

/-- The engine after commands, its own observers told. -/
def performAll (cs : List Command) (e : Engine) : Engine := performAllWith tell cs e

theorem performAll_keeps (hP : Table.Kept P) (cs : List Command) {e : Engine} (h : P e.table) : P (performAll cs e).table :=
  performAllWith_keeps hP ((leads_tell _).keeps hP) cs h

/-- **Every table of an engine is reachable**, whatever it starts with, is asked for and its observers do. -/
theorem built_reachable (config : TableConfig) (plugins : Plugins) (observers : List String) (rules : List Rule)
    (cs : List Command) : Table.Reachable (performAll cs (build config plugins observers rules).1).table :=
  performAll_keeps Table.kept_reachable cs (addAll_keeps Table.kept_reachable rules (.fresh config plugins))

end Engine
end TrafficRules
