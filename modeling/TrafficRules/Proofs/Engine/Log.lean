import TrafficRules.Proofs.Engine.Delivery
import TrafficRules.Proofs.Engine.Transcript
import TrafficRules.Proofs.Table.Follow
/-!
# Log — what one observer hears is a log of the id-keyed rules

An observer of a name nobody else has, and that nobody takes off, hears every event once (`heard_write`).  What it has
heard leads a follower from nothing to the id-keyed rules of the table (`Logged`): after every command, and already when
the last event is delivered (`Logged.at_delivery`), since a change is published before it is told.
-/
namespace TrafficRules

/-- Registers and unregisters nobody of a name. -/
def Command.spares (name : String) : Command → Bool
  | .observe other _ | .unobserve other => other != name
  | _ => true

namespace Engine

variable {tell : Event → Engine → Engine} {e e₁ : Engine} {name : String} {α : Type} {change : Table → Transition α}

/-- What observers of a name were told. -/
def heard (name : String) (e : Engine) : List Event := (e.deliveries.filter (·.1 == name)).map (·.2)

/-! ## Telling -/

/-- The engine once some observers are told. -/
def told (event : Event) (os : List (Nat × Observer)) (e : Engine) : Engine :=
  os.foldl (fun e q => react event q.2 e) e

theorem tell_eq_told (event : Event) (e : Engine) : Engine.tell event e = told event e.notifier.observers e := rfl

/-- **In the hold of the writer** those told are told, and nobody else. -/
theorem deliveries_told (event : Event) (os : List (Nat × Observer)) (hb : e.busy = true) :
    (told event os e).deliveries = e.deliveries ++ os.map fun q => (q.2.name, event) := by
  unfold told
  rw [react_eq_reactAs]
  exact (told_in_turn silent carried event os (Or.inl hb)).1

theorem heard_of_deliveries {ds : List (String × Event)} (h : e₁.deliveries = e.deliveries ++ ds) :
    e₁.heard name = e.heard name ++ (ds.filter (·.1 == name)).map (·.2) := by
  unfold heard
  rw [h, List.filter_append, List.map_append]

theorem heard_congr (h : e₁.deliveries = e.deliveries) : e₁.heard name = e.heard name := by
  unfold heard
  rw [h]

theorem heard_told (event : Event) (os : List (Nat × Observer)) (hb : e.busy = true) : (told event os e).heard name =
    e.heard name ++ (os.filter (·.2.name == name)).map fun _ => event := by
  rw [heard_of_deliveries (deliveries_told event os hb), List.filter_map, List.map_map]
  rfl

/-! ## Who is registered -/

/-- Nobody of the name is registered, and numbers are given out once. -/
structure Unnamed (name : String) (e : Engine) : Prop where
  obeys : e.Obeys (Command.spares name)
  absent : ∀ q ∈ e.notifier.observers, q.2.name ≠ name
  numbers : ∀ p ∈ e.names, p.2 < e.notifier.nextId

/-- One observer of the name is registered, under a number that is kept for no other name. -/
structure Registered (name : String) (e : Engine) : Prop where
  obeys : e.Obeys (Command.spares name)
  once : ∃ q, e.notifier.observers.filter (·.2.name == name) = [q] ∧ q.1 < e.notifier.nextId ∧
    ∀ p ∈ e.names, p.1 ≠ name → p.2 ≠ q.1

theorem mem_of_lookup {names : List (String × Nat)} {id : Nat} (h : names.lookup name = some id) : (name, id) ∈ names := by
  obtain ⟨A, B, rfl, -⟩ := List.lookup_eq_some_iff.1 h
  exact List.mem_append_right A List.mem_cons_self

theorem ofRoster_unnamed (name : String) : OfRoster (Command.spares name) (Unnamed name) where
  obeys h := h.obeys
  frame h hn hm := ⟨(ofRoster_obeys _).frame h.obeys hn hm, by rw [hn]; exact h.absent, by rw [hn, hm]; exact h.numbers⟩
  observe := by
    intro e other reactions hc h
    refine ⟨(ofRoster_obeys _).observe hc h.obeys, fun q hq => ?_, fun p hp => ?_⟩
    · rcases List.mem_append.1 hq with hq | hq
      · exact h.absent q hq
      · rw [List.mem_singleton.1 hq]
        exact bne_iff_ne.1 (Command.of_all hc)
    · rcases List.mem_cons.1 hp with rfl | hp
      · exact Nat.lt_succ_self _
      · exact Nat.lt_succ_of_lt (h.numbers p hp)
  unobserve := by
    intro e other hc h
    have hobeys := (ofRoster_obeys (Command.spares name)).unobserve hc h.obeys
    unfold Engine.unobserve at hobeys ⊢
    split at hobeys
    · exact h
    · exact ⟨hobeys, fun q hq => h.absent q (List.mem_filter.1 hq).1, h.numbers⟩

theorem ofRoster_registered (name : String) : OfRoster (Command.spares name) (Registered name) where
  obeys h := h.obeys
  frame h hn hm := ⟨(ofRoster_obeys _).frame h.obeys hn hm, by rw [hn, hm]; exact h.once⟩
  observe := by
    intro e other reactions hc h
    obtain ⟨q, hq, hlt, hnames⟩ := h.once
    have hother : other ≠ name := bne_iff_ne.1 (Command.of_all hc)
    refine ⟨(ofRoster_obeys _).observe hc h.obeys, q, ?_, Nat.lt_succ_of_lt hlt, fun p hp hpn => ?_⟩
    · show (e.notifier.observers ++ [(e.notifier.nextId, (⟨other, reactions⟩ : Observer))]).filter _ = [q]
      rw [List.filter_append, hq, List.filter_cons_of_neg (by simpa using hother)]
      rfl
    · rcases List.mem_cons.1 hp with rfl | hp
      · exact Nat.ne_of_gt hlt
      · exact hnames p hp hpn
  unobserve := by
    intro e other hc h
    have hobeys := (ofRoster_obeys (Command.spares name)).unobserve hc h.obeys
    unfold Engine.unobserve at hobeys ⊢
    split at hobeys
    · exact h
    · rename_i id hl
      obtain ⟨q, hq, hlt, hnames⟩ := h.once
      have hid : id ≠ q.1 := hnames _ (mem_of_lookup hl) (bne_iff_ne.1 hc)
      refine ⟨hobeys, q, ?_, hlt, hnames⟩
      show (e.notifier.observers.filter (·.1 != id)).filter _ = [q]
      rw [List.filter_comm, hq, List.filter_cons_of_pos (by simpa using hid.symm)]
      rfl

/-- A first observer of a name. -/
theorem Unnamed.observe (h : Unnamed name e) {reactions : List Command}
    (hr : ∀ c ∈ reactions, c.all (Command.spares name) = true) : Registered name (e.observe ⟨name, reactions⟩) := by
  refine ⟨fun q hq => ?_, (e.notifier.nextId, ⟨name, reactions⟩), ?_, Nat.lt_succ_self _, fun p hp hpn => ?_⟩
  · rcases List.mem_append.1 hq with hq | hq
    · exact h.obeys q hq
    · rw [List.mem_singleton.1 hq]
      exact hr
  · show (e.notifier.observers ++ [(e.notifier.nextId, (⟨name, reactions⟩ : Observer))]).filter _ = _
    rw [List.filter_append, List.filter_eq_nil_iff.2 fun q hq => by simpa using h.absent q hq,
      List.filter_cons_of_pos (by simp)]
    rfl
  · rcases List.mem_cons.1 hp with rfl | hp
    · exact absurd rfl hpn
    · exact Nat.ne_of_lt (h.numbers p hp)

/-- A number of observers that do nothing, registered from the start. -/
theorem unnamed_build (config : TableConfig) (plugins : Plugins) {others : List String} (h : name ∉ others) :
    Unnamed name (build config plugins others []).1 := by
  have hmem : ∀ (others : List String) (n : Notifier Observer), ∀ q ∈
      (others.foldl (fun n name => (n.register (⟨name, []⟩ : Observer)).1) n).observers,
      q ∈ n.observers ∨ q.2.name ∈ others ∧ q.2.reactions = [] := by
    intro others
    induction others with
    | nil => exact fun _ _ hq => Or.inl hq
    | cons other others ih =>
      intro n q hq
      rcases ih _ q hq with hq | ⟨hname, hnone⟩
      · rcases List.mem_append.1 hq with hq | hq
        · exact Or.inl hq
        · rw [List.mem_singleton.1 hq]
          exact Or.inr ⟨List.mem_cons_self, rfl⟩
      · exact Or.inr ⟨List.mem_cons_of_mem _ hname, hnone⟩
  refine ⟨fun q hq c hc => ?_, fun q hq hqn => ?_, fun p hp => ?_⟩
  · obtain hq | ⟨-, hnone⟩ := hmem others {} q hq
    · cases hq
    · rw [hnone] at hc
      cases hc
  · obtain hq | ⟨hname, -⟩ := hmem others {} q hq
    · cases hq
    · exact h (hqn ▸ hname)
  · cases hp

/-! ## Hearing -/

theorem heard_published (change : Table → Transition α) (e : Engine) : (e.published change).heard name = e.heard name :=
  heard_congr (deliveries_published change e)

/-- **What observers of a name hear of a change**: its event, each of them once. -/
theorem heard_write (hi : e.busy = false) : (e.write Engine.tell change).1.heard name = e.heard name ++
    (e.notifier.observers.filter (·.2.name == name)).flatMap fun _ => (change e.table).event.toList := by
  rw [write_idle hi]
  show (announced Engine.tell change e).heard name = _
  unfold announced
  cases (change e.table).event with
  | none => rw [heard_published, Option.toList_none, List.flatMap_eq_nil_iff.2 fun _ _ => rfl, List.append_nil]
  | some event =>
    dsimp only
    rw [tell_eq_told, heard_told _ _ rfl, heard_published, Option.toList_some]
    exact congrArg _ List.map_eq_flatMap

/-- While nobody of a name is registered, nothing is heard under it. -/
theorem Unnamed.performAll : ∀ (cs : List Command), (∀ c ∈ cs, c.all (Command.spares name) = true) → ∀ {e : Engine},
    e.busy = false → Unnamed name e → e.heard name = [] →
    Unnamed name (Engine.performAll cs e) ∧ (Engine.performAll cs e).heard name = []
  | [], _, _, _, hn, hh => ⟨hn, hh⟩
  | c :: cs, hcs, e, hi, hn, hh => by
    obtain ⟨hc, hcs⟩ := List.forall_mem_cons.1 hcs
    have ht := leads_tell (Command.spares name)
    have hQ := ofRoster_unnamed name
    have hheard : (perform c e).1.heard name = [] := by
      cases hch : c.isChange with
      | false => exact (heard_congr (performWith_other hch).2.1).trans hh
      | true =>
        have hboth : Unnamed name (perform c e).1 ∧ (perform c e).1.busy = false ∧ (perform c e).1.heard name = [] := by
          refine performWith_of_change (Q := fun e => Unnamed name e ∧ e.busy = false ∧ e.heard name = [])
            (fun _ e ⟨hn, hi, hh⟩ => ⟨?_, by rw [write_idle hi], ?_⟩) hch ⟨hn, hi, hh⟩
          · exact hQ.write (hQ.led ht) hn
          · have hnone : e.notifier.observers.filter (·.2.name == name) = [] :=
              List.filter_eq_nil_iff.2 fun q hq => by simpa using hn.absent q hq
            rw [heard_write hi, hh, hnone]
            rfl
        exact hboth.2.2
    exact Unnamed.performAll cs hcs (performWith_idle hi c) (hQ.perform ht hc hn) hheard

/-! ## The log -/

/-- What was heard under a name leads a follower from nothing to the id-keyed rules of the table. -/
def Followed (name : String) (e : Engine) : Prop := (e.heard name).foldl Event.follow [] = e.table.idRules

/-- Between commands, with one observer of the name and all the id-keyed rules in what it heard. -/
structure Logged (name : String) (e : Engine) : Prop where
  idle : e.busy = false
  reachable : e.table.Reachable
  registered : e.Registered name
  followed : e.Followed name

theorem idRules_of_store {t u : Table} (h : t.store = u.store) : t.idRules = u.idRules := by
  rw [Table.idRules_eq, Table.idRules_eq, h]

namespace Logged

variable (h : Logged name e)
include h

theorem write (hch : Table.IsChange change) (hf : Table.Followable change e.table) : Logged name (e.write Engine.tell change).1 := by
  have ht := leads_tell (Command.spares name)
  have hQ := ofRoster_registered name
  obtain ⟨q, hq, -⟩ := h.registered.once
  refine ⟨by rw [write_idle h.idle], ?_, ?_, ?_⟩
  · exact write_keeps Table.kept_reachable ((leads_tell _).keeps Table.kept_reachable) hch h.reachable
  · exact hQ.write (hQ.led ht) h.registered
  · have hstore : (e.write Engine.tell change).1.table.store = (change e.table).table.store := by
      rw [write_idle h.idle]
      exact ((ht.announced h.registered.obeys change).held rfl).store
    show ((e.write Engine.tell change).1.heard name).foldl Event.follow [] = _
    rw [heard_write h.idle, hq, List.flatMap_singleton, List.foldl_append, h.followed, ← hf, idRules_of_store hstore]

/-- **A command keeps the log**, unless it flushes rules away. -/
theorem perform {c : Command} (hc : c.all (Command.spares name) = true)
    (hflush : ∀ x, c = .flush x → (e.perform c).2 = .flushed (.ok 0)) : Logged name (e.perform c).1 := by
  cases hch : c.isChange with
  | true =>
    refine performWith_of_edit (Q := Logged name) (fun r e he => he.write (.add r) (Table.followable_add he.reachable r))
      (fun sel c e he => he.write (.delete sel c) (Table.followable_delete he.reachable sel c)) hch (fun x hx => ?_) h
    have hzero : (e.table.flush x).result = .ok 0 := by
      have hreply := hflush x hx
      rw [hx] at hreply
      exact Reply.flushed.inj ((reply_flush h.idle x).symm.trans hreply)
    exact h.write (.flush x) (Table.followable_flush h.reachable hzero)
  | false =>
    have hdeliveries : (Engine.perform c e).1.deliveries = e.deliveries := (performWith_other hch).2.1
    have hstore : (Engine.perform c e).1.table.store = e.table.store := store_performWith hch
    refine ⟨performWith_idle h.idle c, perform_keeps Table.kept_reachable c h.reachable,
      (ofRoster_registered name).perform (leads_tell _) hc h.registered, ?_⟩
    show ((Engine.perform c e).1.heard name).foldl Event.follow [] = (Engine.perform c e).1.table.idRules
    have hheard : (Engine.perform c e).1.heard name = e.heard name := heard_congr hdeliveries
    rw [hheard, h.followed]
    exact (idRules_of_store hstore).symm

/-- **The log is up to date when an event is delivered**, whoever is told before. -/
theorem at_delivery (hf : Table.Followable change e.table) {event : Event} (hevent : (change e.table).event = some event)
    {xs ys : List (Nat × Observer)} {q : Nat × Observer} (hos : e.notifier.observers = xs ++ q :: ys) (hq : q.2.name = name) :
    Followed name ((told event xs (e.published change)).note [.told name event]) := by
  obtain ⟨p, hp, -⟩ := h.registered.once
  -- nobody told before has the name
  have hbefore : xs.filter (·.2.name == name) = [] := by
    rw [hos, List.filter_append, List.filter_cons_of_pos (by simpa using hq)] at hp
    have hlen := congrArg List.length hp
    rw [List.length_append, List.length_cons, List.length_singleton] at hlen
    exact List.eq_nil_of_length_eq_zero (by omega)
  have hheld : Held (change e.table).table (told event xs (e.published change)) := by
    have hwithin : Within (Command.spares name) (e.published change) (told event xs (e.published change)) := by
      refine within_told event xs (fun q hq => ?_) .start
      exact h.registered.obeys q (by rw [hos]; exact List.mem_append_left _ hq)
    exact hwithin.held rfl
  show (heard name _).foldl Event.follow [] = Table.idRules (told event xs (e.published change)).table
  rw [heard_of_deliveries (deliveries_note _ _), heard_told _ _ rfl, heard_published, hbefore, idRules_of_store hheld.store, hf,
    hevent, ← h.followed]
  simp [Note.delivery?, List.foldl_append]

end Logged

/-- No flush of a run takes a rule away. -/
def FlushesNothing : List Command → Engine → Prop
  | [], _ => True
  | c :: cs, e => (∀ x, c = .flush x → (e.perform c).2 = .flushed (.ok 0)) ∧ FlushesNothing cs (e.perform c).1

theorem flushesNothing_of_none : ∀ {cs : List Command}, (∀ x, Command.flush x ∉ cs) → ∀ {e : Engine}, FlushesNothing cs e
  | [], _, _ => trivial
  | _ :: _, h, _ => ⟨fun x hx => absurd (hx ▸ List.mem_cons_self) (h x),
      flushesNothing_of_none fun x hx => h x (List.mem_cons_of_mem _ hx)⟩

theorem Logged.performAll : ∀ (cs : List Command), (∀ c ∈ cs, c.all (Command.spares name) = true) → ∀ {e : Engine},
    FlushesNothing cs e → Logged name e → Logged name (Engine.performAll cs e)
  | [], _, _, _, h => h
  | c :: cs, hcs, e, ⟨hflush, hrest⟩, h => by
    obtain ⟨hc, hcs⟩ := List.forall_mem_cons.1 hcs
    exact Logged.performAll cs hcs hrest (h.perform hc hflush)

/-- **The events are a faithful log of the id-keyed rules.**  Whoever else is registered and whatever the others do, an
observer registered under a name of its own while the table is empty hears all there is to know: after any run that
takes the observer off nowhere and flushes no rule away, a follower of the events it heard has the rules of the id-keyed
families in their order; and so it has them at the moment the event of a further addition or deletion is delivered. -/
theorem events_are_a_log (config : TableConfig) (plugins : Plugins) {others : List String} {name : String}
    (hothers : name ∉ others) {before : List Command} (hbefore : ∀ c ∈ before, c.all (Command.spares name) = true)
    (hempty : (performAll before (build config plugins others []).1).table.rules = []) {reactions : List Command}
    (hreactions : ∀ c ∈ reactions, c.all (Command.spares name) = true) {cs : List Command}
    (hcs : ∀ c ∈ cs, c.all (Command.spares name) = true)
    (hflush : FlushesNothing cs ((performAll before (build config plugins others []).1).observe ⟨name, reactions⟩)) :
    let e := performAll cs ((performAll before (build config plugins others []).1).observe ⟨name, reactions⟩)
    Followed name e ∧
    ∃ xs q ys, e.notifier.observers = xs ++ q :: ys ∧ q.2.name = name ∧
      (∀ r event, (e.table.add r).event = some event →
        Followed name ((told event xs (e.published (·.add r))).note [.told name event])) ∧
      ∀ sel c event, (e.table.delete sel c).event = some event →
        Followed name ((told event xs (e.published (·.delete sel c))).note [.told name event]) := by
  intro e
  obtain ⟨hunnamed, hsilence⟩ := Unnamed.performAll before hbefore rfl (unnamed_build config plugins hothers) rfl
  have hstart : Logged name ((performAll before (build config plugins others []).1).observe ⟨name, reactions⟩) := by
    refine ⟨performAllWith_idle before rfl, built_reachable config plugins others [] before, hunnamed.observe hreactions, ?_⟩
    show (heard name (performAll before (build config plugins others []).1)).foldl Event.follow [] =
      Table.idRules (performAll before (build config plugins others []).1).table
    rw [hsilence, Table.idRules, hempty]
    rfl
  have h : Logged name e := hstart.performAll cs hcs hflush
  obtain ⟨q, hq, -⟩ := h.registered.once
  obtain ⟨hmem, hname⟩ := List.mem_filter.1 (hq ▸ List.mem_singleton_self q)
  obtain ⟨xs, ys, hos⟩ := List.append_of_mem hmem
  have hqn : q.2.name = name := beq_iff_eq.1 hname
  refine ⟨h.followed, xs, q, ys, hos, hqn, fun r event hevent => ?_, fun sel c event hevent => ?_⟩
  · exact h.at_delivery (Table.followable_add h.reachable r) hevent hos hqn
  · exact h.at_delivery (Table.followable_delete h.reachable sel c) hevent hos hqn

/-- A table that held a rule, with an observer from the start and a meddling one. -/
def emptied : Engine :=
  performAll [.observe "first" meddling, .add { id := 1, classifier := .scs }, .flush none] (build {} {} ["early"] []).1

/-- Rules added, refused, modified in place and elsewhere, and deleted, flow-keyed ones among them. -/
def edits : List Command :=
  [.add { id := 1, classifier := .scs, precedence := 4 }, .add { id := 1, classifier := .sawf, precedence := 4 },
    .add { classifier := .ifli, precedence := 9 }, .add { id := 2, classifier := .mesh, precedence := 6 },
    .add { id := 1, classifier := .scs, precedence := 4, output := { priority := 3 } },
    .add { id := 7, classifier := .scs, output := { priority := 200 } }, .add { id := 2, classifier := .mesh, precedence := 4 },
    .delete (.id 1) .sawf, .delete (.flow {}) .ifli, .add { id := 3, classifier := .mscs, precedence := 255 }]

theorem events_are_a_log_edits : "log" ∉ ["early"] ∧ emptied.table.rules = [] ∧
    FlushesNothing (.flush none :: edits) (emptied.observe ⟨"log", [.flush none]⟩) ∧
    Followed "log" (performAll (.flush none :: edits) (emptied.observe ⟨"log", [.flush none]⟩)) ∧
    ((performAll (.flush none :: edits) (emptied.observe ⟨"log", [.flush none]⟩)).heard "log").map
        (fun event => (event.kind, event.rule.id)) =
      [(.added, 1), (.added, 1), (.added, noRuleId), (.added, 2), (.modified, 1), (.modified, 2), (.removed, 1), (.added, 3)] ∧
    (performAll (.flush none :: edits) (emptied.observe ⟨"log", [.flush none]⟩)).table.idRules.map (·.id) = [1, 2, 3] := by
  have hothers : "log" ∉ ["early"] := by decide
  have hempty : emptied.table.rules = [] := by decide +kernel
  have hflush : FlushesNothing (.flush none :: edits) (emptied.observe ⟨"log", [.flush none]⟩) := by
    refine ⟨fun x hx => ?_, flushesNothing_of_none fun x hx => by simp [edits] at hx⟩
    cases hx
    rfl
  obtain ⟨hlog, -⟩ := events_are_a_log {} {} hothers (by decide +kernel) hempty (by decide +kernel) (by decide +kernel) hflush
  exact ⟨hothers, hempty, hflush, hlog, by decide +kernel, by decide +kernel⟩

end Engine
end TrafficRules
