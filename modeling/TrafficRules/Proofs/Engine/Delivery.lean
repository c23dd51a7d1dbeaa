import TrafficRules.Proofs.Engine.Keeps
import TrafficRules.Proofs.Engine.Roster
/-!
# Delivery — who is told is settled when the telling starts

While an event is told the list of observers may change under the hands of those who are told.  What observers do is left
open here: any moves, commands or edits of the list, that they choose as they please (`Engine.tellAs`), with whoever would
be told of what they ask for.  In the hold of the writer, or if they ask for no change of rules, that is nobody, so the
observers of the list as it was are told once each and in order, and the list becomes what the edits made meanwhile make
of it one after another (`Engine.told_tellAs`).  A run tells each event to the list of that time (`Engine.Course.told`).
-/
namespace TrafficRules

open Notifier (Edit)

/-- What a command does to the list of observers if it changes no rule. -/
def Command.edits (c : Command) (e : Engine) : List (Edit Observer) :=
  match c with
  | .observe name reactions => [.register ⟨name, reactions⟩]
  | .unobserve name => (e.names.lookup name).toList.map .unregister
  | _ => []

namespace Engine

/-- What an observer can do: perform a command, or register or unregister somebody by number. -/
inductive Move where
  | perform (c : Command)
  | edit (x : Edit Observer)

namespace Move

def make (tell : Event → Engine → Engine) : Move → Engine → Engine
  | .perform c, e => (performWith tell c e).1
  | .edit x, e => { e with notifier := e.notifier.edit x }

/-- The reply to a command, noted by the observer of a name. -/
def notes (tell : Event → Engine → Engine) (name : String) : Move → Engine → List Note
  | .perform c, e => [.reacted name (performWith tell c e).2]
  | .edit _, _ => []

def edits : Move → Engine → List (Edit Observer)
  | .perform c, e => c.edits e
  | .edit x, _ => [x]

def isQuiet : Move → Bool
  | .perform c => !c.isChange
  | .edit _ => true

end Move

/-- The moves an observer makes when it is told of an event.  They may depend on all of the engine as it is then, which
settles also what an observer does that chooses each move by the replies before. -/
def Conduct := Event → Observer → Engine → List Move

def Conduct.Quiet (conduct : Conduct) : Prop := ∀ event o e, ∀ m ∈ conduct event o e, m.isQuiet = true

/-- The observers do what they carry. -/
def carried : Conduct := fun _ o _ => o.reactions.map .perform

section Telling

variable (tell : Event → Engine → Engine)

def makeAll (name : String) : List Move → Engine → Engine
  | [], e => e
  | m :: ms, e => makeAll name ms ((m.make tell e).note (m.notes tell name e))

/-- The edits of the list among the moves of an observer, in order. -/
def editsOf (name : String) : List Move → Engine → List (Edit Observer)
  | [], _ => []
  | m :: ms, e => m.edits e ++ editsOf name ms ((m.make tell e).note (m.notes tell name e))

variable (conduct : Conduct) (event : Event)

def reactAs (o : Observer) (e : Engine) : Engine := makeAll tell o.name (conduct event o e) (e.note [.told o.name event])

/-- Tells every observer present, whatever they do then. -/
def tellAs (e : Engine) : Engine := e.notifier.deliver (reactAs tell conduct event) e

/-- The edits of the list that observers make when told, in order. -/
def editsTold : List (Nat × Observer) → Engine → List (Edit Observer)
  | [], _ => []
  | q :: os, e =>
    editsOf tell q.2.name (conduct event q.2 e) (e.note [.told q.2.name event]) ++ editsTold os (reactAs tell conduct event q.2 e)

end Telling

theorem react_eq_reactAs (event : Event) : react event = reactAs silent carried event := by
  have hmoves : ∀ (name : String) (cs : List Command) (e : Engine),
      cs.foldl (fun e c => (performWith silent c e).1.note [.reacted name (performWith silent c e).2]) e =
        makeAll silent name (cs.map .perform) e := by
    intro name cs
    induction cs with
    | nil => exact fun _ => rfl
    | cons c cs ih => exact fun e => ih _
  funext o e
  exact hmoves o.name o.reactions (e.note [.told o.name event])

theorem tell_eq_tellAs : Engine.tell = tellAs silent carried := by
  funext event e
  rw [Engine.tell, tellAs, react_eq_reactAs]

/-! ## Who is told -/

section Turns

variable (tell : Event → Engine → Engine)

theorem notifier_of_quiet {c : Command} (hc : c.isChange = false) (e : Engine) :
    (performWith tell c e).1.notifier = e.notifier.editAll (c.edits e) := by
  cases c with
  | add _ | update _ | delete _ _ | flush _ | apply _ => cases hc
  | unobserve name =>
    show (e.unobserve name).1.notifier = e.notifier.editAll ((e.names.lookup name).toList.map .unregister)
    unfold unobserve
    cases e.names.lookup name <;> rfl
  | registerPlugin c v =>
    unfold performWith
    dsimp only
    split <;> rfl
  | _ => rfl

theorem edits_of_change {c : Command} (hc : c.isChange = true) (e : Engine) : c.edits e = [] := by
  cases c with
  | add _ | update _ | delete _ _ | flush _ | apply _ => rfl
  | _ => cases hc

/-- Nobody told of anything, the flag of the writer as it was, and the list edited. -/
structure Edited (e : Engine) (xs : List (Edit Observer)) (e₁ : Engine) : Prop where
  busy : e₁.busy = e.busy
  deliveries : e₁.deliveries = e.deliveries
  notifier : e₁.notifier = e.notifier.editAll xs

theorem Edited.trans {e e₁ e₂ : Engine} {xs ys : List (Edit Observer)} (h : Edited e xs e₁) (h' : Edited e₁ ys e₂) :
    Edited e (xs ++ ys) e₂ :=
  ⟨h'.busy.trans h.busy, h'.deliveries.trans h.deliveries, by rw [h'.notifier, h.notifier, Notifier.editAll_append]⟩

/-- **A move in the hold of a writer** tells nobody, nor does one that changes no rule. -/
theorem edited_make {e : Engine} : ∀ {m : Move}, e.busy = true ∨ m.isQuiet = true → Edited e (m.edits e) (m.make tell e)
  | .edit x, _ => ⟨rfl, rfl, rfl⟩
  | .perform c, h => by
    cases hc : c.isChange with
    | false => exact ⟨(performWith_other hc).1, (performWith_other hc).2.1, notifier_of_quiet tell hc e⟩
    | true =>
      have hb : e.busy = true := h.resolve_right (by simp [Move.isQuiet, hc])
      rw [Move.edits, edits_of_change hc]
      refine performWith_of_change (Q := Edited e []) (fun _ e₁ he => ?_) hc ⟨rfl, rfl, rfl⟩
      rw [write_busy (he.busy.trans hb)]
      exact ⟨he.busy, he.deliveries, he.notifier⟩

theorem edited_makeAll (name : String) : ∀ (ms : List Move) {e : Engine},
    e.busy = true ∨ (∀ m ∈ ms, m.isQuiet = true) → Edited e (editsOf tell name ms e) (makeAll tell name ms e)
  | [], _, _ => ⟨rfl, rfl, rfl⟩
  | m :: ms, e, h => by
    have hmade := edited_make tell (h.imp_right fun h => h m List.mem_cons_self)
    have hnoted : Edited e (m.edits e) ((m.make tell e).note (m.notes tell name e)) := by
      refine ⟨hmade.busy, ?_, hmade.notifier⟩
      rw [deliveries_note, hmade.deliveries]
      cases m <;> exact List.append_nil _
    refine hnoted.trans (edited_makeAll name ms (h.imp ?_ ?_))
    · exact hnoted.busy.trans
    · exact fun h m hm => h m (List.mem_cons_of_mem _ hm)

variable (conduct : Conduct) (event : Event)

/-- **The observers told one after another**: each is told once, and their edits follow one another. -/
theorem told_in_turn : ∀ (os : List (Nat × Observer)) {e : Engine}, e.busy = true ∨ conduct.Quiet →
    let e₁ := os.foldl (fun e q => reactAs tell conduct event q.2 e) e
    e₁.deliveries = e.deliveries ++ os.map (fun q => (q.2.name, event)) ∧
      e₁.notifier = e.notifier.editAll (editsTold tell conduct event os e)
  | [], _, _ => ⟨(List.append_nil _).symm, rfl⟩
  | q :: os, e, h => by
    -- the list being told is fixed: what the first of it does shows in the engine that the others find
    have hnoted : (e.note [.told q.2.name event]).busy = e.busy := rfl
    have hmade := edited_makeAll tell q.2.name (conduct event q.2 e) (h.imp hnoted.trans fun h => h event q.2 e)
    obtain ⟨hdeliveries, hnotifier⟩ := told_in_turn os (h.imp_left hmade.busy.trans)
    refine ⟨hdeliveries.trans ?_, hnotifier.trans ?_⟩
    · rw [hmade.deliveries, deliveries_note, List.append_assoc]
      rfl
    · rw [hmade.notifier, ← Notifier.editAll_append]
      rfl

/-- **The list as it was is told**, and afterwards it is edited by what was done meanwhile. -/
theorem told_tellAs {e : Engine} (h : e.busy = true ∨ conduct.Quiet) :
    (tellAs tell conduct event e).deliveries = e.deliveries ++ e.notifier.observers.map (fun q => (q.2.name, event)) ∧
      (tellAs tell conduct event e).notifier =
        e.notifier.editAll (editsTold tell conduct event e.notifier.observers e) :=
  told_in_turn tell conduct event e.notifier.observers h

end Turns

/-! ## A run -/

/-- An event and the list of observers when its telling starts. -/
structure Notice where
  event : Event
  roster : Notifier Observer

/-- What is told of a notice: its event to everyone in its list, in order. -/
def Notice.deliveries (n : Notice) : List (String × Event) := n.roster.observers.map fun q => (q.2.name, n.event)

/-- The events of the notices whose lists the observer of a number is in. -/
def heardBy (id : Nat) (ns : List Notice) : List Event :=
  ns.flatMap fun n => (n.roster.observers.filter (·.1 == id)).map fun _ => n.event

def noticesOf {α : Type} (change : Table → Transition α) (e : Engine) : List Notice :=
  ((change e.table).event.map fun event => ⟨event, e.notifier⟩).toList

variable {tell : Event → Engine → Engine} {conduct : Conduct} {e e₁ : Engine} {ns : List Notice}

/-- Where callers can lead an engine, and the notices on the way: they change rules, perform other commands, and register
and unregister observers. -/
inductive Course (tell : Event → Engine → Engine) (e : Engine) : List Notice → Engine → Prop
  | start : Course tell e [] e
  | change {α : Type} {change : Table → Transition α} {ns : List Notice} {e₁ : Engine} : Table.IsChange change →
      e₁.busy = false → Course tell e ns e₁ → Course tell e (ns ++ noticesOf change e₁) (e₁.write tell change).1
  | other {c : Command} {ns : List Notice} {e₁ : Engine} : c.isChange = false → Course tell e ns e₁ →
      Course tell e ns (performWith tell c e₁).1
  | edit (x : Edit Observer) {ns : List Notice} {e₁ : Engine} : Course tell e ns e₁ →
      Course tell e ns { e₁ with notifier := e₁.notifier.edit x }

theorem Course.perform (h : Course tell e ns e₁) (hi : e₁.busy = false) (c : Command) :
    ∃ ns', Course tell e ns' (performWith tell c e₁).1 := by
  cases hc : c.isChange with
  | false => exact ⟨ns, .other hc h⟩
  | true =>
    have hboth : (performWith tell c e₁).1.busy = false ∧ ∃ ns', Course tell e ns' (performWith tell c e₁).1 := by
      refine performWith_of_change (Q := fun e₂ => e₂.busy = false ∧ ∃ ns', Course tell e ns' e₂) ?_ hc ⟨hi, ns, h⟩
      rintro _ _ hch e₂ ⟨hi, ns', h⟩
      exact ⟨by rw [write_idle hi], _, .change hch hi h⟩
    exact hboth.2

theorem Course.performAll (cs : List Command) (hi : e₁.busy = false) (h : Course tell e ns e₁) :
    ∃ ns', Course tell e ns' (performAllWith tell cs e₁) := by
  have hstep : ∀ c {e₂}, (e₂.busy = false ∧ ∃ ns', Course tell e ns' e₂) →
      (performWith tell c e₂).1.busy = false ∧ ∃ ns', Course tell e ns' (performWith tell c e₂).1 := by
    rintro c e₂ ⟨hi, ns', h⟩
    exact ⟨performWith_idle hi c, h.perform hi c⟩
  exact (performAllWith_of_perform (Q := fun e₂ => e₂.busy = false ∧ ∃ ns', Course tell e ns' e₂) hstep cs ⟨hi, ns, h⟩).2

/-- Idle again, the notices told and no others, and each to a list between the first and the last. -/
structure Told (e : Engine) (ns : List Notice) (e₁ : Engine) : Prop where
  idle : e₁.busy = false
  numbered : e₁.notifier.Numbered
  later : Notifier.Later e.notifier e₁.notifier
  deliveries : e₁.deliveries = e.deliveries ++ ns.flatMap Notice.deliveries
  between : ∀ n ∈ ns, n.roster.Numbered ∧ Notifier.Later e.notifier n.roster ∧ Notifier.Later n.roster e₁.notifier

namespace Told

variable (h : Told e ns e₁)
include h

theorem step (new : List Notice) (xs : List (Edit Observer)) {e₂ : Engine} (hi : e₂.busy = false)
    (hxs : e₂.notifier = e₁.notifier.editAll xs) (hnew : ∀ n ∈ new, n.roster = e₁.notifier)
    (hd : e₂.deliveries = e₁.deliveries ++ new.flatMap Notice.deliveries) : Told e (ns ++ new) e₂ := by
  have hlater : Notifier.Later e₁.notifier e₂.notifier := by
    rw [hxs]
    exact .editAll xs e₁.notifier
  refine ⟨hi, ?_, h.later.trans hlater, ?_, fun n hn => ?_⟩
  · rw [hxs]
    exact h.numbered.editAll xs
  · rw [hd, h.deliveries, List.flatMap_append, List.append_assoc]
  · rcases List.mem_append.1 hn with hn | hn
    · obtain ⟨hnumbered, hfirst, hlast⟩ := h.between n hn
      exact ⟨hnumbered, hfirst, hlast.trans hlater⟩
    · rw [hnew n hn]
      exact ⟨h.numbered, h.later, hlater⟩

theorem quiet (xs : List (Edit Observer)) {e₂ : Engine} (hi : e₂.busy = false)
    (hxs : e₂.notifier = e₁.notifier.editAll xs) (hd : e₂.deliveries = e₁.deliveries) : Told e ns e₂ := by
  have hstep := h.step [] xs hi hxs (fun _ hn => by cases hn) (hd.trans (List.append_nil _).symm)
  rwa [List.append_nil] at hstep

theorem change {α : Type} (change : Table → Transition α) :
    Told e (ns ++ noticesOf change e₁) (e₁.write (tellAs tell conduct) change).1 := by
  have hpublished := deliveries_published change e₁
  rw [write_idle h.idle]
  unfold announced noticesOf
  cases (change e₁.table).event with
  | none => exact h.step [] [] rfl rfl (fun _ hn => by cases hn) (hpublished.trans (List.append_nil _).symm)
  | some event =>
    have hheld : (e₁.published change).busy = true := rfl
    obtain ⟨hdeliveries, hnotifier⟩ := told_tellAs tell conduct event (Or.inl hheld)
    refine h.step _ _ rfl hnotifier (fun n hn => by rw [List.mem_singleton.1 hn]) (hdeliveries.trans ?_)
    rw [hpublished]
    exact congrArg (e₁.deliveries ++ ·) (List.append_nil _).symm

/-- **An observer that is there before and after hears every event.** -/
theorem heardBy_eq (hn : e.notifier.Numbered) {q : Nat × Observer} (hq : q ∈ e.notifier.observers)
    (hq₁ : q ∈ e₁.notifier.observers) : heardBy q.1 ns = ns.map (·.event) := by
  unfold heardBy
  rw [List.map_eq_flatMap]
  refine List.flatMap_congr fun n hmem => ?_
  obtain ⟨hnumbered, hfirst, hlast⟩ := h.between n hmem
  -- numbers are not given out again, so it is in every list between
  rw [hnumbered.filter_eq (hfirst.mem_between hlast hn hq hq₁)]
  rfl

end Told

/-- **A course tells its notices and nothing else.** -/
theorem Course.told (h : Course (tellAs tell conduct) e ns e₁) (hi : e.busy = false) (hn : e.notifier.Numbered) :
    Told e ns e₁ := by
  induction h with
  | start => exact ⟨hi, hn, .refl _, (List.append_nil _).symm, fun _ h => by cases h⟩
  | change _ _ _ ih => exact ih.change _
  | other hc _ ih =>
    exact ih.quiet _ ((performWith_other hc).1.trans ih.idle) (notifier_of_quiet _ hc _) (performWith_other hc).2.1
  | edit x _ ih => exact ih.quiet [x] ih.idle rfl rfl

/-! ## Numbers -/

theorem ofRoster_numbered : OfRoster (fun _ => true) fun e => e.notifier.Numbered where
  obeys _ := obeys_any _
  frame h hn _ := hn ▸ h
  observe _ h := h.edit (.register _)
  unobserve {e name} _ h := by
    show (performWith silent (.unobserve name) e).1.notifier.Numbered
    rw [notifier_of_quiet silent rfl]
    exact h.editAll _

/-- **Every list of observers of an engine is numbered**, whatever it starts with, is asked for and its observers do. -/
theorem built_numbered (config : TableConfig) (plugins : Plugins) (observers : List String) (rules : List Rule)
    (cs : List Command) : (performAll cs (build config plugins observers rules).1).notifier.Numbered := by
  have hregistered : ∀ (names : List String) {n : Notifier Observer}, n.Numbered →
      (names.foldl (fun n name => (n.register ⟨name, []⟩).1) n).Numbered := by
    intro names
    induction names with
    | nil => exact fun h => h
    | cons name names ih => exact fun h => ih (h.edit (.register ⟨name, []⟩))
  have hbuilt : (build config plugins observers rules).1.notifier.Numbered := by
    refine addAll_of_write (Q := fun e => e.notifier.Numbered) (fun r e he => ?_) rules
      (hregistered observers Notifier.numbered_empty)
    exact ofRoster_numbered.write (ofRoster_numbered.led (leads_tell _)) he
  exact performAllWith_of_perform (Q := fun e => e.notifier.Numbered)
    (fun c _ he => ofRoster_numbered.perform (leads_tell _) c.all_true he) cs hbuilt

/-- **Who is told of an event is settled when its telling starts.**  Whatever observers do when they are told, and whoever
would be told of what they ask for: in the hold of the writer, or if they ask for no change of rules, the observers of the
list as it was at the start are told of the event once each and in the order of registration, and of nothing else, and
the list becomes what the registrations and unregistrations made meanwhile make of it one after another.  So a run of an
engine tells each event to the list of its time, and two observers that are registered from its beginning to its end hear
the same events, which are all. -/
theorem delivery_settled_at_start (conduct : Conduct) (inner : Event → Engine → Engine) :
    Engine.tell = tellAs silent carried ∧
    (∀ event e, e.busy = true ∨ conduct.Quiet →
      (tellAs inner conduct event e).deliveries = e.deliveries ++ e.notifier.observers.map (fun q => (q.2.name, event)) ∧
      (tellAs inner conduct event e).notifier =
        e.notifier.editAll (editsTold inner conduct event e.notifier.observers e)) ∧
    (∀ e ns e₁, e.busy = false → e.notifier.Numbered → Course (tellAs inner conduct) e ns e₁ →
      e₁.deliveries = e.deliveries ++ ns.flatMap Notice.deliveries ∧
      ∀ q ∈ e.notifier.observers, q ∈ e₁.notifier.observers → ∀ q' ∈ e.notifier.observers, q' ∈ e₁.notifier.observers →
        heardBy q.1 ns = heardBy q'.1 ns ∧ heardBy q.1 ns = ns.map (·.event)) ∧
    ∀ cs e, e.busy = false → ∃ ns, Course (tellAs inner conduct) e ns (performAllWith (tellAs inner conduct) cs e) := by
  refine ⟨tell_eq_tellAs, fun event e h => told_tellAs inner conduct event h, fun e ns e₁ hi hn h => ?_,
    fun cs e hi => Course.performAll cs hi .start⟩
  have htold := h.told hi hn
  refine ⟨htold.deliveries, fun q hq hq₁ q' hq' hq₁' => ?_⟩
  have hheard := htold.heardBy_eq hn hq hq₁
  exact ⟨hheard.trans (htold.heardBy_eq hn hq' hq₁').symm, hheard⟩

/-- Four observers.  The third, when told, takes the fourth off, registers a fifth, asks for a change and leaves. -/
def crowd : Engine :=
  performAll [.observe "third" [.unobserve "fourth", .observe "fifth" [], .flush none, .unobserve "third"], .observe "fourth" []]
    (build {} {} ["first", "second"] []).1

theorem delivery_settled_at_start_crowd :
    let after := performAllWith (tellAs silent carried) [.add { id := 1, classifier := .scs }, .delete (.id 1) .scs] crowd
    crowd.busy = false ∧ crowd.notifier.Numbered ∧
    after.deliveries.map (fun d => (d.1, d.2.kind)) =
      [("first", .added), ("second", .added), ("third", .added), ("fourth", .added),
        ("first", .removed), ("second", .removed), ("fifth", .removed)] ∧
    after.notifier.observers = [(0, ⟨"first", []⟩), (1, ⟨"second", []⟩), (4, ⟨"fifth", []⟩)] ∧
    (∃ ns, Course (tellAs silent carried) crowd ns after ∧ after.deliveries = crowd.deliveries ++ ns.flatMap Notice.deliveries ∧
      heardBy 0 ns = heardBy 1 ns ∧ heardBy 0 ns = ns.map (·.event)) ∧
    ∀ event, (tellAs silent carried event { crowd with busy := true }).deliveries =
      crowd.deliveries ++ crowd.notifier.observers.map fun q => (q.2.name, event) := by
  intro after
  have hi : crowd.busy = false := performAllWith_idle _ rfl
  have hn : crowd.notifier.Numbered := built_numbered {} {} ["first", "second"] [] _
  have hlist : after.notifier.observers = [(0, ⟨"first", []⟩), (1, ⟨"second", []⟩), (4, ⟨"fifth", []⟩)] := rfl
  obtain ⟨-, hone, hrun, hcourse⟩ := delivery_settled_at_start carried silent
  obtain ⟨ns, hns⟩ := hcourse [.add { id := 1, classifier := .scs }, .delete (.id 1) .scs] crowd hi
  obtain ⟨hdeliveries, hheard⟩ := hrun crowd ns after hi hn hns
  obtain ⟨hsame, hall⟩ := hheard (0, ⟨"first", []⟩) (.head _) (hlist ▸ .head _) (1, ⟨"second", []⟩) (.tail _ (.head _))
    (hlist ▸ .tail _ (.head _))
  exact ⟨hi, hn, by decide +kernel, hlist, ⟨ns, hns, hdeliveries, hsame, hall⟩,
    fun event => (hone event { crowd with busy := true } (Or.inl rfl)).1⟩

end Engine
end TrafficRules
