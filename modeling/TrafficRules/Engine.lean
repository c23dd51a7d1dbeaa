import TrafficRules.Engine.Command
import TrafficRules.Engine.Notifier
/-!
# Engine — one writer at a time, everyone told

An engine is a table behind a writer flag, with the observers of its changes, the number last given to an observer of each
name and the notes of what happened inside a command, in order.  A change takes the flag before its first check and gives
it back after the last observer has been told, so a change an observer asks for is always refused: `Engine.perform` runs the
commands of observers with nobody to tell.  Queries, and requests that only query, need no flag.  Every observer present
is told of an event, in order of registration; an observer is unregistered under the name it was last registered by.
-/
namespace TrafficRules

structure Observer where
  name : String
  reactions : List Command := []

inductive Note where
  | told (observer : String) (event : Event)
  | reacted (observer : String) (reply : Reply)
  | consulted (call : Consultation)

structure Engine where
  table : Table := {}
  busy : Bool := false
  notifier : Notifier Observer := {}
  names : List (String × Nat) := []
  held : List (String × Store) := []
  notes : List Note := []

namespace Engine

def note (e : Engine) (ns : List Note) : Engine := { e with notes := e.notes ++ ns }

def takeNotes (e : Engine) : Engine × List Note := ({ e with notes := [] }, e.notes)

/-- Carries out a change unless a writer holds the table. -/
def write {α : Type} (tell : Event → Engine → Engine) (change : Table → Transition α) (e : Engine) :
    Engine × Except UpdateError α :=
  if e.busy then ({ e with table := e.table.tally .rejected }, .error .concurrentWriteRejected)
  else
    let tr := change e.table
    let e := { e with table := tr.table, busy := true }.note (tr.consulted.map .consulted)
    let e := match tr.event with
      | none => e
      | some event => tell event e
    ({ e with busy := false }, tr.result)

/-- Carries out the command of a request; a query needs no flag. -/
def update (tell : Event → Engine → Engine) (q : RuleRequest) (e : Engine) : Engine × UpdateResult :=
  match AdminCommand.ofCode? q.command with
  | none => (e, .error (.unknownCommand q.command))
  | some .add => e.write tell (·.add q.rule)
  | some .delete => e.write tell (·.delete q.rule.selector q.rule.classifier)
  | some .query => (e, (e.table.query q.rule.selector q.rule.classifier).map .found)

def classify (i : ClassifyInput) (e : Engine) : Engine × Decision :=
  ({ e with table := e.table.counting i }.note ((e.table.queryCalls i).map .consulted), e.table.decide i)

def observe (e : Engine) (o : Observer) : Engine :=
  let (notifier, id) := e.notifier.register o
  { e with notifier, names := (o.name, id) :: e.names }

def unobserve (e : Engine) (name : String) : Engine × Option Bool :=
  match e.names.lookup name with
  | none => (e, none)
  | some id =>
    let (notifier, present) := e.notifier.unregister id
    ({ e with notifier }, some present)

def describe (e : Engine) : String :=
  s!"RuleTable \x7b rules: {e.table.size}, max_rules: {e.table.config.maxRules}, observers: {e.notifier.size}, "
    ++ s!"plugins: WifiPluginRegistry \x7b validator: {e.table.plugins.validator.isSome}, "
    ++ s!"query: {e.table.plugins.query.isSome} \x7d \x7d"

/-- Performs a command, telling observers by `tell`. -/
def performWith (tell : Event → Engine → Engine) (c : Command) (e : Engine) : Engine × Reply :=
  match c with
  | .add r => (e.write tell (·.add r)).map id .update
  | .update q => (e.update tell q).map id (.request q.rule.id)
  | .delete sel c => (e.write tell (·.delete sel c)).map id .update
  | .query sel c => (e, .rule (e.table.query sel c))
  | .queryByType c => (e, .listing (e.table.queryByType c))
  | .flush c => (e.write tell (·.flush c)).map id .flushed
  | .apply s => (RuleSet.applyTo (fun e r => e.write tell (·.add r)) s.rules {} e).map id .applied
  | .classify i => (e.classify i).map id .decided
  | .rules => (e, .rules e.table.rules)
  | .dump => (e, .lines (e.table.rules.map (·.render)))
  | .describe => (e, .text e.describe)
  | .config => (e, .config e.table.config)
  | .isEmpty => (e, .flag e.table.store.isEmpty)
  | .counters => (e, .counters e.table.counters)
  | .chain hash => (e, .chain (e.table.store.flowChain hash))
  | .hold name => ({ e with held := (name, e.table.store) :: e.held }, .done)
  | .held name => (e, .store (e.held.lookup name))
  | .observe name reactions => (e.observe ⟨name, reactions⟩, .done)
  | .unobserve name => (e.unobserve name).map id .optionalFlag
  | .registerPlugin c v =>
    match e.table.plugins.register c v with
    | .error x => (e, .registered (.error x))
    | .ok plugins => ({ e with table := { e.table with plugins } }, .registered (.ok ()))
  | .unregisterPlugin c =>
    let plugins := e.table.plugins.unregister c
    ({ e with table := { e.table with plugins } }, .flag (plugins.slot c).isSome)
  | .pluginSlots => (e, .slots e.table.plugins.validator.isSome e.table.plugins.query.isSome)
  | .pluginValidate q =>
    (e.note ((e.table.plugins.validator.map fun v => .consulted ⟨.validate, q, v q⟩).toList),
      .verdict (e.table.plugins.validate q))
  | .pluginQuery q =>
    (e.note ((e.table.plugins.query.map fun v => .consulted ⟨.query, q, v q⟩).toList),
      .optionalFlag (e.table.plugins.ask? q))
  | .unreadable f => (e, .refused f)

/-- What one observer does when told: it notes the event, then performs its commands and notes the replies. -/
def react (event : Event) (o : Observer) (e : Engine) : Engine :=
  o.reactions.foldl
    (fun e c =>
      let (e, reply) := performWith (fun _ e => e) c e
      e.note [.reacted o.name reply])
    (e.note [.told o.name event])

def tell (event : Event) (e : Engine) : Engine := e.notifier.deliver (react event) e

def perform (c : Command) (e : Engine) : Engine × Reply := performWith tell c e

/-- An engine over a fresh table, its observers told of the rules it starts with; stops at the first rule refused. -/
def build (config : TableConfig) (plugins : Plugins) (observers : List String) (rules : List Rule) :
    Engine × Except UpdateError Unit :=
  let notifier := observers.foldl (fun n name => (n.register ⟨name, []⟩).1) {}
  addAll rules { table := { config, plugins }, notifier }
where
  addAll : List Rule → Engine → Engine × Except UpdateError Unit
    | [], e => (e, .ok ())
    | r :: rs, e =>
      match e.write tell (·.add r) with
      | (e, .error x) => (e, .error x)
      | (e, .ok _) => addAll rs e

end Engine
end TrafficRules
