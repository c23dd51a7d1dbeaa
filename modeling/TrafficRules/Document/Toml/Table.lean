import TrafficRules.Document.Setting
/-!
# Table — what the headers and keys of TOML build

A table comes from a header of its own, from the headers of tables inside it (`implied`), or from a key with points
(`dotted`).  Each name is given once: a header may name a table that only headers of inner tables made before, a key
goes on only with tables that keys with points made, and what is the value of a key is closed.  A header that may be
repeated makes a list of tables, of which the last is open.

What statements have built is kept with the path of the header that counts (`Building`).
-/
namespace TrafficRules
namespace Toml

inductive Origin where
  | header
  | implied
  | dotted
  deriving DecidableEq, Repr

inductive Item where
  | value (v : Setting)
  | table (origin : Origin) (entries : List (String × Item))
  | tables (earlier : List Setting) (last : List (String × Item))

namespace Item

mutual

def toSetting : Item → Setting
  | .value v => v
  | .table _ entries => .table (entrySettings entries)
  | .tables earlier last => .list (earlier ++ [.table (entrySettings last)])

def entrySettings : List (String × Item) → List (String × Setting)
  | [] => []
  | (name, item) :: es => (name, item.toSetting) :: entrySettings es

end

def alter? (name : String) (f : Option Item → Option Item) : List (String × Item) → Option (List (String × Item))
  | [] => (f none).map fun item => [(name, item)]
  | e :: es =>
    if e.1 = name then (f (some e.2)).map fun item => (name, item) :: es else (alter? name f es).map (e :: ·)

/-- Puts a value behind a key, whose last name has to be new in a table that a key with the same points made. -/
def put? (v : Setting) : List String → List (String × Item) → Option (List (String × Item))
  | [], _ => none
  | [name], entries => alter? name (fun old => if old.isNone then some (.value v) else none) entries
  | name :: path, entries => entries |> alter? name fun
    | none => (put? v path []).map (.table .dotted)
    | some (.table origin inner) =>
      if origin = .header || (origin = .implied && path.length = 1) then none
      else (put? v path inner).map (.table origin)
    | some (.tables earlier last) => if path.length = 1 then none else (put? v path last).map (.tables earlier)
    | some (.value _) => none

/-- Changes the table at the end of a path of headers. -/
def within? (f : List (String × Item) → Option (List (String × Item))) :
    List String → List (String × Item) → Option (List (String × Item))
  | [], entries => f entries
  | name :: path, entries => entries |> alter? name fun
    | none => (within? f path []).map (.table .implied)
    | some (.table origin inner) => (within? f path inner).map (.table origin)
    | some (.tables earlier last) => (within? f path last).map (.tables earlier)
    | some (.value _) => none

def openTable? (name : String) : List (String × Item) → Option (List (String × Item)) :=
  alter? name fun
    | none => some (.table .header [])
    | some (.table .implied entries) => some (.table .header entries)
    | some _ => none

def openNext? (name : String) : List (String × Item) → Option (List (String × Item)) :=
  alter? name fun
    | none => some (.tables [] [])
    | some (.tables earlier last) => some (.tables (earlier ++ [.table (entrySettings last)]) [])
    | some _ => none

end Item

/-! ## Statements -/

inductive Statement where
  | entry (key : List String) (v : Setting)
  | header (path : List String)
  | next (path : List String)

structure Building where
  entries : List (String × Item) := []
  path : List String := []

def Building.add? (b : Building) : Statement → Option Building
  | .entry key v => (Item.within? (Item.put? v key) b.path b.entries).map fun entries => { b with entries }
  | .header path => do
    let entries ← Item.within? (Item.openTable? (← path.getLast?)) path.dropLast b.entries
    some { entries, path }
  | .next path => do
    let entries ← Item.within? (Item.openNext? (← path.getLast?)) path.dropLast b.entries
    some { entries, path }

def tableOf? (statements : List Statement) : Option (List (String × Setting)) :=
  (statements.foldlM Building.add? {}).map fun b => Item.entrySettings b.entries

end Toml
end TrafficRules
