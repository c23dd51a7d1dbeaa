import TrafficRules.Document.Value
import TrafficRules.Document.Yaml.Node
import TrafficRules.Text.Decimal
/-!
# Core — what a plain scalar means

A plain scalar is null, a boolean, a number or a text, and its spelling decides which.  A quoted one is always a text.
Digits behind a leading zero, perhaps with a sign, are a text too.  A number is in base sixteen, eight, two or ten;
reals have a fraction, an exponent or neither, or are infinities.  A tag decides in place of the spelling.

A document is read as data by following its aliases (`Following`).  As many may be followed as a hundred for everything
that is written, where a list and a mapping count for two and everything else for one, and no more lists and mappings
may stand in each other than `depthLimit`.  Where nothing is written there is a list without items and a mapping without
entries.
-/
namespace TrafficRules
namespace Yaml

def isNull (s : String) : Bool := ["", "~", "null", "Null", "NULL"].contains s

def bool? (s : String) : Option Bool :=
  if ["true", "True", "TRUE"].contains s then some true
  else if ["false", "False", "FALSE"].contains s then some false
  else none

def isZeroPadded (cs : List Char) : Bool :=
  match (Decimal.sign cs).2 with
  | '0' :: d :: ds => (d :: ds).all (Digits.isDigit 10)
  | _ => false

def digits? : List Char → Option Nat
  | '0' :: 'x' :: cs => Digits.toNat? 16 cs
  | '0' :: 'o' :: cs => Digits.toNat? 8 cs
  | '0' :: 'b' :: cs => Digits.toNat? 2 cs
  | cs => Digits.toNat? 10 cs

def natural? (cs : List Char) : Option Nat :=
  if isZeroPadded cs then none
  else
    match cs with
    | '+' :: cs => digits? cs
    | cs => digits? cs

def int? (cs : List Char) : Option Int :=
  match cs with
  | '-' :: digits => if isZeroPadded cs then none else (digits? digits).map fun n => -(n : Int)
  | _ => (natural? cs).map fun n => (n : Int)

def isReal (s : String) : Bool :=
  [".inf", ".Inf", ".INF", "+.inf", "+.Inf", "+.INF", "-.inf", "-.Inf", "-.INF", ".nan", ".NaN", ".NAN"].contains s
    || (Decimal.parse? s.toList).any (·.isFinite)

/-- Integers of at most 64 bits are values; up to 128 bits they are too wide to be any; beyond that they are reals. -/
def fitsWord (n : Int) : Bool := -(twoTo 63 : Int) ≤ n && n < (twoTo 64 : Int)

def fitsDoubleWord (n : Int) : Bool := -(twoTo 127 : Int) ≤ n && n < (twoTo 128 : Int)

/-- An integer as a value, unless it is too wide; `otherwise` if the text is none. -/
def integer? (s : String) (otherwise : Option Value) : Option Value :=
  match (int? s.toList).filter fitsDoubleWord with
  | some n => if fitsWord n then some (.int n) else none
  | none => otherwise

def resolve? (s : String) : Option Value :=
  if isNull s then some .null
  else if let some b := bool? s then some (.bool b)
  else integer? s (some (if isReal s && !isZeroPadded s.toList then .foreign s else .text s))

/-- The value of a scalar with a tag that is not the document's own.  A tag that names no type of scalars makes a
text. -/
def tagged? (t : Tag) (s : String) : Option Value :=
  match t.coreName with
  | "bool" => (bool? s).map .bool
  | "int" => integer? s none
  | "float" => if isReal s then some (.foreign s) else none
  | "null" => if isNull s && s ≠ "" then some .null else none
  | _ => some (.text s)

/-- A key as a value.  Behind a minus sign not even a zero counts. -/
def keyValue : Value → Node → Value
  | .int n, .scalar s true => if s.startsWith "-" then .foreign s else .int n
  | v, _ => v

/-! ## Following aliases -/

namespace Node

mutual

/-- How much is written: a list and a mapping count for two, everything else for one. -/
def size : Node → Nat
  | .list items => sizeOfItems items + 2
  | .mapping entries => sizeOfEntries entries + 2
  | .tagged _ v => size v
  | _ => 1

def sizeOfItems : List Node → Nat
  | [] => 0
  | v :: vs => size v + sizeOfItems vs

def sizeOfEntries : List (Node × Node) → Nat
  | [] => 0
  | (k, v) :: es => size k + size v + sizeOfEntries es

end

end Node

abbrev Following := StateT Nat Option

namespace Document

def aliasLimit (d : Document) : Nat := 100 * d.root.size

def target? (d : Document) : Node → Option Node
  | .alias n => d.anchored.lookup n
  | v => some v

/-- Follows an alias, one of those that are left. -/
def follow (d : Document) : Node → Following Node
  | .alias n => do
    let left ← get
    if left = 0 then failure
    set (left - 1)
    StateT.lift (d.anchored.lookup n)
  | v => pure v

def scalar (d : Document) (v : Node) : Following String := do
  match (← d.follow v).bare with
  | .scalar s _ => pure s
  | _ => failure

/-- A boolean that is written plainly, whatever its tag. -/
def flag (d : Document) (v : Node) : Following Value := do
  match (← d.follow v).bare with
  | .scalar s true => StateT.lift ((bool? s).map .bool)
  | _ => failure

def items (d : Document) (v : Node) : Following (List Node) := do
  match (← d.follow v).bare with
  | .list items => pure items
  | .scalar "" true => pure []
  | _ => failure

def entries (d : Document) (v : Node) : Following (Entries Node) := do
  match (← d.follow v).bare with
  | .mapping entries => entries.mapM fun (k, v) => return (← d.scalar k, v)
  | .scalar "" true => pure []
  | _ => failure

def depthLimit : Nat := 128

/-- The value of a scalar, whose type is that of its tag if it has one. -/
def scalarValue? (t : Option Tag) (s : String) (plain : Bool) : Option Value :=
  match t with
  | some t => tagged? t s
  | none => if plain then resolve? s else some (.text s)

/-- The value of a node with at most `depth` lists and mappings in each other, held until its type is known.  Nothing
can be held that has a tag of the document's own. -/
def value (d : Document) : Nat → Node → Following Value
  | depth, v => do
    let v ← d.follow v
    if (v.tag?.bind Tag.own?).isSome then failure
    match v.bare, depth with
    | .scalar s plain, _ => StateT.lift (scalarValue? v.tag? s plain)
    | .list items, depth + 1 => do
      let items ← items.mapM (value d depth)
      return .list items
    | .mapping entries, depth + 1 => do
      let entries ← entries.mapM fun e => do
        let k ← value d depth e.1
        let v ← value d depth e.2
        return (keyValue k ((d.target? e.1).getD e.1), v)
      return .mapping entries
    | _, _ => failure

end Document
end Yaml
end TrafficRules
