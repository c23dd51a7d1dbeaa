import TrafficRules.Document.Entries
/-!
# Value — documents as data

The common form of everything read and written: scalars, lists, and records whose fields keep their order.  A type's
record form is written by `toValue` and read by `ofValue?`; reading refuses a field given twice and skips fields it does
not know.  A field without a value is left out where it is written (`presentField`), and may be absent or null where it
is read (`Fields.optional`).

What is held before its type is known is a mapping under keys of any kind (`held`), and is read more generously than a
record: a key may count to the field or the case it means, and a case may list its fields or carry an empty mapping for
nothing.

A choice between cases is written as the case's name, or as one field or entry of that name with what the case carries.
`Choice` is what was written, and whether it is held; the reader of the case decides whether it carries nothing
(`isBare`) or fields (`Choice.fields?`).
-/
namespace TrafficRules

inductive Value where
  | null
  | bool (b : Bool)
  | int (n : Int)
  /-- What no field takes, as it was spelled: a number with a fraction or an exponent. -/
  | foreign (spelling : String)
  | text (s : String)
  | list (items : List Value)
  | record (fields : List (String × Value))
  | mapping (entries : List (Value × Value))
  deriving Inhabited, Repr, BEq

abbrev Fields := Entries Value

namespace Value

def orNull? {α : Type} (read : Value → Option α) : Value → Option (Option α)
  | .null => some none
  | v => (read v).map some

/-! ## What is held -/

mutual

def held : Value → Value
  | .list vs => .list (heldItems vs)
  | .record fs => .mapping (heldFields fs)
  | .mapping es => .mapping (heldEntries es)
  | v => v

def heldItems : List Value → List Value
  | [] => []
  | v :: vs => held v :: heldItems vs

def heldFields : List (String × Value) → List (Value × Value)
  | [] => []
  | (name, v) :: fs => (.text name, held v) :: heldFields fs

def heldEntries : List (Value × Value) → List (Value × Value)
  | [] => []
  | (k, v) :: es => (held k, held v) :: heldEntries es

end

/-- The name that a key means, by its text or by counting from zero.  A key that counts past the names means none of
them. -/
def keyName? (names : List String) : Value → Option (Option String)
  | .text s => some (some s)
  | .int n => if 0 ≤ n then some names[n.toNat]? else none
  | _ => none

/-- The entries of a mapping under the names that their keys mean. -/
def fieldsOf? (names : List String) : List (Value × Value) → Option Fields
  | [] => some []
  | (k, v) :: es => do
    let name ← keyName? names k
    let fs ← fieldsOf? names es
    some ((name.map (·, v)).toList ++ fs)

/-! ## Reading -/

/-- The fields of a record.  A record with the given field names may also be written as the list of its leading
values, at least `needed` of them. -/
def fields? (names : List String) (needed : Nat) : Value → Option Fields
  | .record fs => some fs
  | .mapping es => fieldsOf? names es
  | .list vs => if needed ≤ vs.length ∧ vs.length ≤ names.length then some (names.zip vs) else none
  | _ => none

def bool? : Value → Option Bool
  | .bool b => some b
  | _ => none

def text? : Value → Option String
  | .text s => some s
  | _ => none

def natBelow? (bound : Nat) : Value → Option Nat
  | .int n => if 0 ≤ n ∧ n.toNat < bound then some n.toNat else none
  | _ => none

def u8? (v : Value) : Option UInt8 := (v.natBelow? UInt8.size).map UInt8.ofNat

def u16? (v : Value) : Option UInt16 := (v.natBelow? UInt16.size).map UInt16.ofNat

def u32? (v : Value) : Option UInt32 := (v.natBelow? UInt32.size).map UInt32.ofNat

def u64? (v : Value) : Option UInt64 := (v.natBelow? UInt64.size).map UInt64.ofNat

def list? {α : Type} (read : Value → Option α) : Value → Option (List α)
  | .list vs => vs.mapM read
  | _ => none

def parsed? {α : Type} (parse : String → Option α) (v : Value) : Option α := v.text?.bind parse

/-- A choice between cases as it is written. -/
structure Choice where
  name : String
  content : Option Value := none
  isHeld : Bool := false

/-- A choice between the cases of these names: a name alone, or one field or entry holding what the case carries. -/
def choice? (names : List String) : Value → Option Choice
  | .text s => some { name := s }
  | .record [(name, v)] => some { name, content := some v }
  | .mapping [(k, v)] => (keyName? names k).bind (·.map fun name => { name, content := some v, isHeld := true })
  | _ => none

namespace Choice

def isBare (c : Choice) : Bool :=
  match c.content with
  | none | some .null | some (.mapping []) => true
  | _ => false

def fields? (names : List String) (c : Choice) : Option Fields :=
  match c.content with
  | some (.list vs) => if c.isHeld then (Value.list vs).fields? names names.length else none
  | some v => v.fields? names names.length
  | none => none

end Choice

def named? {α : Type} (names : List String) (ofName? : String → Option α) (v : Value) : Option α :=
  (v.choice? names).bind fun c => if c.isBare then ofName? c.name else none

def ofNat (n : Nat) : Value := .int n

def u8 (n : UInt8) : Value := .ofNat n.toNat

def u16 (n : UInt16) : Value := .ofNat n.toNat

def u32 (n : UInt32) : Value := .ofNat n.toNat

def u64 (n : UInt64) : Value := .ofNat n.toNat

def orNull {α : Type} (write : α → Value) : Option α → Value
  | none => .null
  | some a => write a

def presentField {α : Type} (name : String) (write : α → Value) : Option α → Fields
  | none => []
  | some a => [(name, write a)]

end Value

def Fields.optional {α : Type} (fs : Fields) (name : String) (read : Value → Option α) : Option (Option α) :=
  fs.withDefault name none (Value.orNull? read)

end TrafficRules
