import TrafficRules.Document.Settings
import TrafficRules.Text.Decimal
/-!
# Setting — settings read generously

A setting is what a file or an environment variable says about a path of names.  A number may be spelled as a text, a
flag as a number or as a word, a text as anything but a list or a table, and a table may be the list of its values.  A
log format is a name in any case, alone or as the only name of a table.
-/
namespace TrafficRules

inductive Setting where
  | absent
  | bool (b : Bool)
  | int (n : Int)
  | real (x : Float)
  | text (s : String)
  | list (items : List Setting)
  | table (entries : List (String × Setting))
  deriving Inhabited

namespace Setting

def lower (s : String) : String := String.ofList (s.toList.map Char.toLower)

def int? (base : Nat) (cs : List Char) : Option Int :=
  let (negative, digits) := Decimal.sign cs
  let n : Option Int := (Digits.toNat? base digits).map fun n => if negative then -(n : Int) else n
  n.filter fun n => -(twoTo 63 : Int) ≤ n && n < (twoTo 63 : Int)

/-- A number with a fraction or an exponent, or the name of what is no finite number, in any case. -/
def real? (cs : List Char) : Option Float :=
  let (negative, unsigned) := Decimal.sign cs
  let signed (x : Float) : Float := if negative then -x else x
  match lower (String.ofList unsigned) with
  | "inf" | "infinity" => some (signed (1.0 / 0.0))
  | "nan" => some (signed (0.0 / 0.0))
  | _ => (Decimal.parse? cs).map (·.toFloat)

def isYes (s : String) : Bool := ["true", "on", "yes"].contains (lower s)

def isNo (s : String) : Bool := ["false", "off", "no"].contains (lower s)

/-- A number not below zero.  A fraction is rounded; what is too large, too small or no number gives the nearest
bound. -/
def count? : Setting → Option UInt64
  | .int n => if 0 ≤ n then some (UInt64.ofNat n.toNat) else none
  | .bool b => some (if b then 1 else 0)
  | .real x => some (if x.isNaN then 0 else x.round.toUInt64)
  | .text s =>
    if isYes s then some 1
    else if isNo s then some 0
    else
      let digits := match s.toList with
        | '+' :: cs => cs
        | cs => cs
      ((Digits.toNat? 10 digits).filter (· < UInt64.size)).map UInt64.ofNat
  | _ => none

def byte? (v : Setting) : Option UInt8 :=
  (v.count?.filter (·.toNat < UInt8.size)).map (·.toUInt8)

def flag? : Setting → Option Bool
  | .bool b => some b
  | .int n => some (n ≠ 0)
  | .real x => some (x != 0.0)
  | .text s => if isYes s || s = "1" then some true else if isNo s || s = "0" then some false else none
  | _ => none

def text? : Setting → Option String
  | .text s => some s
  | .bool b => some (if b then "true" else "false")
  | .int n => some (toString n)
  | .real x => some (Decimal.render x)
  | _ => none

def format? : Setting → Option LogFormat
  | .text s => LogFormat.all.find? (sameIgnoringCase ·.name s)
  | .table [e] => LogFormat.all.find? (sameIgnoringCase ·.name e.1)
  | _ => none

def source : SettingsSource Setting where
  entries? names
    | .table entries => some entries
    | .list items => some (names.zip items)
    | _ => none
  count? := count?
  byte? := byte?
  flag? := flag?
  text? := text?
  optionalText?
    | .absent => some none
    | v => (text? v).map some
  format? := format?

end Setting
end TrafficRules
