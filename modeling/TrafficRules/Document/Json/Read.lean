import TrafficRules.Document.Value
import TrafficRules.Text.Digits
/-!
# Read — JSON text as data

The grammar of JSON to the letter: nothing may follow the last item of a list, a number has no needless zero in front,
and a control character in a text has to be escaped.  Of fields of one name the last counts.  Lists and records may
stand in each other up to a limit (`depthLimit`).

Readers give what they read and the characters behind it, and take a `fuel` where they go over more than a character at
a time: it bounds the characters of a text, and the calls for a value, its items and its fields.

A number is kept as it is spelled first: sign, digits before and behind the point, and the exponent's sign and digits.
Integers of 64 bits are numbers; all others keep their spelling, provided that a double can hold them.  The double is
computed by the steps a double takes there, scaled by powers of ten up to `10 ^ 308`, so it is the nearest one or one
beside it.
-/
namespace TrafficRules
namespace Json

def isSpace (c : Char) : Bool := c = ' ' || c = '\n' || c = '\t' || c = '\r'

def skipSpace (cs : List Char) : List Char := cs.dropWhile isSpace

/-! ## Texts -/

def escapes : List (Char × Char) :=
  [('"', '"'), ('\\', '\\'), ('/', '/'), ('b', '\x08'), ('f', '\x0c'), ('n', '\n'), ('r', '\r'), ('t', '\t')]

def unit? (cs : List Char) : Option Nat :=
  let digits := cs.take 4
  if digits.length = 4 then Digits.toNat? 16 digits else none

/-- The character an escape behind `u` stands for, and how many characters spell it.  One beyond sixteen bits is a
pair of escapes. -/
def unicode? (cs : List Char) : Option (Char × Nat) := do
  let n ← unit? cs
  if n.isValidChar then some (Char.ofNat n, 4)
  else
    match cs.drop 4 with
    | '\\' :: 'u' :: more =>
      let low ← unit? more
      if n < 0xDC00 ∧ 0xDC00 ≤ low ∧ low < 0xE000 then
        some (Char.ofNat (0x10000 + (n - 0xD800) * 0x400 + (low - 0xDC00)), 10)
      else none
    | _ => none

def characters : Nat → List Char → Option (List Char × List Char)
  | _, [] => none
  | 0, _ => none
  | fuel + 1, c :: cs =>
    if c = '"' then some ([], cs)
    else if c.toNat < 32 then none
    else if c ≠ '\\' then front c (characters fuel cs)
    else
      match cs with
      | 'u' :: cs =>
        match unicode? cs with
        | some (c, n) => front c (characters fuel (cs.drop n))
        | none => none
      | e :: cs =>
        match escapes.lookup e with
        | some c => front c (characters fuel cs)
        | none => none
      | [] => none
where
  front (c : Char) : Option (List Char × List Char) → Option (List Char × List Char)
    | some (text, rest) => some (c :: text, rest)
    | none => none

/-! ## Numbers -/

structure Number where
  negative : Bool
  whole : List Char
  fraction : List Char := []
  exponent : Option (Bool × List Char) := none
  deriving DecidableEq, Repr

namespace Number

def spelling (n : Number) : String :=
  String.ofList ((if n.negative then ['-'] else []) ++ n.whole
    ++ (if n.fraction.isEmpty then [] else '.' :: n.fraction)
    ++ match n.exponent with
      | none => []
      | some (negative, digits) => 'e' :: (if negative then '-' :: digits else digits))

/-- A number, and what follows it. -/
def read? (cs : List Char) : Option (Number × List Char) := do
  let (negative, cs) := match cs with
    | '-' :: cs => (true, cs)
    | cs => (false, cs)
  let (whole, cs) := Digits.span 10 cs
  if whole.isEmpty || (whole.head? = some '0' && whole.length ≠ 1) then none
  let (fraction, cs) ← (match cs with
    | '.' :: cs =>
      let (fraction, cs) := Digits.span 10 cs
      if fraction.isEmpty then none else some (fraction, cs)
    | cs => some ([], cs))
  match cs with
  | [] => some ({ negative, whole, fraction }, [])
  | c :: more =>
    if c = 'e' || c = 'E' then
      let (down, more) := match more with
        | '-' :: more => (true, more)
        | '+' :: more => (false, more)
        | more => (false, more)
      let (digits, more) := Digits.span 10 more
      if digits.isEmpty then none else some ({ negative, whole, fraction, exponent := some (down, digits) }, more)
    else some ({ negative, whole, fraction }, cs)

def int? (n : Number) : Option Int :=
  if n.fraction.isEmpty && n.exponent.isNone then
    match Digits.toNat? 10 n.whole with
    | some m =>
      if n.negative then (if 0 < m ∧ m ≤ twoTo 63 then some (-(m : Int)) else none)
      else if m < UInt64.size then some m else none
    | none => none
  else none

/-- The leading digits that make a number of 64 bits, on top of `acc`, and how many digits follow them. -/
def significandFrom (acc : Nat) : List Char → Nat × Nat
  | [] => (acc, 0)
  | c :: cs =>
    let next := acc * 10 + ((Digits.value? 10 c).getD 0)
    if next < UInt64.size then significandFrom next cs else (acc, cs.length + 1)

/-- The number as a whole number of 64 bits and a power of ten.  Digits that no longer fit count as zeros before the
point and not at all behind it. -/
def scaled (n : Number) : Nat × Int :=
  let (whole, zeros) := significandFrom 0 n.whole
  let (all, dropped) := significandFrom whole n.fraction
  let exponent : Int := match n.exponent with
    | none => 0
    | some (negative, digits) =>
      let m : Int := (Digits.toNat? 10 digits).getD 0
      if negative then -m else m
  (all, zeros - ((n.fraction.length - dropped : Nat) : Int) + exponent)

def power (n : Nat) : Float := Float.ofScientific 1 false n

/-- `x · 10 ^ exponent` by the steps a double takes there; fails beyond the largest double. -/
def scale? (x : Float) (exponent : Int) : Option Float :=
  if 0 ≤ exponent then
    if exponent ≤ 308 then
      let y := x * power exponent.toNat
      if y.isInf then none else some y
    else if x == 0.0 then some x else none
  else if -308 ≤ exponent then some (x / power (-exponent).toNat)
  else if x == 0.0 then some x
  else
    let y := x / power 308
    if -616 ≤ exponent then some (y / power (-exponent - 308).toNat) else some (y / power 308)

/-- The double nearest the number, or one beside it. -/
def toFloat? (n : Number) : Option Float :=
  let (significand, exponent) := n.scaled
  (scale? (Float.ofScientific significand false 0) exponent).map fun x => if n.negative then -x else x

def ofSpelling? (s : String) : Option Float := (read? s.toList).bind (·.1.toFloat?)

end Number

def numberValue? (n : Number) : Option Value :=
  match n.int? with
  | some m => some (.int m)
  | none => n.toFloat?.map fun _ => .foreign n.spelling

/-! ## Values -/

def word? (cs : List Char) : Option (Value × List Char) :=
  let words : List (String × Value) := [("null", .null), ("true", .bool true), ("false", .bool false)]
  words.findSome? fun (word, v) => if word.toList.isPrefixOf cs then some (v, cs.drop word.length) else none

def text? : List Char → Option (String × List Char)
  | '"' :: cs => (characters (cs.length + 1) cs).map fun (text, rest) => (String.ofList text, rest)
  | _ => none

mutual

/-- A value with at most `depth` lists and records in each other, and what follows it.  `fuel` bounds the calls. -/
def value (depth : Nat) : Nat → List Char → Option (Value × List Char)
  | 0, _ => none
  | fuel + 1, cs =>
    match skipSpace cs with
    | '"' :: cs => (text? ('"' :: cs)).map fun (s, rest) => (.text s, rest)
    | '[' :: cs =>
      if depth = 0 then none
      else
        match skipSpace cs with
        | ']' :: rest => some (.list [], rest)
        | cs => (items (depth - 1) fuel cs).map fun (vs, rest) => (.list vs, rest)
    | '\x7b' :: cs =>
      if depth = 0 then none
      else
        match skipSpace cs with
        | '\x7d' :: rest => some (.record [], rest)
        | cs => (fields (depth - 1) fuel cs).map fun (fs, rest) => (.record fs, rest)
    | cs =>
      match word? cs with
      | some (v, rest) => some (v, rest)
      | none => do
        let (n, rest) ← Number.read? cs
        some (← numberValue? n, rest)

def items (depth : Nat) : Nat → List Char → Option (List Value × List Char)
  | 0, _ => none
  | fuel + 1, cs => do
    let (v, rest) ← value depth fuel cs
    match skipSpace rest with
    | ',' :: rest => (items depth fuel rest).map fun (vs, rest) => (v :: vs, rest)
    | ']' :: rest => some ([v], rest)
    | _ => none

/-- The fields of a record from one on, and what follows the record.  A later field replaces one of the same name. -/
def fields (depth : Nat) : Nat → List Char → Option (List (String × Value) × List Char)
  | 0, _ => none
  | fuel + 1, cs => do
    let (name, rest) ← text? (skipSpace cs)
    match skipSpace rest with
    | ':' :: rest =>
      let (v, rest) ← value depth fuel rest
      match skipSpace rest with
      | ',' :: rest => do
        let (fs, rest) ← fields depth fuel rest
        some (if fs.any (·.1 == name) then fs else (name, v) :: fs, rest)
      | '\x7d' :: rest => some ([(name, v)], rest)
      | _ => none
    | _ => none

end

def depthLimit : Nat := 127

def parse? (text : String) : Option Value := do
  let cs := text.toList
  let (v, rest) ← value depthLimit (2 * cs.length + 2) cs
  if (skipSpace rest).isEmpty then some v else none

end Json
end TrafficRules
