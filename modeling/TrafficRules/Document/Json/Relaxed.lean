import TrafficRules.Document.Json.Read
import TrafficRules.Document.Setting
/-!
# Relaxed — JSON the way it is written by hand

Comments, names without quotes, texts between apostrophes, a comma behind the last item and more spellings of numbers
than JSON has: base sixteen, a point at either end, and names for what is no finite number.  A gap is space and
comments, of which the one opened by `/*` has to be closed.

Every reader gives what it read and the characters behind it: a value up to the gap behind it, items and fields behind
an opening mark or a comma.  `fuel` bounds the characters of a text and the calls for a value.
-/
namespace TrafficRules
namespace Json
namespace Relaxed

/-! ## Space -/

def isLineEnd (c : Char) : Bool := ['\n', '\r', '\u2028', '\u2029'].contains c

def isSpace (c : Char) : Bool :=
  isLineEnd c
    || ['\t', '\x0b', '\x0c', ' ', '\u00A0', '\uFEFF', '\u1680', '\u202F', '\u205F', '\u3000'].contains c
    || ('\u2000' ≤ c && c ≤ '\u200A')

inductive Gap where
  | space
  | line
  | block
  deriving DecidableEq, Repr

/-- What follows space and comments.  A comment that is opened by `/*` has to be closed. -/
def skip? : Gap → List Char → Option (List Char)
  | .space, '/' :: '/' :: cs => skip? .line cs
  | .space, '/' :: '*' :: cs => skip? .block cs
  | .space, c :: cs => if isSpace c then skip? .space cs else some (c :: cs)
  | .line, c :: cs => skip? (if isLineEnd c then .space else .line) cs
  | .block, '*' :: '/' :: cs => skip? .space cs
  | .block, _ :: cs => skip? .block cs
  | .block, [] => none
  | _, [] => some []

/-! ## Texts -/

def escapes : List (Char × Char) :=
  [('b', '\x08'), ('f', '\x0c'), ('n', '\n'), ('r', '\r'), ('t', '\t'), ('v', '\x0b'), ('0', '\x00')]

/-- The characters an escape stands for: none where it joins two lines, else one. -/
def escape? : List Char → Option (List Char × List Char)
  | [] => none
  | '\r' :: '\n' :: cs => some ([], cs)
  | 'u' :: cs => (unicode? cs).map fun (c, n) => ([c], cs.drop n)
  | 'x' :: high :: low :: cs => (Digits.toNat? 16 [high, low]).map fun n => ([Char.ofNat n], cs)
  | c :: cs =>
    if isLineEnd c then some ([], cs)
    else if c = 'x' || ('1' ≤ c && c ≤ '9') then none
    else some ([(escapes.lookup c).getD c], cs)

def characters (quote : Char) : Nat → List Char → Option (List Char × List Char)
  | _, [] => none
  | 0, _ => none
  | fuel + 1, c :: cs => do
    if c = quote then return ([], cs)
    if isLineEnd c then none
    let (here, cs) ← if c = '\\' then escape? cs else some ([c], cs)
    let (text, rest) ← characters quote fuel cs
    return (here ++ text, rest)

def text? : List Char → Option (String × List Char)
  | [] => none
  | c :: cs =>
    if c = '"' || c = '\'' then (characters c (cs.length + 1) cs).map fun (s, rest) => (String.ofList s, rest) else none

def isNameChar (c : Char) : Bool := c.isAlphanum || c = '$' || c = '_' || (128 ≤ c.toNat && !isSpace c)

def name? (cs : List Char) : Option (String × List Char) :=
  if cs.head?.any fun c => isNameChar c && !c.isDigit then
    some (String.ofList (cs.takeWhile isNameChar), cs.dropWhile isNameChar)
  else text? cs

/-! ## Numbers -/

def exponent : List Char → List Char × List Char
  | [] => ([], [])
  | c :: cs =>
    let (sign, behind) := match cs with
      | '+' :: cs => (['+'], cs)
      | '-' :: cs => (['-'], cs)
      | cs => ([], cs)
    let (digits, rest) := Digits.span 10 behind
    if (c = 'e' || c = 'E') && !digits.isEmpty then ('e' :: sign ++ digits, rest) else ([], c :: cs)

/-- A number in base ten: an integer of 64 bits, or one with a point or an exponent. -/
def decimal? (sign cs : List Char) : Option (Setting × List Char) := do
  let (whole, cs) := match cs with
    | '0' :: cs => (['0'], cs)
    | cs => Digits.span 10 cs
  let (fraction, cs) := match cs with
    | '.' :: more =>
      let (digits, rest) := Digits.span 10 more
      if whole.isEmpty && digits.isEmpty then ([], cs) else ('.' :: digits, rest)
    | cs => ([], cs)
  if whole.isEmpty && fraction.isEmpty then none
  let (exponent, cs) := exponent cs
  if fraction.isEmpty && exponent.isEmpty then (Setting.int? 10 (sign ++ whole)).map fun n => (.int n, cs)
  else
    let d ← Decimal.parse? (sign ++ whole ++ fraction ++ exponent)
    if d.isFinite then some (.real d.toFloat, cs) else none

def words : List (String × Float) := [("Infinity", 1.0 / 0.0), ("NaN", 0.0 / 0.0)]

/-- A number.  The names may have a minus in front, and what is in base sixteen has 32 bits and no sign. -/
def number? (cs : List Char) : Option (Setting × List Char) :=
  let (sign, unsigned) := match cs with
    | '-' :: cs => (['-'], cs)
    | '+' :: cs => (['+'], cs)
    | cs => ([], cs)
  match words.find? (·.1.toList.isPrefixOf unsigned) with
  | some (word, x) =>
    if sign = ['+'] then none else some (.real (if sign.isEmpty then x else -x), unsigned.drop word.length)
  | none =>
    match unsigned with
    | '0' :: c :: digits =>
      if c = 'x' || c = 'X' then
        let (digits, rest) := Digits.span 16 digits
        if sign.isEmpty then
          ((Digits.toNat? 16 digits).filter (· < UInt32.size)).map fun n => (.int n, rest)
        else none
      else decimal? sign unsigned
    | _ => decimal? sign unsigned

/-! ## Values -/

def scalar? (cs : List Char) : Option (Setting × List Char) :=
  let words : List (String × Setting) := [("null", .absent), ("true", .bool true), ("false", .bool false)]
  match words.find? (·.1.toList.isPrefixOf cs) with
  | some (word, v) => some (v, cs.drop word.length)
  | none =>
    match text? cs with
    | some (s, rest) => some (.text s, rest)
    | none => number? cs

mutual

/-- A value behind its gap, up to the gap behind it.  `fuel` bounds the calls. -/
def value? : Nat → List Char → Option (Setting × List Char)
  | 0, _ => none
  | fuel + 1, cs => do
    let (v, rest) ← match ← skip? .space cs with
      | '[' :: cs => (items? fuel cs).map fun (vs, rest) => (.list vs, rest)
      | '\x7b' :: cs => (fields? fuel cs).map fun (fs, rest) => (.table fs, rest)
      | cs => scalar? cs
    return (v, ← skip? .space rest)

def items? : Nat → List Char → Option (List Setting × List Char)
  | 0, _ => none
  | fuel + 1, cs => do
    match ← skip? .space cs with
    | ']' :: rest => return ([], rest)
    | cs =>
      let (v, rest) ← value? fuel cs
      match rest with
      | ',' :: rest => (items? fuel rest).map fun (vs, rest) => (v :: vs, rest)
      | ']' :: rest => return ([v], rest)
      | _ => none

/-- The fields of a record behind its opening brace or a comma.  A later field replaces one of the same name. -/
def fields? : Nat → List Char → Option (List (String × Setting) × List Char)
  | 0, _ => none
  | fuel + 1, cs => do
    match ← skip? .space cs with
    | '\x7d' :: rest => return ([], rest)
    | cs =>
      let (name, rest) ← name? cs
      match ← skip? .space rest with
      | ':' :: rest =>
        let (v, rest) ← value? fuel rest
        match rest with
        | ',' :: rest =>
          (fields? fuel rest).map fun (fs, rest) => (if fs.any (·.1 == name) then fs else (name, v) :: fs, rest)
        | '\x7d' :: rest => return ([(name, v)], rest)
        | _ => none
      | _ => none

end

def parse? (text : String) : Option Setting := do
  let cs := text.toList
  let (v, rest) ← value? (2 * cs.length + 2) cs
  if rest.isEmpty then some v else none

end Relaxed
end Json
end TrafficRules
