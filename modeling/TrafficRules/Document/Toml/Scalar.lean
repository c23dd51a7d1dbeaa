import TrafficRules.Document.Setting
/-!
# Scalar — texts, numbers and times of TOML

Every reader gives what it read and the characters behind it.  Texts stand between quotes or apostrophes, three of them
if the text may have several lines; escapes count between quotes only, and `fuel` bounds the characters of a text
between quotes.  A character stands for itself if it is printable or a tab.

Digits may have single underscores between them.  A number in base ten starts with no needless zero and has a fraction
or an exponent, or it is an integer of 64 bits; other bases have a mark and no sign.

A date or a time is the text of its normal form, its numbers with zeros in front.  A date may go on with a time of day,
and that with the offset from the zero meridian, `Z` included; a time of day may stand alone.  Whether a date, a time or
a number is to be read, its first characters tell (`numeric?`).
-/
namespace TrafficRules
namespace Toml

def isBlank (c : Char) : Bool := c = ' ' || c = '\t'

def skipBlanks (cs : List Char) : List Char := cs.dropWhile isBlank

def newLine? : List Char → Option (List Char)
  | '\n' :: cs => some cs
  | '\r' :: '\n' :: cs => some cs
  | _ => none

def isPrintable (c : Char) : Bool := c = '\t' || (32 ≤ c.toNat && c ≠ '\x7f')

/-- What follows the end of the text or of a line with nothing but blanks and a comment left in it. -/
def lineEnd? (cs : List Char) : Option (List Char) :=
  let cs := match skipBlanks cs with
    | '#' :: cs => cs.dropWhile isPrintable
    | cs => cs
  if cs.isEmpty then some [] else newLine? cs

/-! ## Texts -/

def escapes : List (Char × Char) :=
  [('"', '"'), ('\\', '\\'), ('b', '\x08'), ('f', '\x0c'), ('n', '\n'), ('r', '\r'), ('t', '\t')]

def codePoint? (length : Nat) (cs : List Char) : Option (Char × List Char) := do
  let digits := cs.take length
  if digits.length ≠ length then none
  let n ← Digits.toNat? 16 digits
  if n.isValidChar then some (Char.ofNat n, cs.drop length) else none

def escape? : List Char → Option (Char × List Char)
  | 'u' :: cs => codePoint? 4 cs
  | 'U' :: cs => codePoint? 8 cs
  | c :: cs => (escapes.lookup c).map fun c => (c, cs)
  | [] => none

def front (c : Char) (read : Option (List Char × List Char)) : Option (List Char × List Char) :=
  read.map fun (text, rest) => (c :: text, rest)

def quoted : Nat → List Char → Option (List Char × List Char)
  | _, [] => none
  | 0, _ => none
  | fuel + 1, c :: cs =>
    if c = '"' then some ([], cs)
    else if c = '\\' then (escape? cs).bind fun (c, cs) => front c (quoted fuel cs)
    else if isPrintable c then front c (quoted fuel cs)
    else none

def verbatim : List Char → Option (List Char × List Char)
  | [] => none
  | c :: cs =>
    if c = '\'' then some ([], cs)
    else if isPrintable c then front c (verbatim cs)
    else none

/-- How many of a run of quotes belong to a text of several lines, and whether the run closes it. -/
def closing (run : Nat) : Nat × Bool := if run < 3 then (run, false) else (min (run - 3) 2, true)

/-- A text of several lines up to its three closing quotes. -/
def quotedLines : Nat → List Char → Option (List Char × List Char)
  | _, [] => none
  | 0, _ => none
  | fuel + 1, c :: cs =>
    if c = '"' then
      let run := (c :: cs).takeWhile (· = '"')
      let (inside, closes) := closing run.length
      if closes then some (List.replicate inside c, (c :: cs).drop (inside + 3))
      else (quotedLines fuel ((c :: cs).drop inside)).map fun (text, rest) => (List.replicate inside c ++ text, rest)
    else if c = '\\' then
      match newLine? (skipBlanks cs) with
      | some cs => quotedLines fuel (cs.dropWhile fun c => isBlank c || c = '\n' || c = '\r')
      | none => (escape? cs).bind fun (c, cs) => front c (quotedLines fuel cs)
    else
      match newLine? (c :: cs) with
      | some cs => front '\n' (quotedLines fuel cs)
      | none => if isPrintable c then front c (quotedLines fuel cs) else none

def verbatimLines : Nat → List Char → Option (List Char × List Char)
  | _, [] => none
  | 0, _ => none
  | fuel + 1, c :: cs =>
    if c = '\'' then
      let run := (c :: cs).takeWhile (· = '\'')
      let (inside, closes) := closing run.length
      if closes then some (List.replicate inside c, (c :: cs).drop (inside + 3))
      else (verbatimLines fuel ((c :: cs).drop inside)).map fun (text, rest) => (List.replicate inside c ++ text, rest)
    else
      match newLine? (c :: cs) with
      | some cs => front '\n' (verbatimLines fuel cs)
      | none => if isPrintable c then front c (verbatimLines fuel cs) else none

def line? : List Char → Option (String × List Char)
  | '"' :: cs => (quoted (cs.length + 1) cs).map fun (text, rest) => (String.ofList text, rest)
  | '\'' :: cs => (verbatim cs).map fun (text, rest) => (String.ofList text, rest)
  | _ => none

/-- A text.  The end of a line right behind three opening quotes does not count. -/
def text? : List Char → Option (String × List Char)
  | '"' :: '"' :: '"' :: cs =>
    (quotedLines (cs.length + 1) ((newLine? cs).getD cs)).map fun (text, rest) => (String.ofList text, rest)
  | '\'' :: '\'' :: '\'' :: cs =>
    (verbatimLines (cs.length + 1) ((newLine? cs).getD cs)).map fun (text, rest) => (String.ofList text, rest)
  | cs => line? cs

/-! ## Numbers -/

/-- Digits, at least one.  Fails at an underscore that stands between no two of them. -/
def digits? (base : Nat) (cs : List Char) : Option (List Char × List Char) := from? false cs
where
  from? (behindDigit : Bool) : List Char → Option (List Char × List Char)
    | [] => if behindDigit then some ([], []) else none
    | c :: cs =>
      if Digits.isDigit base c then front c (from? true cs)
      else if !behindDigit then none
      else if c = '_' then from? false cs
      else some ([], c :: cs)

def radices : List (Char × Nat) := [('x', 16), ('o', 8), ('b', 2)]

def whole? : List Char → Option (List Char × List Char)
  | '0' :: cs => some (['0'], cs)
  | cs => digits? 10 cs

/-- The exponent of a number, its letter included, and nothing where none starts. -/
def exponent? : List Char → Option (List Char × List Char)
  | [] => some ([], [])
  | c :: cs =>
    if c = 'e' || c = 'E' then
      let (mark, behind) := match cs with
        | '+' :: cs => (['e'], cs)
        | '-' :: cs => (['e', '-'], cs)
        | cs => (['e'], cs)
      (digits? 10 behind).map fun (digits, rest) => (mark ++ digits, rest)
    else some ([], c :: cs)

/-- A number in base ten behind its sign.  It has a fraction or an exponent, or it is an integer of 64 bits. -/
def decimal? (negative : Bool) (cs : List Char) : Option (Setting × List Char) := do
  let sign := if negative then ['-'] else []
  let (whole, cs) ← whole? cs
  let (fraction, cs) ← match cs with
    | '.' :: cs => (digits? 10 cs).map fun (digits, rest) => ('.' :: digits, rest)
    | cs => some ([], cs)
  let (exponent, cs) ← exponent? cs
  if fraction.isEmpty && exponent.isEmpty then (Setting.int? 10 (sign ++ whole)).map fun n => (.int n, cs)
  else
    let x := (← Decimal.parse? (sign ++ whole ++ fraction ++ exponent)).toFloat
    if x.isInf && !negative then none else some (.real x, cs)

def number? (cs : List Char) : Option (Setting × List Char) :=
  let radix? := match cs with
    | '0' :: mark :: cs => (radices.lookup mark).map fun base => (base, cs)
    | _ => none
  match radix? with
  | some (base, cs) => do
    let (digits, rest) ← digits? base cs
    (Setting.int? base digits).map fun n => (.int n, rest)
  | none =>
    let (negative, unsigned) := Decimal.sign cs
    let signed (x : Float) : Float := if negative then -x else x
    match unsigned with
    | 'i' :: 'n' :: 'f' :: rest => some (.real (signed (1.0 / 0.0)), rest)
    | 'n' :: 'a' :: 'n' :: rest => some (.real (signed (0.0 / 0.0)), rest)
    | _ => decimal? negative unsigned

/-! ## Times -/

def field? (length : Nat) (cs : List Char) : Option (Nat × List Char) := do
  let digits := cs.take length
  if digits.length ≠ length then none
  some (← Digits.toNat? 10 digits, cs.drop length)

def pair? (most : Nat) (cs : List Char) : Option (Nat × List Char) := (field? 2 cs).filter (·.1 ≤ most)

def expect? (c : Char) : List Char → Option (List Char)
  | [] => none
  | d :: cs => if d = c then some cs else none

def padded (length n : Nat) : String :=
  let digits := Nat.toDigits 10 n
  String.ofList (List.replicate (length - digits.length) '0' ++ digits)

def daysIn (year month : Nat) : Nat :=
  if month = 2 then (if year % 4 = 0 && (year % 100 ≠ 0 || year % 400 = 0) then 29 else 28)
  else if [4, 6, 9, 11].contains month then 30
  else 31

def date? (year : Nat) (cs : List Char) : Option (String × List Char) := do
  let (month, cs) ← pair? 12 cs
  let (day, cs) ← pair? (daysIn year month) (← expect? '-' cs)
  if month = 0 || day = 0 then none
  else some (s!"{padded 4 year}-{padded 2 month}-{padded 2 day}", cs)

/-- A fraction of a second, cut behind its ninth digit and without zeros at its end. -/
def subsecond (digits : List Char) : String :=
  match ((digits.take 9).reverse.dropWhile (· = '0')).reverse with
  | [] => ""
  | digits => String.ofList ('.' :: digits)

def time? (hour : Nat) (cs : List Char) : Option (String × List Char) := do
  let (minute, cs) ← pair? 59 cs
  let (second, cs) ← pair? 60 (← expect? ':' cs)
  let (fraction, cs) := match cs with
    | '.' :: more =>
      let (digits, rest) := Digits.span 10 more
      if digits.isEmpty then ([], cs) else (digits, rest)
    | cs => ([], cs)
  some (s!"{padded 2 hour}:{padded 2 minute}:{padded 2 second}{subsecond fraction}", cs)

def hour? (cs : List Char) : Option (Nat × List Char) := do
  let (hour, cs) ← pair? 23 cs
  some (hour, ← expect? ':' cs)

def offset? : List Char → Option (String × List Char)
  | [] => some ("", [])
  | c :: cs =>
    if c = 'Z' || c = 'z' then some ("Z", cs)
    else if c = '+' || c = '-' then do
      let (hour, cs) ← hour? cs
      let (minute, cs) ← pair? 59 cs
      let sign := if c = '-' && (hour, minute) ≠ (0, 0) then "-" else "+"
      some (s!"{sign}{padded 2 hour}:{padded 2 minute}", cs)
    else some ("", c :: cs)

def timeOfDate? (cs : List Char) : Option (String × List Char) :=
  let start? := match cs with
    | c :: cs => if c = 'T' || c = 't' || c = ' ' then hour? cs else none
    | [] => none
  match start? with
  | none => some ("", cs)
  | some (hour, cs) => do
    let (time, cs) ← time? hour cs
    let (offset, cs) ← offset? cs
    some ("T" ++ time ++ offset, cs)

def numeric? (cs : List Char) : Option (Setting × List Char) :=
  let year? := do
    let (year, cs) ← field? 4 cs
    some (year, ← expect? '-' cs)
  match year?, hour? cs with
  | some (year, cs), _ => do
    let (date, cs) ← date? year cs
    let (time, cs) ← timeOfDate? cs
    some (.text (date ++ time), cs)
  | none, some (hour, cs) => (time? hour cs).map fun (time, rest) => (.text time, rest)
  | none, none => number? cs

end Toml
end TrafficRules
