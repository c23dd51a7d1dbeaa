import TrafficRules.Document.Yaml.Core
/-!
# Print — documents written as YAML text

Block style, two spaces to a level, the dashes of a list at the column of its key.  A text is written plainly when that
reads back as the same text, else between single quotes, as a literal block if it has several lines, and between double
quotes if nothing else can hold it.

Plain is out where the text would be taken for a mark, a key or a comment (`hasIndicators`); a literal block is out
where a line ends in a space.  The lines of a text after its first are indented by a margin.  `printAt` writes a value
whose first line starts at a column, `printUnderKey` what stands behind a key that starts there.
-/
namespace TrafficRules
namespace Yaml

/-! ## Texts -/

def anyNeighbours (r : Char → Char → Bool) (cs : List Char) : Bool := (cs.zip cs.tail).any fun (a, b) => r a b

def isLeadingIndicator (c : Char) : Bool :=
  [',', '[', ']', '\x7b', '\x7d', '#', '&', '*', '!', '|', '>', '\'', '"', '%', '@', '\x60'].contains c

/-- Written plainly, the text would be taken for a mark, a key or a comment. -/
def hasIndicators (cs : List Char) : Bool :=
  ['-', '-', '-'].isPrefixOf cs || ['.', '.', '.'].isPrefixOf cs || cs.head?.any isLeadingIndicator
    || (cs.head?.any ['-', '?', ':'].contains && endsWord cs.tail)
    || cs.getLast? = some ':' || anyNeighbours (fun a b => a = ':' && isSpace b) cs
    || anyNeighbours (fun a b => isSpace a && b = '#') cs

def hasSpecials (cs : List Char) : Bool := !cs.all isPrintable

/-- A space stands right beside a line break. -/
def hasRaggedBreak (cs : List Char) : Bool :=
  anyNeighbours (fun a b => (a = ' ' && isBreak b) || (isBreak a && b = ' ')) cs

def plainHolds (cs : List Char) : Bool :=
  !hasIndicators cs && !hasSpecials cs && !cs.any isBreak && cs.head? ≠ some ' ' && cs.getLast? ≠ some ' '

def quotesHold (cs : List Char) : Bool := !hasSpecials cs && !hasRaggedBreak cs

def blockHolds (cs : List Char) : Bool :=
  !hasSpecials cs && !anyNeighbours (fun a b => a = ' ' && isBreak b) cs && cs.getLast? ≠ some ' '

/-- A plain scalar of these characters is a text. -/
def readsAsText (s : String) : Bool := resolve? s == some (.text s) && !isZeroPadded s.toList

def indentLines (margin : List Char) : Bool → List Char → List Char
  | _, [] => []
  | atStart, c :: cs =>
    if isBreak c then c :: indentLines margin true cs
    else if atStart then margin ++ c :: indentLines margin false cs
    else c :: indentLines margin false cs

def singleQuote (margin cs : List Char) : List Char :=
  '\'' :: indentLines margin false (cs.flatMap fun c => if c = '\'' then ['\'', '\''] else [c])
    ++ (if cs.getLast?.any isBreak then margin else []) ++ ['\'']

def upperHex (width n : Nat) : List Char :=
  let digits := (Nat.toDigits 16 n).map Char.toUpper
  List.replicate (width - digits.length) '0' ++ digits

def escapeLetter? (c : Char) : Option Char :=
  (escapes.find? fun e => e.2 = c && e.1 ≠ ' ' && e.1 ≠ '\t' && e.1 ≠ '/').map (·.1)

def escape (c : Char) : List Char :=
  if isPrintable c && !isBreak c && c ≠ '"' && c ≠ '\\' then [c]
  else
    match escapeLetter? c with
    | some l => ['\\', l]
    | none =>
      if c.toNat < 0x100 then '\\' :: 'x' :: upperHex 2 c.toNat
      else if c.toNat < 0x10000 then '\\' :: 'u' :: upperHex 4 c.toNat
      else '\\' :: 'U' :: upperHex 8 c.toNat

def doubleQuote (cs : List Char) : List Char := '"' :: cs.flatMap escape ++ ['"']

/-- The options of a literal block: its indentation where the first line starts with a space, and what its last line
breaks are. -/
def blockOptions (cs : List Char) : List Char :=
  let indentation := if cs.head?.any (fun c => c = ' ' || isBreak c) then ['2'] else []
  let chomping := match cs.reverse with
    | [] => ['-']
    | [c] => if isBreak c then ['+'] else ['-']
    | c :: d :: _ => if !isBreak c then ['-'] else if isBreak d then ['+'] else []
  indentation ++ chomping

def literalBlock (margin cs : List Char) : List Char := '|' :: blockOptions cs ++ '\n' :: indentLines margin true cs

/-- A text, the lines after its first indented by `margin`. -/
def printText (margin : List Char) (s : String) : List Char :=
  let cs := s.toList
  if cs.contains '\n' then if blockHolds cs then literalBlock margin cs else doubleQuote cs
  else if readsAsText s && plainHolds cs then cs
  else if quotesHold cs then singleQuote margin cs
  else doubleQuote cs

/-! ## Trees -/

def margin (column : Nat) : List Char := List.replicate column ' '

def printScalar (column : Nat) : Value → List Char
  | .null => "null".toList
  | .bool b => if b then "true".toList else "false".toList
  | .int n => (toString n).toList
  | .foreign spelling => spelling.toList
  | .text s => printText (margin column) s
  | .list _ => ['[', ']']
  | .record _ | .mapping _ => ['\x7b', '\x7d']

def endLine (cs : List Char) : List Char := if cs.getLast?.any isBreak then cs else cs ++ ['\n']

mutual

def printAt (column : Nat) : Value → List Char
  | .list (v :: vs) => printItems column (v :: vs)
  | .record (f :: fs) => printFields column (f :: fs)
  | v => endLine (printScalar column v)

def printItems (column : Nat) : List Value → List Char
  | [] => []
  | [v] => '-' :: ' ' :: printAt (column + 2) v
  | v :: vs => '-' :: ' ' :: printAt (column + 2) v ++ margin column ++ printItems column vs

def printFields (column : Nat) : List (String × Value) → List Char
  | [] => []
  | [(k, v)] => printText [] k ++ ':' :: printUnderKey column v
  | (k, v) :: fs => printText [] k ++ ':' :: printUnderKey column v ++ margin column ++ printFields column fs

def printUnderKey (column : Nat) : Value → List Char
  | .list (v :: vs) => '\n' :: margin column ++ printItems column (v :: vs)
  | .record (f :: fs) => '\n' :: margin (column + 2) ++ printFields (column + 2) (f :: fs)
  | v => ' ' :: endLine (printScalar (column + 2) v)

end

def print (v : Value) : String := String.ofList (printAt 0 v)

end Yaml
end TrafficRules
