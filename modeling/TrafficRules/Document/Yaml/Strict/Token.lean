import TrafficRules.Document.Yaml.Strict.Scalar
import TrafficRules.Document.Yaml.Token
/-!
# Token — strict YAML text as marks and scalars

The same tokens as of YAML in general, read more strictly: a comment needs a blank before it, nothing may follow a
quoted scalar but what ends or uses it, brackets have to stay right of the block they stand in, and tabs do not indent.
On the other hand a key inside brackets may span lines, and its value may follow the colon at once behind a quoted key.

Behind the colon of a key, and behind a dash with nothing on its line, one column more counts as indentation, until a
block, a plain scalar or a block scalar settles where it really is (`openColumn`, `settleColumn`).  The margin is the
first column right of the innermost level.

A `Scan` has the tokens so far, the newest first; the open levels and the possible key starts, the innermost first, with
one key start for each open bracket and one for the text around them; whether a key or an item may start here
(`keyAllowed`); whether only blanks stand before this on its line (`fresh`); and for each open list in brackets whether
a pair without braces is open in it.

Tokens are read by one function for each kind of mark, and a token is put in behind the first so many (`insert`) when it
turns out that a key started there.  A directive fills its line, and one with a name that means nothing is passed over.
The name of an anchor and a tag end at a space or at an indicator of a bracket.
-/
namespace TrafficRules
namespace Yaml
namespace Strict

/-- An open level of indentation. -/
structure Level where
  column : Nat
  isBlock : Bool
  deriving Repr

structure Scan where
  cursor : Cursor
  tokens : List Token := []
  count : Nat := 0
  levels : List Level := []
  starts : List (Option KeyStart) := [none]
  keyAllowed : Bool := true
  fresh : Bool := true
  /-- Where a colon counts whatever follows it. -/
  adjacent : Option Nat := none
  /-- A mapping has been opened by a brace or a question mark. -/
  braced : Bool := false
  pairs : List Bool := []
  /-- The number of tokens up to an anchor in the first column. -/
  outerAnchor : Option Nat := none
  deriving Repr

namespace Scan

def inFlow (s : Scan) : Bool := 1 < s.starts.length

def margin (s : Scan) : Nat :=
  match s.levels with
  | [] => 0
  | l :: _ => l.column + 1

def push (t : Token) (s : Scan) : Scan := { s with tokens := t :: s.tokens, count := s.count + 1 }

def insert (position : Nat) (t : Token) (s : Scan) : Scan :=
  let later := s.count - position
  { s with tokens := s.tokens.take later ++ t :: s.tokens.drop later, count := s.count + 1 }

def skip : Nat → Scan → Scan
  | 0, s => s
  | n + 1, s =>
    match s.cursor with
    | ⟨[], _, _, _⟩ => s
    | ⟨c :: rest, line, column, index⟩ =>
      if c = '\n' then skip n { s with cursor := ⟨rest, line + 1, 0, index + 1⟩, fresh := true }
      else skip n { s with cursor := ⟨rest, line, column + 1, index + 1⟩, fresh := s.fresh && isBlank c }

/-- Skips the blanks and the comment at the end of a line.  A comment needs a blank before it. -/
def skipLineEnd (s : Scan) : Option Scan :=
  let blanks := s.cursor.rest.takeWhile isBlank
  let rest := s.cursor.rest.dropWhile isBlank
  if rest.head? = some '#' then
    if blanks.isEmpty then none else some (s.skip (blanks.length + (rest.takeWhile (· ≠ '\n')).length))
  else some (s.skip blanks.length)

/-- Skips blanks, comments and line ends up to the next token, at most `fuel` of them.  Outside brackets a key may start
on a new line.  A tab left of the margin may not have anything but a comment behind it on its line. -/
def trivia : Nat → Scan → Option Scan
  | 0, s => some s
  | fuel + 1, s =>
    match s.cursor.rest with
    | [] => some s
    | c :: cs =>
      if c = '\t' && !s.levels.isEmpty && s.fresh && s.cursor.column + 1 < s.margin then do
        let s ← s.skipLineEnd
        if endsLine s.cursor.rest then trivia fuel s else none
      else if isBlank c then trivia fuel (s.skip 1)
      else if c = '\n' then trivia fuel { s.skip 1 with keyAllowed := s.keyAllowed || !s.inFlow }
      else if c = '#' then trivia fuel (s.skip (1 + (cs.takeWhile (· ≠ '\n')).length))
      else some s

/-! ## Keys and levels -/

def dropStart (s : Scan) : Option Scan :=
  match s.starts with
  | some k :: outer => if k.required then none else some { s with starts := none :: outer }
  | _ => some s

/-- Remembers this place as a possible key start. -/
def markStart (s : Scan) : Scan :=
  if s.keyAllowed then
    let here := s.cursor
    let required := !s.inFlow && s.levels.head?.any fun l => l.isBlock && l.column = here.column
    { s with starts := some ⟨required, s.count, here.line, here.column, here.index⟩ :: s.starts.tail }
  else s

/-- Outside brackets, forgets a key start whose colon cannot come any more. -/
def dropStale (s : Scan) : Option Scan :=
  match s.starts with
  | [some k] =>
    if k.line < s.cursor.line || k.index + Yaml.Scan.keyReach < s.cursor.index then
      if k.required then none else some { s with starts := [none] }
    else some s
  | _ => some s

def closeRightOf (column : Nat) (s : Scan) : Scan :=
  if s.inFlow then s
  else
    let closed := s.levels.takeWhile (column < ·.column)
    let ends := (closed.filter (·.isBlock)).map fun _ => Token.blockEnd
    { s with levels := s.levels.drop closed.length, tokens := ends ++ s.tokens, count := s.count + ends.length }

def closeAll (s : Scan) : Scan :=
  if s.inFlow then s
  else
    let ends := (s.levels.filter (·.isBlock)).map fun _ => Token.blockEnd
    { s with levels := [], tokens := ends ++ s.tokens, count := s.count + ends.length }

def openAt (column position : Nat) (t : Token) (s : Scan) : Scan :=
  if s.inFlow then s
  else
    let levels := match s.levels with
      | l :: outer => if !l.isBlock && l.column ≤ column then outer else s.levels
      | [] => []
    if levels.head?.all (·.column < column) then
      { s.insert position t with levels := ⟨column, true⟩ :: levels }
    else { s with levels }

def openColumn (s : Scan) : Scan :=
  match s.levels with
  | l :: _ => if !s.inFlow && l.isBlock then { s with levels := ⟨l.column + 1, false⟩ :: s.levels } else s
  | [] => s

def settleColumn (s : Scan) : Scan := { s with levels := s.levels.dropWhile (!·.isBlock) }

/-! ## The tokens -/

def documentMark (s : Scan) : Option Scan := do
  let s ← dropStart s.closeAll
  let start := s.cursor.rest.head? = some '-'
  let s := { (s.push (if start then .documentStart else .documentEnd)).skip 3 with keyAllowed := false }
  if start then some s
  else
    let s ← s.skipLineEnd
    if endsLine s.cursor.rest then some s else none

def versionLength? (cs : List Char) : Option Nat :=
  let (major, behind) := Digits.span 10 cs
  match behind with
  | '.' :: behind =>
    let minor := (Digits.span 10 behind).1
    if major.isEmpty || minor.isEmpty || 9 < major.length || 9 < minor.length then none
    else some (major.length + 1 + minor.length)
  | _ => none

def isSuffixChar (c : Char) : Bool := c = '#' || (Tag.isSuffixChar c && c ≠ '!')

def isTagChar (c : Char) : Bool := c = '#' || Tag.isNameChar c

/-- A directive fills its line.  One with a name that means nothing is passed over. -/
def directive (s : Scan) : Option Scan := do
  let s ← dropStart s.closeAll
  let s := { s.skip 1 with keyAllowed := false }
  let name := s.cursor.rest.takeWhile Tag.isWordChar
  let s := s.skip name.length
  if name = [] || !endsWord s.cursor.rest then none
  else
    let s ←
      if name = "YAML".toList then do
        let s := s.skip (s.cursor.rest.takeWhile isBlank).length
        let n ← versionLength? s.cursor.rest
        some ((s.push .version).skip n)
      else if name = "TAG".toList then do
        let (name, start, behind) ← Tag.directive? isTagChar s.cursor.rest
        some ((s.push (.handle name start)).skip (s.cursor.rest.length - behind.length))
      else some ((s.push .directive).skip (s.cursor.rest.takeWhile (· ≠ '\n')).length)
    let s ← s.skipLineEnd
    if s.cursor.rest.head? = some '\n' then some (s.skip 1) else none

def deepest : Nat := 255

def openBracket (t : Token) (s : Scan) : Option Scan := do
  let s := openColumn s.markStart
  if deepest < s.starts.length then none
  else
    let s := { (s.push t).skip 1 with starts := none :: s.starts, keyAllowed := true }
    let s := if t = Token.flowMapping then { s with braced := true } else { s with pairs := false :: s.pairs }
    s.skipLineEnd

def closePair (s : Scan) : Scan :=
  match s.pairs with
  | true :: outer => { s.push .flowMappingEnd with pairs := false :: outer, braced := false }
  | _ => s

def closeBracket (t : Token) (s : Scan) : Option Scan := do
  let s ← dropStart s
  let s := { s with starts := if s.inFlow then s.starts.tail else s.starts, keyAllowed := false }
  let s := if t = .flowListEnd then { s.closePair with pairs := s.pairs.tail } else s
  let s ← (s.skip 1).skipLineEnd
  some { s.push t with adjacent := if s.inFlow then some s.cursor.index else s.adjacent }

def comma (s : Scan) : Option Scan := do
  let s ← dropStart s
  let s ← (closePair { s with keyAllowed := true } |>.skip 1).skipLineEnd
  some (s.push .comma)

/-- A dash.  In the first column of a block that has begun, none may follow an anchor there. -/
def item (s : Scan) : Option Scan := do
  if s.inFlow || !s.keyAllowed then none
  let column := s.cursor.column
  if column = 0 && s.outerAnchor = some s.count && !s.levels.isEmpty then none
  let s := (s.skip 1).openAt column s.count .blockList
  let tabbed := (s.cursor.rest.takeWhile isBlank).contains '\t'
  let s ← s.skipLineEnd
  let next := s.cursor.rest
  if tabbed && next.head? = some '-' && endsWord next.tail then none
  let s := if next.head?.any (fun c => c = '\n' || isFlowIndicator c) then s.openColumn else s
  let s ← dropStart s
  some { s.push .item with keyAllowed := true }

def explicitKey (s : Scan) : Option Scan := do
  if !s.inFlow && !s.keyAllowed then none
  let s := if s.inFlow then { s with braced := true } else s.openAt s.cursor.column s.count .blockMapping
  let s ← dropStart s
  let s := { s.skip 1 with keyAllowed := !s.inFlow }
  let behind ← blanksBehind (s.cursor.rest.length + 1) s
  if behind.cursor.index = s.cursor.index || behind.cursor.rest.head? = some '\t' then none
  else some (behind.push .key)
where
  blanksBehind : Nat → Scan → Option Scan
    | 0, s => some s
    | fuel + 1, s =>
      match s.cursor.rest with
      | ' ' :: _ => blanksBehind fuel (s.skip 1)
      | '\n' :: _ => blanksBehind fuel { s.skip 1 with keyAllowed := s.keyAllowed || !s.inFlow }
      | '#' :: cs => blanksBehind fuel (s.skip (1 + (cs.takeWhile (· ≠ '\n')).length))
      | _ => some s

/-- A colon.  It makes a key of what started at the remembered place, if there is one.  In a list in brackets it makes a
pair, whose key stands on one line. -/
def value (s : Scan) : Option Scan := do
  let here := s.cursor
  let pair := !s.pairs.isEmpty && !s.braced
  let s := if pair then { s with pairs := true :: s.pairs.tail } else s
  let s := s.skip 1
  let s ← if s.cursor.rest.head? = some '\t' then behindTab s else some s
  match s.starts with
  | some k :: outer =>
    let s := s.insert k.position .key
    let s ← if pair then (if k.line < here.line then none else some (s.insert k.position .flowMapping)) else some s
    let s := (s.openAt k.column k.position .blockMapping).openColumn
    some { s.push .value with starts := none :: outer, keyAllowed := false }
  | _ =>
    let s := if pair then s.push .flowMapping else s
    if !s.inFlow && !s.keyAllowed then none
    let s := (s.openAt here.column s.count .blockMapping).openColumn
    some { s.push .value with keyAllowed := !s.inFlow }
where
  behindTab (s : Scan) : Option Scan := do
    let blanks := s.cursor.rest.takeWhile isBlank
    let s ← s.skipLineEnd
    if !blanks.contains ' ' && s.cursor.rest.head?.any Tag.isWordChar then none else some s

def reference (make : String → Token) (s : Scan) : Option Scan :=
  let s := s.markStart
  let name := (s.cursor.rest.drop 1).takeWhile fun c => !isSpace c && !isFlowIndicator c && c ≠ '\uFEFF'
  if name = [] then none
  else
    let outer := if s.cursor.column = 0 && s.cursor.rest.head? = some '&' then some (s.count + 1) else s.outerAnchor
    some { (s.push (make (String.ofList name))).skip (name.length + 1) with keyAllowed := false, outerAnchor := outer }

def tagMark (s : Scan) : Option Scan := do
  let s := s.markStart
  let (t, rest) ← Tag.read? isSuffixChar isTagChar s.cursor.rest
  if endsWord rest || (s.inFlow && rest.head?.any isFlowIndicator) then
    some { (s.push (.tag t)).skip (s.cursor.rest.length - rest.length) with keyAllowed := false }
  else none

def blockScalar (literal : Bool) (s : Scan) : Option Scan := do
  let s := { s.markStart.settleColumn with keyAllowed := true }
  let (text, n) ← block literal s.margin (s.cursor.rest.drop 1)
  some ((s.push (.scalar (String.ofList text) false)).skip (n + 1))

/-- What may follow a quoted scalar that started on line `line`. -/
def mayFollowQuote (line : Nat) (s : Scan) : Bool :=
  match s.cursor.rest with
  | [] => true
  | c :: _ =>
    c = '\n' || (c = ':' && (s.inFlow || s.cursor.line = line)) || (s.inFlow && [',', ']', '\x7d'].contains c)

def quotedScalar (read : Nat → List Char → Option (List Char × Nat)) (s : Scan) : Option Scan := do
  let s := { s.markStart with keyAllowed := false }
  let line := s.cursor.line
  let (text, n) ← read (s.margin - 1) (s.cursor.rest.drop 1)
  let s ← (s.skip (n + 1)).skipLineEnd
  if !s.mayFollowQuote line then none
  let s ← s.trivia (s.cursor.rest.length + 1)
  some { s.push (.scalar (String.ofList text) false) with adjacent := some s.cursor.index }

def plainScalar (s : Scan) : Option Scan := do
  let s := { s.markStart.settleColumn with keyAllowed := false }
  if s.inFlow && s.cursor.column < s.margin then none
  let (text, n, broken) ← plain s.inFlow s.margin s.cursor.rest
  some { (s.push (.scalar (String.ofList text) true)).skip n with keyAllowed := broken }

def token (c : Char) (cs : List Char) (s : Scan) : Option Scan :=
  let lineStart := s.cursor.column = 0
  if lineStart && c = '%' then s.directive
  else if lineStart && isDocumentMark (c :: cs) then s.documentMark
  else if s.cursor.column + 1 < s.margin then none
  else if c = '[' then s.openBracket .flowList
  else if c = '\x7b' then s.openBracket .flowMapping
  else if c = ']' then s.closeBracket .flowListEnd
  else if c = '\x7d' then s.closeBracket .flowMappingEnd
  else if c = ',' then s.comma
  else if c = '-' && endsWord cs then s.item
  else if c = '?' && endsWord cs then s.explicitKey
  else if c = ':' && (endsKey s.inFlow cs || (s.inFlow && s.adjacent = some s.cursor.index)) then s.value
  else if c = '*' then s.reference .alias
  else if c = '&' then s.reference .anchor
  else if c = '|' && !s.inFlow then s.blockScalar true
  else if c = '>' && !s.inFlow then s.blockScalar false
  else if c = '\'' then s.quotedScalar singleQuoted
  else if c = '"' then s.quotedScalar doubleQuoted
  else if c = '!' then s.tagMark
  else if ['%', '@', '\x60'].contains c then none
  else s.plainScalar

/-- All tokens, at most `fuel` of them being left to read. -/
def run : Nat → Scan → Option (List Token)
  | 0, _ => none
  | fuel + 1, s => do
    let s ← dropStale (← s.trivia (s.cursor.rest.length + 1))
    let s := s.closeRightOf s.cursor.column
    match s.cursor.rest with
    | [] =>
      if s.starts.any fun k => k.any (·.required) then none else some s.closeAll.tokens.reverse
    | c :: cs =>
      let s ← s.token c cs
      run fuel s

end Scan

def tokens? (text : String) : Option (List Token) :=
  let cs := uniformLines text.toList
  Scan.run (cs.length + 1) { cursor := { rest := cs } }

end Strict
end Yaml
end TrafficRules
