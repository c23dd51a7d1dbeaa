import TrafficRules.Document.Yaml.Scalar
import TrafficRules.Document.Yaml.Tag
/-!
# Token — YAML text as marks and scalars

Indentation becomes tokens of its own: a block opens at the first entry or key further right than the block around it
and closes where a line starts further left.  Whether a scalar is a key shows only at the colon behind it, so each place
where a key could start is remembered, with the number of tokens before it and whether nothing but a key can start
there, and the key's tokens are put in there afterwards (`insert`).

A `Scan` has the tokens so far, the newest first; the columns of the open blocks and the possible key starts, the
innermost first, with one key start for each open bracket and one for the text around them; and whether a key or an item
may start here (`keyAllowed`).

Tokens are read by one function for each kind of mark (`token`): a dash before an item, a question mark that announces a
key, a colon, brackets and the comma between them, anchors and aliases, whose names end at a space or at an indicator,
and tags, which end at a space or, between brackets, at a comma.  A directive names the version, says what a handle of
tags stands for, or says nothing here.
-/
namespace TrafficRules
namespace Yaml

inductive Token where
  | version
  | handle (name start : String)
  | directive
  | documentStart
  | documentEnd
  | blockList
  | blockMapping
  | blockEnd
  | flowList
  | flowListEnd
  | flowMapping
  | flowMappingEnd
  | item
  | comma
  | key
  | value
  | anchor (name : String)
  | alias (name : String)
  | tag (t : Tag)
  | scalar (text : String) (plain : Bool)
  deriving DecidableEq, Repr

structure KeyStart where
  required : Bool
  position : Nat
  line : Nat
  column : Nat
  index : Nat
  deriving Repr

structure Scan where
  cursor : Cursor
  tokens : List Token := []
  count : Nat := 0
  blocks : List Nat := []
  starts : List (Option KeyStart) := [none]
  keyAllowed : Bool := true
  deriving Repr

namespace Scan

def inFlow (s : Scan) : Bool := 1 < s.starts.length

def push (t : Token) (s : Scan) : Scan := { s with tokens := t :: s.tokens, count := s.count + 1 }

def insert (position : Nat) (t : Token) (s : Scan) : Scan :=
  let later := s.count - position
  { s with tokens := s.tokens.take later ++ t :: s.tokens.drop later, count := s.count + 1 }

def skip (n : Nat) (s : Scan) : Scan := { s with cursor := s.cursor.skip n }

def dropStart (s : Scan) : Option Scan :=
  match s.starts with
  | some k :: outer => if k.required then none else some { s with starts := none :: outer }
  | _ => some s

/-- Remembers this place as a possible key start. -/
def markStart (s : Scan) : Option Scan :=
  if s.keyAllowed then
    (dropStart s).map fun s =>
      let here := s.cursor
      let required := !s.inFlow && s.blocks.head? = some here.column
      { s with starts := some ⟨required, s.count, here.line, here.column, here.index⟩ :: s.starts.tail }
  else some s

/-- The farthest a colon may be from the start of its key. -/
def keyReach : Nat := 1024

/-- Forgets the key starts whose colon cannot come any more. -/
def dropStale (s : Scan) : Option Scan :=
  (s.starts.mapM keep?).map fun starts => { s with starts }
where
  keep? : Option KeyStart → Option (Option KeyStart)
    | none => some none
    | some k =>
      if k.line < s.cursor.line || k.index + keyReach < s.cursor.index then if k.required then none else some none
      else some (some k)

def closeRightOf (column : Nat) (s : Scan) : Scan :=
  if s.inFlow then s
  else
    let kept := s.blocks.dropWhile (column < ·)
    let closed := s.blocks.length - kept.length
    { s with blocks := kept, tokens := List.replicate closed .blockEnd ++ s.tokens, count := s.count + closed }

def closeAll (s : Scan) : Scan :=
  if s.inFlow then s
  else
    { s with blocks := [], tokens := List.replicate s.blocks.length .blockEnd ++ s.tokens
             count := s.count + s.blocks.length }

def openAt (column position : Nat) (t : Token) (s : Scan) : Scan :=
  if s.inFlow then s
  else if s.blocks.head?.all (· < column) then { s.insert position t with blocks := column :: s.blocks }
  else s

/-- How many characters of blanks, comments and line ends come next, and whether a key may start behind them.  A tab
is passed only where no key may start, and outside brackets a new line is where one may. -/
def triviaLength (inFlow : Bool) (allowed : Bool) : List Char → Nat × Bool
  | [] => (0, allowed)
  | c :: cs =>
    if c = ' ' || (c = '\t' && (inFlow || !allowed)) then behind 1 (triviaLength inFlow allowed cs)
    else if c = '#' then
      have := length_dropWhile_le (!isBreak ·) cs
      behind (1 + (cs.takeWhile (!isBreak ·)).length) (triviaLength inFlow allowed (cs.dropWhile (!isBreak ·)))
    else if isBreak c then behind 1 (triviaLength inFlow (allowed || !inFlow) cs)
    else (0, allowed)
termination_by cs => cs.length
decreasing_by all_goals (simp only [List.length_cons]; omega)
where
  behind (n : Nat) : Nat × Bool → Nat × Bool
    | (more, allowed) => (n + more, allowed)

def trivia (s : Scan) : Scan :=
  let (n, allowed) := triviaLength s.inFlow s.keyAllowed s.cursor.rest
  { s.skip n with keyAllowed := allowed }

/-! ## The tokens -/

def documentMark (s : Scan) : Option Scan :=
  (dropStart s.closeAll).map fun s =>
    { s.push (if s.cursor.rest.head? = some '-' then .documentStart else .documentEnd) with
      keyAllowed := false, cursor := s.cursor.skip 3 }

/-- A directive, which fills its line but for a comment: one names the version, 1.1 or 1.2, the other what a handle of
tags stands for. -/
def directive (s : Scan) : Option Scan := do
  let s ← dropStart s.closeAll
  let line := s.cursor.rest.takeWhile (!isBreak ·)
  let done (t : Token) : Scan := { (s.push t).skip line.length with keyAllowed := false }
  match line with
  | '%' :: 'T' :: 'A' :: 'G' :: rest =>
    let (name, start, behind) ← Tag.directive? Tag.isNameChar rest
    if (behind.dropWhile isBlank).head?.all (· = '#') && rest.head?.any isBlank then some (done (.handle name start))
    else none
  | _ =>
    let words := ((String.ofList (line.takeWhile (· ≠ '#'))).splitToList isBlank).filter (· ≠ "")
    if words = ["%YAML", "1.1"] ∨ words = ["%YAML", "1.2"] then some (done .version) else none

def openBracket (t : Token) (s : Scan) : Option Scan :=
  (markStart s).map fun s => { (s.push t).skip 1 with starts := none :: s.starts, keyAllowed := true }

def closeBracket (t : Token) (s : Scan) : Option Scan :=
  (dropStart s).map fun s =>
    { (s.push t).skip 1 with starts := if s.inFlow then s.starts.tail else s.starts, keyAllowed := false }

def comma (s : Scan) : Option Scan := (dropStart s).map fun s => { (s.push .comma).skip 1 with keyAllowed := true }

def item (s : Scan) : Option Scan :=
  if s.inFlow || s.keyAllowed then
    (dropStart (s.openAt s.cursor.column s.count .blockList)).map fun s => { (s.push .item).skip 1 with keyAllowed := true }
  else none

def explicitKey (s : Scan) : Option Scan :=
  if s.inFlow || s.keyAllowed then
    (dropStart (s.openAt s.cursor.column s.count .blockMapping)).map fun s =>
      { (s.push .key).skip 1 with keyAllowed := !s.inFlow }
  else none

/-- A colon.  It makes a key of what started at the remembered place, if there is one. -/
def value (s : Scan) : Option Scan :=
  match s.starts with
  | some k :: outer =>
    let s := { (s.insert k.position .key).openAt k.column k.position .blockMapping with starts := none :: outer }
    some { (s.push .value).skip 1 with keyAllowed := false }
  | _ =>
    if s.inFlow || s.keyAllowed then
      let s := s.openAt s.cursor.column s.count .blockMapping
      some { (s.push .value).skip 1 with keyAllowed := !s.inFlow }
    else none

def isNameChar (c : Char) : Bool := c.isAlphanum || c = '_' || c = '-'

def reference (make : String → Token) (s : Scan) : Option Scan := do
  let s ← markStart s
  let name := (s.cursor.rest.drop 1).takeWhile isNameChar
  let rest := (s.cursor.rest.drop 1).dropWhile isNameChar
  let ends := endsWord rest || rest.head?.any ['?', ':', ',', ']', '\x7d', '%', '@', '\x60'].contains
  if name = [] ∨ !ends then none
  else some { (s.push (make (String.ofList name))).skip (name.length + 1) with keyAllowed := false }

def tagMark (s : Scan) : Option Scan := do
  let s ← markStart s
  let (t, rest) ← Tag.read? Tag.isSuffixChar Tag.isNameChar s.cursor.rest
  if endsWord rest || (s.inFlow && rest.head? = some ',') then
    some { (s.push (.tag t)).skip (s.cursor.rest.length - rest.length) with keyAllowed := false }
  else none

def blockScalar (literal : Bool) (s : Scan) : Option Scan := do
  let s ← dropStart s
  let (text, n) ← block literal s.blocks.head? (s.cursor.rest.drop 1)
  some { (s.push (.scalar (String.ofList text) false)).skip (n + 1) with keyAllowed := true }

def quotedScalar (read : List Char → Option (List Char × Nat)) (s : Scan) : Option Scan := do
  let s ← markStart s
  let (text, n) ← read (s.cursor.rest.drop 1)
  some { (s.push (.scalar (String.ofList text) false)).skip (n + 1) with keyAllowed := false }

def plainScalar (s : Scan) : Option Scan := do
  let s ← markStart s
  let indent := match s.blocks.head? with
    | some p => p + 1
    | none => 0
  let (text, n, broken) ← plain s.inFlow indent s.cursor.rest
  some { (s.push (.scalar (String.ofList text) true)).skip n with keyAllowed := broken }

def isIndicator (c : Char) : Bool :=
  ['-', '?', ':', ',', '[', ']', '\x7b', '\x7d', '#', '&', '*', '!', '|', '>', '\'', '"', '%', '@', '\x60'].contains c

def startsPlain (inFlow : Bool) (c : Char) (cs : List Char) : Bool :=
  !isIndicator c || (c = '-' && !cs.head?.any isBlank) || (!inFlow && (c = '?' || c = ':') && !endsWord cs)

/-- The token that starts with the character `c`, before `cs`. -/
def token (c : Char) (cs : List Char) (s : Scan) : Option Scan :=
  let lineStart := s.cursor.column = 0
  if lineStart && c = '%' then s.directive
  else if lineStart && isDocumentMark (c :: cs) then s.documentMark
  else if c = '[' then s.openBracket .flowList
  else if c = '\x7b' then s.openBracket .flowMapping
  else if c = ']' then s.closeBracket .flowListEnd
  else if c = '\x7d' then s.closeBracket .flowMappingEnd
  else if c = ',' then s.comma
  else if c = '-' && endsWord cs then s.item
  else if c = '?' && (s.inFlow || endsWord cs) then s.explicitKey
  else if c = ':' && (s.inFlow || endsWord cs) then s.value
  else if c = '*' then s.reference .alias
  else if c = '&' then s.reference .anchor
  else if c = '!' then s.tagMark
  else if c = '|' && !s.inFlow then s.blockScalar true
  else if c = '>' && !s.inFlow then s.blockScalar false
  else if c = '\'' then s.quotedScalar singleQuoted
  else if c = '"' then s.quotedScalar doubleQuoted
  else if startsPlain s.inFlow c cs then s.plainScalar
  else none

/-- All tokens, at most `fuel` of them being left to read. -/
def run : Nat → Scan → Option (List Token)
  | 0, _ => none
  | fuel + 1, s => do
    let s ← dropStale s.trivia
    match s.cursor.rest with
    | [] =>
      let s ← dropStart s.closeAll
      some s.tokens.reverse
    | c :: cs =>
      let s ← (s.closeRightOf s.cursor.column).token c cs
      run fuel s

end Scan

/-- Where reading starts.  A byte order mark in front takes up a column. -/
def Scan.start : List Char → Scan
  | '\uFEFF' :: cs => { cursor := { rest := cs, column := 1, index := 1 } }
  | cs => { cursor := { rest := cs } }

def tokens? (text : String) : Option (List Token) :=
  let cs := text.toList
  if cs.all isAllowed then Scan.run (cs.length + 1) (Scan.start (uniformBreaks cs)) else none

end Yaml
end TrafficRules
