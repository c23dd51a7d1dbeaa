import TrafficRules.Document.Yaml.Scalar
/-!
# Scalar — how a scalar is spelled in strict YAML

The scalars of YAML read strictly: only line feeds break lines, and a line that goes on with a scalar inside a block has
to be indented further than the block.  The margin is the column where such lines may start.  Between quotes a line need
not be indented further than what is open around it.

Every way to end a line is made a line feed before, and a text ends where a NUL stands (`uniformLines`).  Inside
brackets a colon ends a word in front of an indicator too.  A plain scalar comes with the number of characters it takes
and whether a line ended behind its last word.  A comment that follows the options of a block scalar needs a blank
before it.
-/
namespace TrafficRules
namespace Yaml
namespace Strict

def uniformLines (cs : List Char) : List Char :=
  let cs := cs.takeWhile (· ≠ '\x00')
  (cs.zip (' ' :: cs)).filterMap fun (c, before) =>
    if c = '\n' && before = '\r' then none else some (if c = '\r' then '\n' else c)

def isSpace (c : Char) : Bool := isBlank c || c = '\n'

def endsWord : List Char → Bool
  | [] => true
  | c :: _ => isSpace c

def endsLine : List Char → Bool
  | [] => true
  | c :: _ => c = '\n'

def isDocumentMark (cs : List Char) : Bool :=
  (['-', '-', '-'].isPrefixOf cs || ['.', '.', '.'].isPrefixOf cs) && endsWord (cs.drop 3)

def gapMeetsMark (gap rest : List Char) : Bool := gap.getLast? = some '\n' && isDocumentMark rest

def newLine? (gap : List Char) : Option (List Char) := if gap.contains '\n' then some (lastBlanks gap) else none

/-! ## Plain scalars -/

def endsKey (flow : Bool) (cs : List Char) : Bool := endsWord cs || (flow && cs.head?.any isFlowIndicator)

def plainWord (flow : Bool) : List Char → List Char
  | [] => []
  | c :: cs =>
    if isSpace c || (c = ':' && endsKey flow cs) || (flow && isFlowIndicator c) then [] else c :: plainWord flow cs

def isLoneDash (flow : Bool) : List Char → Bool
  | '-' :: c :: _ => flow && isFlowIndicator c
  | _ => false

/-- A plain scalar, how many characters it takes, and whether a line ended behind its last word. -/
def plain (flow : Bool) (margin : Nat) (cs : List Char) : Option (List Char × Nat × Bool) :=
  let word := plainWord flow cs
  let behind := cs.drop word.length
  let gap := behind.takeWhile isSpace
  let rest := behind.dropWhile isSpace
  let line? := newLine? gap
  let read := word.length + gap.length
  if isLoneDash flow cs then none
  else if word = [] then some ([], 0, false)
  else if gap = [] then some (word, read, false)
  else if rest ≠ [] && line?.any (fun blanks => (blanks.take margin).contains '\t') then none
  else if (!flow && line?.any (·.length < margin)) || rest.head? = some '#' || gapMeetsMark gap rest then
    some (word, read, line?.isSome)
  else if _h : rest.length < cs.length then
    match plain flow margin rest with
    | none => none
    | some ([], _, _) => some (word, read, line?.isSome)
    | some (more, n, broken) => some (word ++ foldGap gap ++ more, read + n, broken)
  else none
termination_by cs.length

/-! ## Quoted scalars -/

/-- A scalar goes on behind a gap: no mark stands there, and the line reaches the column `left` without tabs. -/
def goesOn (left : Nat) (gap rest : List Char) : Bool :=
  !gapMeetsMark gap rest && !tabLeftOf left gap && (newLine? gap).all (left ≤ ·.length)

def singleQuoted (left : Nat) : List Char → Option (List Char × Nat)
  | [] => none
  | '\'' :: '\'' :: cs => (singleQuoted left cs).map (after ['\''] 2)
  | '\'' :: _ => some ([], 1)
  | c :: cs =>
    if isSpace c then
      let gap := c :: cs.takeWhile isSpace
      let rest := cs.dropWhile isSpace
      if goesOn left gap rest then
        have := length_dropWhile_le isSpace cs
        (singleQuoted left rest).map (after (foldGap gap) gap.length)
      else none
    else (singleQuoted left cs).map (after [c] 1)
termination_by cs => cs.length
decreasing_by all_goals (simp only [List.length_cons]; omega)

/-- Between double quotes, with escapes.  An escaped line feed joins two lines without a space. -/
def doubleQuoted (left : Nat) : List Char → Option (List Char × Nat)
  | [] => none
  | '"' :: _ => some ([], 1)
  | ['\\'] => none
  | '\\' :: e :: cs =>
    if e = '\n' then
      let gap := e :: cs.takeWhile isSpace
      let rest := cs.dropWhile isSpace
      if goesOn left gap rest then
        have := length_dropWhile_le isSpace cs
        (doubleQuoted left rest).map (after (gap.tail.filter (· = '\n')) (gap.length + 1))
      else none
    else
      match hexLength? e with
      | some n =>
        let digits := cs.take n
        match (if digits.length = n then (Digits.toNat? 16 digits).bind charOfNat? else none) with
        | none => none
        | some c => (doubleQuoted left (cs.drop n)).map (after [c] (n + 2))
      | none =>
        match escapes.lookup e with
        | none => none
        | some c => (doubleQuoted left cs).map (after [c] 2)
  | c :: cs =>
    if isSpace c then
      let gap := c :: cs.takeWhile isSpace
      let rest := cs.dropWhile isSpace
      if goesOn left gap rest then
        have := length_dropWhile_le isSpace cs
        (doubleQuoted left rest).map (after (foldGap gap) gap.length)
      else none
    else (doubleQuoted left cs).map (after [c] 1)
termination_by cs => cs.length
decreasing_by all_goals (simp only [List.length_cons, List.length_drop]; omega)

/-! ## Block scalars -/

def blockHeader (cs : List Char) : Option (BlockHeader × List Char) :=
  let (chomping, cs) := blockHeader.option chomping? cs
  let (indent, cs) := blockHeader.option indentDigit? cs
  let (late, cs) := if chomping.isNone && indent.isSome then blockHeader.option chomping? cs else (none, cs)
  let header : BlockHeader := ⟨(chomping.or late).getD .clip, indent⟩
  let behind := cs.dropWhile isBlank
  if behind.head? = some '#' then
    if cs.head?.any isBlank then some (header, behind.dropWhile (· ≠ '\n')) else none
  else if endsLine behind then some (header, behind)
  else none

/-- Empty lines: their indentations, that of the line after them up to the scalar's own, and what follows it.  While the
indentation is not settled, all spaces count. -/
def blockGap (indent : Option Nat) (cs : List Char) : List Nat × Nat × List Char :=
  let spaces := (cs.takeWhile (· = ' ')).length
  let column := match indent with
    | some n => min n spaces
    | none => spaces
  match hrest : cs.drop column with
  | '\n' :: more =>
    have : more.length < cs.length := by
      have := congrArg List.length hrest
      simp at this
      omega
    let (columns, last, rest) := blockGap indent more
    (column :: columns, last, rest)
  | rest => ([], column, rest)
termination_by cs.length

/-- The lines of a block scalar from one with content on.  `pending` is the line feed before that line and the number
of empty lines after it; `spaced` tells that the line before started with a blank. -/
def blockLines (literal : Bool) (chomping : Chomping) (indent : Nat) (pending : List Char × Nat) (spaced : Bool)
    (cs : List Char) : List Char × List Char :=
  let line := cs.takeWhile (· ≠ '\n')
  let blank := line.head?.any isBlank
  let empty := List.replicate pending.2 '\n'
  let joint := if !literal && !pending.1.isEmpty && !spaced && !blank then
      (if empty.isEmpty then [' '] else empty)
    else pending.1 ++ empty
  match cs.drop line.length with
  | [] => (joint ++ line ++ (if chomping = .strip then [] else ['\n']), [])
  | feed :: more =>
    let (columns, column, rest) := blockGap (some indent) more
    if h : column = indent ∧ rest.length < cs.length ∧ rest ≠ [] ∧ !(indent = 0 && isDocumentMark rest) then
      have := h.2.1
      let (text, rest) := blockLines literal chomping indent ([feed], columns.length) blank rest
      (joint ++ line ++ text, rest)
    else
      let unended := if rest = [] && max indent 1 ≤ column then ['\n'] else []
      let final := match chomping with
        | .strip => []
        | .clip => feed :: unended
        | .keep => feed :: unended ++ List.replicate columns.length '\n'
      (joint ++ line ++ final, rest)
termination_by cs.length

/-- A block scalar that holds nothing up to the end of the text. -/
def emptyBlock (chomping : Chomping) (ended : Bool) (lines : Nat) : List Char :=
  match chomping with
  | .strip => []
  | .clip => if ended then ['\n'] else []
  | .keep => if !ended then [] else List.replicate (max lines 1) '\n'

def block (literal : Bool) (margin : Nat) (text : List Char) : Option (List Char × Nat) := do
  let (header, cs) ← blockHeader text
  let ended := cs ≠ []
  let cs := cs.drop 1
  if cs.head? = some '\t' then none
  let settled := header.indent.map fun n => n + (margin - 1)
  let (columns, column, rest) := blockGap settled cs
  let indent := settled.getD (max (columns.foldl max column) margin)
  let size (rest : List Char) : Nat := text.length - rest.length
  if rest = [] then some (emptyBlock header.chomping ended columns.length, size rest)
  else if column < indent && margin ≤ column then none
  else if column = indent && !(indent = 0 && isDocumentMark rest) then
    let (lines, rest) := blockLines literal header.chomping indent ([], columns.length) false rest
    some (lines, size rest)
  else some (if header.chomping = .keep then List.replicate columns.length '\n' else [], size rest)

end Strict
end Yaml
end TrafficRules
