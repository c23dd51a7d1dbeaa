import TrafficRules.Document.Yaml.Text
import TrafficRules.Text.Digits
/-!
# Scalar — how a scalar is spelled

Plain words, the two quotations and the two block forms.  Each reader takes the text after what announced the scalar and
gives the scalar's characters and how many of the text's it read; it fails where the spelling is wrong.  Between single
quotes a quote is written twice; between double quotes escapes count, and an escaped break joins two lines without a
space.

Inside a scalar a run of blanks and line breaks is a gap.  A gap without a break stands for itself; otherwise its blanks
are dropped, one break folds to a space, and of several the first is dropped (`foldGap`).  A gap that leads to the mark
of a document's start or end (`gapMeetsMark`) ends a plain scalar and may not occur between quotes.

A block scalar opens with the rest of a line: its indentation and what becomes of the breaks at its end (`Chomping`), in
either order, and perhaps a comment.  Its lines start at one column, the first line's unless the opening tells, and
between them stand gaps of empty lines; a `BlockGap` has the widest indentation met, that of the line after it included,
and the indentation of that line, up to the scalar's own.
-/
namespace TrafficRules
namespace Yaml

/-- What a gap stands for. -/
def foldGap (gap : List Char) : List Char :=
  match gap.filter isBreak with
  | [] => gap
  | ['\n'] => [' ']
  | '\n' :: more => more
  | breaks => breaks

def lastBlanks (gap : List Char) : List Char := (gap.reverse.takeWhile isBlank).reverse

/-- A tab stands left of `indent` on a line that a gap begins. -/
def tabLeftOf (indent : Nat) : List Char → Bool
  | [] => false
  | c :: cs =>
    if isBreak c then ((cs.takeWhile isBlank).take indent).contains '\t' || tabLeftOf indent cs else tabLeftOf indent cs

def gapMeetsMark (gap rest : List Char) : Bool := gap.getLast?.any isBreak && isDocumentMark rest

theorem length_dropWhile_le {α : Type} (p : α → Bool) (cs : List α) : (cs.dropWhile p).length ≤ cs.length :=
  (List.dropWhile_sublist p).length_le

/-! ## Plain scalars -/

def isFlowIndicator (c : Char) : Bool := [',', '[', ']', '\x7b', '\x7d'].contains c

/-- The word a plain scalar goes on with, empty where the scalar ends.  Inside brackets a colon may not stand right
before an indicator. -/
def plainWord (flow : Bool) : List Char → Option (List Char)
  | [] => some []
  | c :: cs =>
    if isSpace c then some []
    else if flow && c = ':' && cs.head?.any (fun d => isFlowIndicator d || d = '?') then none
    else if (c = ':' && endsWord cs) || (flow && isFlowIndicator c) then some []
    else (plainWord flow cs).map (c :: ·)

/-- A plain scalar whose continuation lines start at column `indent` or further right.  The flag tells that a line
ended behind the last word. -/
def plain (flow : Bool) (indent : Nat) (cs : List Char) : Option (List Char × Nat × Bool) :=
  match plainWord flow cs with
  | none => none
  | some [] => some ([], 0, false)
  | some (w :: ws) =>
    let after := cs.drop (ws.length + 1)
    let gap := after.takeWhile isSpace
    let rest := after.dropWhile isSpace
    let broken := gap.any isBreak
    let read := ws.length + 1 + gap.length
    if gap.isEmpty then some (w :: ws, read, false)
    else if tabLeftOf indent gap then none
    else if (!flow && broken && (lastBlanks gap).length < indent) || rest.head? = some '#' || gapMeetsMark gap rest then
      some (w :: ws, read, broken)
    else if _h : rest.length < cs.length then
      match plain flow indent rest with
      | none => none
      | some ([], _, _) => some (w :: ws, read, broken)
      | some (more, n, broken) => some (w :: ws ++ foldGap gap ++ more, read + n, broken)
    else none
termination_by cs.length

/-! ## Quoted scalars -/

def after (text : List Char) (read : Nat) : List Char × Nat → List Char × Nat
  | (more, n) => (text ++ more, read + n)

def singleQuoted : List Char → Option (List Char × Nat)
  | [] => none
  | '\'' :: '\'' :: cs => (singleQuoted cs).map (after ['\''] 2)
  | '\'' :: _ => some ([], 1)
  | c :: cs =>
    if isSpace c then
      let gap := c :: cs.takeWhile isSpace
      let rest := cs.dropWhile isSpace
      if gapMeetsMark gap rest then none
      else
        have := length_dropWhile_le isSpace cs
        (singleQuoted rest).map (after (foldGap gap) gap.length)
    else (singleQuoted cs).map (after [c] 1)
termination_by cs => cs.length
decreasing_by all_goals (simp only [List.length_cons]; omega)

def escapes : List (Char × Char) :=
  [('0', '\x00'), ('a', '\x07'), ('b', '\x08'), ('t', '\t'), ('\t', '\t'), ('n', '\n'), ('v', '\x0b'), ('f', '\x0c'),
   ('r', '\r'), ('e', '\x1b'), (' ', ' '), ('"', '"'), ('/', '/'), ('\\', '\\'), ('N', '\u0085'), ('_', '\u00a0'),
   ('L', '\u2028'), ('P', '\u2029')]

def hexLength? : Char → Option Nat
  | 'x' => some 2
  | 'u' => some 4
  | 'U' => some 8
  | _ => none

def charOfNat? (n : Nat) : Option Char := if n.isValidChar then some (Char.ofNat n) else none

/-- Between double quotes, with escapes.  An escaped break joins two lines without a space. -/
def doubleQuoted : List Char → Option (List Char × Nat)
  | [] => none
  | '"' :: _ => some ([], 1)
  | ['\\'] => none
  | '\\' :: e :: cs =>
    if isBreak e then
      let gap := cs.takeWhile isSpace
      let rest := cs.dropWhile isSpace
      if gapMeetsMark (e :: gap) rest then none
      else
        have := length_dropWhile_le isSpace cs
        (doubleQuoted rest).map (after (gap.filter isBreak) (gap.length + 2))
    else
      match hexLength? e with
      | some n =>
        let digits := cs.take n
        match (if digits.length = n then (Digits.toNat? 16 digits).bind charOfNat? else none) with
        | none => none
        | some c => (doubleQuoted (cs.drop n)).map (after [c] (n + 2))
      | none =>
        match escapes.lookup e with
        | none => none
        | some c => (doubleQuoted cs).map (after [c] 2)
  | c :: cs =>
    if isSpace c then
      let gap := c :: cs.takeWhile isSpace
      let rest := cs.dropWhile isSpace
      if gapMeetsMark gap rest then none
      else
        have := length_dropWhile_le isSpace cs
        (doubleQuoted rest).map (after (foldGap gap) gap.length)
    else (doubleQuoted cs).map (after [c] 1)
termination_by cs => cs.length
decreasing_by all_goals (simp only [List.length_cons, List.length_drop]; omega)

/-! ## Block scalars -/

inductive Chomping where
  | clip
  | strip
  | keep
  deriving DecidableEq, Repr

structure BlockHeader where
  chomping : Chomping := .clip
  indent : Option Nat := none
  deriving Repr

def chomping? : Char → Option Chomping
  | '+' => some .keep
  | '-' => some .strip
  | _ => none

def indentDigit? (c : Char) : Option Nat := (Digits.value? 10 c).filter (· ≠ 0)

/-- The rest of the line that opens a block scalar: its two options in either order, and perhaps a comment. -/
def blockHeader (cs : List Char) : Option (BlockHeader × List Char) :=
  let (chomping, cs) := option chomping? cs
  let (indent, cs) := option indentDigit? cs
  let (late, cs) := if chomping.isNone then option chomping? cs else (none, cs)
  let cs := cs.dropWhile isBlank
  let cs := if cs.head? = some '#' then cs.dropWhile (!isBreak ·) else cs
  let header : BlockHeader := ⟨(chomping.or late).getD .clip, indent⟩
  match cs with
  | [] => some (header, [])
  | c :: cs => if isBreak c then some (header, cs) else none
where
  option {α : Type} (read : Char → Option α) (cs : List Char) : Option α × List Char :=
    match cs with
    | [] => (none, cs)
    | c :: more =>
      match read c with
      | some a => (some a, more)
      | none => (none, cs)

structure BlockGap where
  breaks : List Char
  widest : Nat
  column : Nat
  rest : List Char

/-- Reads empty lines up to a line with content.  While the scalar's indentation is not settled, all spaces count as
indentation.  A tab may not stand in it. -/
def blockGap (indent : Option Nat) (widest : Nat) (cs : List Char) : Option BlockGap :=
  let spaces := (cs.takeWhile (· = ' ')).length
  let column := match indent with
    | some n => min n spaces
    | none => spaces
  let widest := max widest column
  match hrest : cs.drop column with
  | [] => some ⟨[], widest, column, []⟩
  | c :: more =>
    if isBreak c then
      have : more.length < cs.length := by
        have := congrArg List.length hrest
        simp at this
        omega
      match blockGap indent widest more with
      | none => none
      | some g => some { g with breaks := c :: g.breaks }
    else if c = '\t' && indent.all (column < ·) then none
    else some ⟨[], widest, column, c :: more⟩
termination_by cs.length

/-- The lines of a block scalar from one with content on.  `pending` is the break before that line and the breaks of
the empty lines after it; `spaced` tells that the line before started with a blank. -/
def blockLines (literal : Bool) (chomping : Chomping) (indent : Nat) (pending : List Char × List Char) (spaced : Bool)
    (cs : List Char) : Option (List Char × List Char) :=
  let line := cs.takeWhile (!isBreak ·)
  let blank := line.head?.any isBlank
  let joint := if !literal && pending.1 = ['\n'] && !spaced && !blank then
      (if pending.2.isEmpty then [' '] else pending.2)
    else pending.1 ++ pending.2
  let after := cs.drop line.length
  match blockGap (some indent) 0 (after.drop 1) with
  | none => none
  | some gap =>
    if h : gap.column = indent ∧ gap.rest.length < cs.length ∧ gap.rest ≠ [] then
      have := h.2.1
      match blockLines literal chomping indent (after.take 1, gap.breaks) blank gap.rest with
      | none => none
      | some (text, rest) => some (joint ++ line ++ text, rest)
    else
      let final := match chomping with
        | .strip => []
        | .clip => after.take 1
        | .keep => after.take 1 ++ gap.breaks
      some (joint ++ line ++ final, gap.rest)
termination_by cs.length

/-- A block scalar inside a block that starts at column `parent`. -/
def block (literal : Bool) (parent : Option Nat) (text : List Char) : Option (List Char × Nat) := do
  let (header, cs) ← blockHeader text
  let base := match parent with
    | some p => p + 1
    | none => 0
  let settled := header.indent.map fun n => n + (base - 1)
  let gap ← blockGap settled 0 cs
  let indent := settled.getD (max gap.widest (max base 1))
  let (lines, rest) ←
    if gap.column = indent ∧ gap.rest ≠ [] then blockLines literal header.chomping indent ([], gap.breaks) false gap.rest
    else some (if header.chomping = .keep then gap.breaks else [], gap.rest)
  some (lines, text.length - rest.length)

end Yaml
end TrafficRules
