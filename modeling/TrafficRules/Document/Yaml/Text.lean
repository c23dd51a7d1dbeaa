/-!
# Text — characters and positions of YAML text

Which characters a text may hold, which of them separate words and lines, and where in a text a reader stands.  Three
dashes or points mark the start or the end of a document when a line starts with them and nothing but what ends a word
follows.
-/
namespace TrafficRules
namespace Yaml

def isBlank (c : Char) : Bool := c = ' ' || c = '\t'

/-- The line breaks left once `uniformBreaks` has run. -/
def isBreak (c : Char) : Bool := c = '\n' || c = '\u2028' || c = '\u2029'

def isSpace (c : Char) : Bool := isBlank c || isBreak c

def isPrintable (c : Char) : Bool :=
  let n := c.toNat
  n = 0x0A || (0x20 ≤ n && n ≤ 0x7E) || (0xA0 ≤ n && n ≤ 0xD7FF) || (0xE000 ≤ n && n ≤ 0xFFFD && n ≠ 0xFEFF)
    || 0x10000 ≤ n

def isAllowed (c : Char) : Bool := isPrintable c || c = '\t' || c = '\r' || c = '\u0085' || c = '\uFEFF'

/-- Makes every way to end a line a line feed.  The two Unicode separators stay what they are. -/
def uniformBreaks (cs : List Char) : List Char :=
  (cs.zip (' ' :: cs)).filterMap fun (c, before) =>
    if c = '\n' && before = '\r' then none else some (if c = '\r' || c = '\u0085' then '\n' else c)

def endsWord : List Char → Bool
  | [] => true
  | c :: _ => isSpace c

def isDocumentMark (cs : List Char) : Bool :=
  (['-', '-', '-'].isPrefixOf cs || ['.', '.', '.'].isPrefixOf cs) && endsWord (cs.drop 3)

structure Cursor where
  rest : List Char
  line : Nat := 0
  column : Nat := 0
  index : Nat := 0
  deriving Repr

namespace Cursor

def next (c : Cursor) : Cursor :=
  match c.rest with
  | [] => c
  | x :: xs => if isBreak x then ⟨xs, c.line + 1, 0, c.index + 1⟩ else ⟨xs, c.line, c.column + 1, c.index + 1⟩

def skip : Nat → Cursor → Cursor
  | 0, c => c
  | n + 1, c => skip n c.next

end Cursor
end Yaml
end TrafficRules
