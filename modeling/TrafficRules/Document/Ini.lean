import TrafficRules.Document.Setting
/-!
# Ini — lines of keys and sections

A section goes from its name in brackets to the next, and a key is followed by an equals sign or a colon and by the rest
of the line.  Every value is a text, up to the end of its line or between quotes or apostrophes; escapes count in all of
them.  A comment takes a line from its very start.  The `fuel` of `upTo` bounds the characters it takes.
-/
namespace TrafficRules
namespace Ini

def isSpace (c : Char) : Bool :=
  ('\t' ≤ c && c ≤ '\r') || [' ', '\u0085', '\u00A0', '\u1680', '\u2028', '\u2029', '\u202F', '\u205F', '\u3000'].contains c
    || ('\u2000' ≤ c && c ≤ '\u200A')

def trim (cs : List Char) : String :=
  String.ofList ((cs.dropWhile isSpace).reverse.dropWhile isSpace).reverse

def escapes : List (Char × Char) :=
  [('0', '\x00'), ('a', '\x07'), ('b', '\x08'), ('t', '\t'), ('r', '\r'), ('n', '\n')]

/-- The characters an escape stands for, none for the end of a line, and what follows it. -/
def escape? : List Char → Option (List Char × List Char)
  | [] => none
  | '\n' :: cs => some ([], cs)
  | 'x' :: cs => do
    if (cs.take 4).length ≠ 4 then none
    let n ← Digits.toNat? 16 (cs.take 4)
    if n.isValidChar then some ([Char.ofNat n], cs.drop 4) else none
  | c :: cs => some ([(escapes.lookup c).getD c], cs)

def upTo (stops : Char → Bool) : Nat → List Char → Option (List Char × List Char)
  | _, [] => some ([], [])
  | 0, _ => none
  | fuel + 1, c :: cs => do
    if stops c then return ([], c :: cs)
    let (here, cs) ← if c = '\\' then escape? cs else some ([c], cs)
    let (more, rest) ← upTo stops fuel cs
    return (here ++ more, rest)

def closed? (stops : Char → Bool) (cs : List Char) : Option (List Char × List Char) := do
  let (text, rest) ← upTo stops cs.length cs
  if rest.isEmpty then none else some (text, rest.drop 1)

def value? (cs : List Char) : Option (String × List Char) :=
  let cs := cs.dropWhile fun c => isSpace c && c ≠ '\n' && c ≠ '\r'
  let read := match cs with
    | '"' :: cs => closed? (· = '"') cs
    | '\'' :: cs => closed? (· = '\'') cs
    | cs => upTo (fun c => c = '\n' || c = '\r') cs.length cs
  read.map fun (text, rest) => (trim text, rest)

/-! ## Documents -/

structure Section where
  name : String
  entries : List (String × String)

/-- The entries up to the next section from one on, and the sections after it.  `fresh` tells that a line starts here,
and `fuel` bounds the entries and sections. -/
def sections? (fresh : Bool) : Nat → List Char → Option (List (String × String) × List Section)
  | 0, _ => none
  | fuel + 1, text => do
    let space := text.takeWhile isSpace
    let fresh := if space.isEmpty then fresh else space.getLast? = some '\n'
    match text.dropWhile isSpace with
    | [] => return ([], [])
    | '[' :: cs =>
      let (name, rest) ← closed? (· = ']') cs
      let (entries, later) ← sections? false fuel rest
      return ([], ⟨trim name, entries⟩ :: later)
    | c :: cs =>
      if c = ';' || c = '#' then
        if fresh then sections? true fuel ((cs.dropWhile (· ≠ '\n')).drop 1) else none
      else
        let (key, rest) ← closed? (fun c => c = '=' || c = ':') (c :: cs)
        if (trim key).isEmpty then none
        let (v, rest) ← value? rest
        let (entries, later) ← sections? false fuel rest
        return ((trim key, v) :: entries, later)

/-- The table a document holds: its entries before any section, and one table a section.  Of sections of one name the
last counts. -/
def parse? (text : String) : Option (List (String × Setting)) := do
  let cs := text.toList
  let (first, sections) ← sections? true (cs.length + 1) cs
  let table (entries : List (String × String)) : List (String × Setting) := entries.map fun e => (e.1, .text e.2)
  let named := sections.map fun s => (s.name, Setting.table (table s.entries))
  return lastOfEach (table first ++ named)
where
  lastOfEach : List (String × Setting) → List (String × Setting)
    | [] => []
    | e :: es => if es.any (·.1 == e.1) then lastOfEach es else e :: lastOfEach es

end Ini
end TrafficRules
