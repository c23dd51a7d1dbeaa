import TrafficRules.Document.Toml.Scalar
import TrafficRules.Document.Toml.Table
/-!
# Toml — TOML text as settings

A document is lines of keys with values and of headers.  Lists may go over several lines and end with a comma; tables in
braces may not.  A key is names between points.  A comment ends with its line, also in the gaps of a list.

Readers give what they read and the characters behind it: items and entries behind an opening mark or a comma, a
statement with the lines its value goes on to.  Their `fuel` bounds the names of a key, the calls for a value and the
lines of a document, and `depth` the lists and tables in each other.
-/
namespace TrafficRules
namespace Toml

/-- How many names a key may have, and how many lists and tables may stand in each other. -/
def depthLimit : Nat := 79

/-! ## Keys -/

def isBare (c : Char) : Bool := c.isAlphanum || c = '_' || c = '-'

def name? : List Char → Option (String × List Char)
  | [] => none
  | c :: cs =>
    if isBare c then some (String.ofList ((c :: cs).takeWhile isBare), cs.dropWhile isBare) else line? (c :: cs)

def names? : Nat → List Char → Option (List String × List Char)
  | 0, _ => none
  | fuel + 1, cs => do
    let (name, rest) ← name? (skipBlanks cs)
    match skipBlanks rest with
    | '.' :: cs => (names? fuel cs).map fun (names, rest) => (name :: names, rest)
    | rest => some ([name], rest)

def key? (cs : List Char) : Option (List String × List Char) := names? depthLimit cs

/-! ## Values -/

def skipGap? : Bool → List Char → Option (List Char)
  | _, '\n' :: cs => skipGap? false cs
  | _, '\r' :: '\n' :: cs => skipGap? false cs
  | true, c :: cs => if isPrintable c then skipGap? true cs else none
  | true, [] => none
  | false, [] => some []
  | false, c :: cs =>
    if c = '#' then skipGap? true cs
    else if isBlank c then skipGap? false cs
    else if c = '\r' then none
    else some (c :: cs)

def words : List (String × Setting) := [("true", .bool true), ("false", .bool false)]

def scalar? (cs : List Char) : Option (Setting × List Char) :=
  if cs.head?.any fun c => c = '"' || c = '\'' then (text? cs).map fun (s, rest) => (.text s, rest)
  else
    match words.find? (·.1.toList.isPrefixOf cs) with
    | some (word, v) => some (v, cs.drop word.length)
    | none => numeric? cs

mutual

/-- A value with at most `depth` lists and tables in each other.  `fuel` bounds the calls. -/
def value? (depth : Nat) : Nat → List Char → Option (Setting × List Char)
  | 0, _ => none
  | fuel + 1, cs =>
    match cs with
    | '[' :: cs => do
      if depth = 0 then none
      let (vs, rest) ← items? (depth - 1) fuel (← skipGap? false cs)
      some (.list vs, rest)
    | '\x7b' :: cs => do
      if depth = 0 then none
      match skipBlanks cs with
      | '\x7d' :: rest => some (.table [], rest)
      | cs =>
        let (entries, rest) ← entries? (depth - 1) fuel cs
        some (.table (← tableOf? entries), rest)
    | cs => scalar? cs

def items? (depth : Nat) : Nat → List Char → Option (List Setting × List Char)
  | 0, _ => none
  | fuel + 1, cs =>
    match cs with
    | ']' :: rest => some ([], rest)
    | cs => do
      let (v, rest) ← value? depth fuel cs
      match ← skipGap? false rest with
      | ',' :: rest => (items? depth fuel (← skipGap? false rest)).map fun (vs, rest) => (v :: vs, rest)
      | ']' :: rest => some ([v], rest)
      | _ => none

def entries? (depth : Nat) : Nat → List Char → Option (List Statement × List Char)
  | 0, _ => none
  | fuel + 1, cs => do
    let (key, rest) ← key? cs
    let (v, rest) ← value? depth fuel (skipBlanks (← expect? '=' rest))
    match skipBlanks rest with
    | ',' :: rest => (entries? depth fuel rest).map fun (es, rest) => (.entry key v :: es, rest)
    | '\x7d' :: rest => some ([.entry key v], rest)
    | _ => none

end

/-! ## Documents -/

/-- What a line that holds something says, with the lines its value goes on to. -/
def statement? : List Char → Option (Statement × List Char)
  | '[' :: '[' :: cs => do
    let (path, rest) ← key? cs
    some (.next path, ← lineEnd? (← expect? ']' (← expect? ']' rest)))
  | '[' :: cs => do
    let (path, rest) ← key? cs
    some (.header path, ← lineEnd? (← expect? ']' rest))
  | cs => do
    let (key, rest) ← key? cs
    let rest := skipBlanks (← expect? '=' rest)
    let (v, rest) ← value? depthLimit (2 * rest.length + 2) rest
    some (.entry key v, ← lineEnd? rest)

def statements? : Nat → List Char → Option (List Statement)
  | 0, cs => if cs.isEmpty then some [] else none
  | fuel + 1, cs =>
    match skipBlanks cs with
    | [] => some []
    | c :: cs =>
      if c = '#' || c = '\n' || c = '\r' then (lineEnd? (c :: cs)).bind (statements? fuel)
      else do
        let (s, rest) ← statement? (c :: cs)
        (statements? fuel rest).map (s :: ·)

def parse? (text : String) : Option (List (String × Setting)) :=
  let cs := text.toList
  (statements? (cs.length + 1) cs).bind tableOf?

end Toml
end TrafficRules
