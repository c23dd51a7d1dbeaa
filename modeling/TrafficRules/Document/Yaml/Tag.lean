import TrafficRules.Document.Yaml.Text
import TrafficRules.Text.Digits
/-!
# Tag — what a node says it is

A tag is a handle and a suffix.  Handles stand for the start of a longer name: two of them always, others by a directive
of the document.  A handle is a word with a mark at both ends, or a single mark; behind an angle bracket the whole name
is written out.

A name with the prefix of the core types is that of a type every document knows (`coreName`, empty for any other); the
document's own types have names that start with an exclamation mark (`own?`).
-/
namespace TrafficRules
namespace Yaml

structure Tag where
  handle : String
  suffix : String
  deriving DecidableEq, Repr

def corePrefix : String := "tag:yaml.org,2002:"

namespace Tag

def name (t : Tag) : String := t.handle ++ t.suffix

def own? (t : Tag) : Option String :=
  match t.name.toList with
  | '!' :: cs => some (String.ofList cs)
  | _ => none

def coreName (t : Tag) : String :=
  if corePrefix.toList.isPrefixOf t.name.toList then String.ofList (t.name.toList.drop corePrefix.length) else ""

def handles : List (String × String) := [("!", "!"), ("!!", corePrefix)]

def resolve? (directives : List (String × String)) (t : Tag) : Option Tag :=
  if t.handle = "" then some t else ((directives ++ handles).lookup t.handle).map fun start => { t with handle := start }

/-! ## Spelling -/

def isWordChar (c : Char) : Bool := c.isAlphanum || c = '_' || c = '-'

def isSuffixChar (c : Char) : Bool :=
  isWordChar c || [';', '/', '?', ':', '@', '&', '=', '+', '$', '.', '!', '~', '*', '\'', '(', ')'].contains c

def isNameChar (c : Char) : Bool := isSuffixChar c || [',', '[', ']'].contains c

/-- Characters of a name, and what follows them.  A percent sign and two hexadecimal digits are an ASCII character. -/
def spelled (allowed : Char → Bool) : List Char → Option (List Char × List Char)
  | '%' :: high :: low :: cs => do
    let n ← (Digits.toNat? 16 [high, low]).filter (· < 128)
    let (more, rest) ← spelled allowed cs
    some (Char.ofNat n :: more, rest)
  | c :: cs =>
    if c = '%' then none
    else if allowed c then (spelled allowed cs).map fun (more, rest) => (c :: more, rest)
    else some ([], c :: cs)
  | [] => some ([], [])

/-- A handle behind its first exclamation mark: a word, and a second mark if there is one. -/
def handle? : List Char → Option (List Char × List Char)
  | '!' :: cs =>
    let word := cs.takeWhile isWordChar
    match cs.drop word.length with
    | '!' :: rest => some ('!' :: word ++ ['!'], rest)
    | rest => some ('!' :: word, rest)
  | _ => none

def isWhole (handle : List Char) : Bool := handle.length = 1 || handle.getLast? = some '!'

/-- A tag, and what follows it.  Behind an angle bracket the name is written out; a lone mark is a name too. -/
def read? (suffixChar nameChar : Char → Bool) (cs : List Char) : Option (Tag × List Char) := do
  match cs with
  | '!' :: '<' :: cs =>
    let (name, rest) ← spelled nameChar cs
    if name ≠ [] && rest.head? = some '>' then some (⟨"", String.ofList name⟩, rest.tail) else none
  | cs =>
    let (handle, rest) ← handle? cs
    let (suffix, rest) ← spelled suffixChar rest
    if handle.length ≠ 1 && isWhole handle then
      if suffix = [] then none else some (⟨String.ofList handle, String.ofList suffix⟩, rest)
    else
      let name := handle.tail ++ suffix
      some (if name = [] then ⟨"", "!"⟩ else ⟨"!", String.ofList name⟩, rest)

def directive? (nameChar : Char → Bool) (cs : List Char) : Option (String × String × List Char) := do
  let (handle, rest) ← handle? (cs.dropWhile isBlank)
  let (start, behind) ← spelled nameChar (rest.dropWhile isBlank)
  if isWhole handle && rest.head?.any isBlank && start ≠ [] && endsWord behind then
    some (String.ofList handle, String.ofList start, behind)
  else none

end Tag
end Yaml
end TrafficRules
