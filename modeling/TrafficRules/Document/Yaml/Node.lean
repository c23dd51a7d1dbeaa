import TrafficRules.Document.Entries
import TrafficRules.Document.Yaml.Strict.Token
import TrafficRules.Document.Yaml.Token
/-!
# Node — a YAML document as a tree

The tree a list of tokens spells.  A scalar keeps its characters and whether it was written plainly; what it means is
decided by who reads it.  Where nothing is written stands an empty plain scalar (`nothing`).

An anchor gets the count of different names before it as its number, and the last node to start under a number is what
aliases of that number stand for.  Aliases are followed by who reads the document: a node may hold an alias of itself as
long as nobody asks what it stands for.  A document is its root and the trees with a number.

A tag stays with its node, its handle replaced by what it stands for.  The anchor and the tag in front of a node come in
either order.  Directives say what handles stand for, and need a start mark behind them.

`Reading` holds the tokens to come, what handles and names stand for, how many nodes with an anchor have started, and
those that are at their end, each with how many had started before it.  The readers from `node` on take each other's
`fuel`, which bounds the depth of their calls, and give what they read and the reading behind it.

Read strictly, every anchor has a number of its own, and an alias is at once what it stands for, nothing if that node is
not at its end yet.  On the other hand, an entry may start with its colon, and marks of a document's end may stand in
front.
-/
namespace TrafficRules
namespace Yaml

inductive Node where
  | scalar (text : String) (plain : Bool)
  | list (items : List Node)
  | mapping (entries : List (Node × Node))
  | alias (anchor : Nat)
  | tagged (tag : Tag) (content : Node)
  deriving Inhabited, Repr

structure Document where
  root : Node
  anchored : List (Nat × Node) := []
  deriving Inhabited, Repr

namespace Node

def nothing : Node := .scalar "" true

def tag? : Node → Option Tag
  | .tagged t _ => some t
  | _ => none

def bare : Node → Node
  | .tagged _ v => v
  | v => v

/-! ## From tokens -/

structure Anchored where
  number : Nat
  position : Nat
  node : Node
  deriving Repr

/-- The tokens to come and what is known of anchors. -/
structure Reading where
  tokens : List Token
  strict : Bool := false
  handles : List (String × String) := []
  numbers : List (String × Nat) := []
  started : Nat := 0
  anchored : List Anchored := []
  deriving Repr

/-- Where a node stands: in a block, and behind a key, where a list need not be indented. -/
structure Place where
  block : Bool
  afterKey : Bool := false

def endsBlockEntry : Option Token → Bool
  | some .key | some .value | some .blockEnd => true
  | _ => false

def endsListEntry : Option Token → Bool
  | some .comma | some .flowListEnd => true
  | _ => false

def endsMappingEntry : Option Token → Bool
  | some .comma | some .flowMappingEnd => true
  | _ => false

/-- A node starts with this token. -/
def startsContent (p : Place) : Option Token → Bool
  | some (.scalar _ _) | some .flowList | some .flowMapping => true
  | some .blockList | some .blockMapping => p.block
  | some .item => p.afterKey
  | _ => false

def Reading.head? (r : Reading) : Option Token := r.tokens.head?

def Reading.tail (r : Reading) : Reading := { r with tokens := r.tokens.tail }

def Reading.nextNumber (r : Reading) : Nat := if r.strict then r.started else r.numbers.length

def Reading.start (r : Reading) (name : String) : Reading :=
  { r with numbers := (name, r.nextNumber) :: r.numbers.filter (·.1 ≠ name), started := r.started + 1 }

def Reading.aliasOf (number : Nat) (r : Reading) : Node :=
  if r.strict then ((r.anchored.find? (·.number = number)).map (·.node)).getD nothing else .alias number

/-- Keeps a node for its aliases, unless one that started later has its number. -/
def Reading.keep (a : Anchored) (r : Reading) : Reading :=
  if r.anchored.any fun b => b.number = a.number && a.position < b.position then r
  else { r with anchored := a :: r.anchored.filter (·.number ≠ a.number) }

structure Properties where
  anchor : Option String := none
  tag : Option Tag := none

def Reading.properties? (r : Reading) : Option (Properties × Reading) :=
  match r.tokens with
  | .anchor a :: .tag t :: ts | .tag t :: .anchor a :: ts =>
    (t.resolve? r.handles).map fun t => ({ anchor := a, tag := t }, { r with tokens := ts })
  | .anchor a :: ts => some ({ anchor := a }, { r with tokens := ts })
  | .tag t :: ts => (t.resolve? r.handles).map fun t => ({ tag := t }, { r with tokens := ts })
  | _ => some ({}, r)

def Properties.wrap (p : Properties) (v : Node) : Node :=
  match p.tag with
  | some t => .tagged t v
  | none => v

/-- Reads an entry's node, or nothing where the entry ends before one. -/
def orNothing (ends : Bool) (read : Reading → Option (Node × Reading)) (r : Reading) : Option (Node × Reading) :=
  if ends then some (nothing, r) else read r

mutual

/-- A node with its properties.  `fuel` bounds the depth of the calls. -/
def node (p : Place) : Nat → Reading → Option (Node × Reading)
  | 0, _ => none
  | fuel + 1, r =>
    match r.head? with
    | some (.alias name) => (r.numbers.lookup name).map fun n => (r.aliasOf n, r.tail)
    | some (.anchor _) | some (.tag _) => do
      let (given, inner) ← r.properties?
      let (v, rest) ← orNothing (!startsContent p inner.head?) (content p fuel) (given.anchor.elim inner inner.start)
      let v := given.wrap v
      some (v, if given.anchor.isSome then rest.keep ⟨r.nextNumber, r.started, v⟩ else rest)
    | _ => content p fuel r

def content (p : Place) : Nat → Reading → Option (Node × Reading)
  | 0, _ => none
  | fuel + 1, r =>
    if !startsContent p r.head? then none
    else
      match r.head? with
      | some (.scalar text plain) => some (.scalar text plain, r.tail)
      | some .item => (bareItems fuel r).map fun (vs, r) => (.list vs, r)
      | some .blockList => (blockItems fuel r.tail).map fun (vs, r) => (.list vs, r)
      | some .blockMapping => (blockEntries fuel r.tail).map fun (es, r) => (.mapping es, r)
      | some .flowList => (flowItems true fuel r.tail).map fun (vs, r) => (.list vs, r)
      | some .flowMapping => (flowEntries true fuel r.tail).map fun (es, r) => (.mapping es, r)
      | _ => none

def blockItems : Nat → Reading → Option (List Node × Reading)
  | 0, _ => none
  | fuel + 1, r =>
    match r.head? with
    | some .item => do
      let next := r.tail.head?
      let (v, r) ← orNothing (next = some .item || next = some .blockEnd) (node ⟨true, false⟩ fuel) r.tail
      let (vs, r) ← blockItems fuel r
      some (v :: vs, r)
    | some .blockEnd => some ([], r.tail)
    | _ => none

/-- The items of a list that stands at the column of its key and ends with the last of them. -/
def bareItems : Nat → Reading → Option (List Node × Reading)
  | 0, _ => none
  | fuel + 1, r =>
    match r.head? with
    | some .item => do
      let next := r.tail.head?
      let (v, r) ← orNothing (next = some .item || endsBlockEntry next) (node ⟨true, false⟩ fuel) r.tail
      let (vs, r) ← bareItems fuel r
      some (v :: vs, r)
    | _ => some ([], r)

def blockEntries : Nat → Reading → Option (List (Node × Node) × Reading)
  | 0, _ => none
  | fuel + 1, r =>
    match r.head? with
    | some .key => do
      let (k, r) ← orNothing (endsBlockEntry r.tail.head?) (node ⟨true, true⟩ fuel) r.tail
      let (v, r) ← entryValue endsBlockEntry ⟨true, true⟩ fuel r
      let (es, r) ← blockEntries fuel r
      some ((k, v) :: es, r)
    | some .blockEnd => some ([], r.tail)
    | some .value =>
      if !r.strict then none
      else do
        let (v, r) ← entryValue endsBlockEntry ⟨true, true⟩ fuel r
        let (es, r) ← blockEntries fuel r
        some ((nothing, v) :: es, r)
    | _ => none

/-- What follows the colon of an entry; nothing if there is no colon. -/
def entryValue (ends : Option Token → Bool) (p : Place) : Nat → Reading → Option (Node × Reading)
  | 0, _ => none
  | fuel + 1, r =>
    match r.head? with
    | some .value => orNothing (ends r.tail.head?) (node p fuel) r.tail
    | _ => some (nothing, r)

/-- The items of a bracketed list.  An entry among them is a mapping of its own; where its key is left out, the token
after the question mark goes with it. -/
def flowItems (first : Bool) : Nat → Reading → Option (List Node × Reading)
  | 0, _ => none
  | fuel + 1, r =>
    if r.head? = some .flowListEnd then some ([], r.tail)
    else if !first && r.head? ≠ some .comma then none
    else
      let r := if first then r else r.tail
      match r.head? with
      | some .flowListEnd => some ([], r.tail)
      | some .key => do
        let next := r.tail.head?
        let (k, r) ← orNothing (next = some .value || endsListEntry next) (node ⟨false, false⟩ fuel) r.tail
        let (v, r) ← entryValue endsListEntry ⟨false, false⟩ fuel r
        let (vs, r) ← flowItems false fuel r
        some (.mapping [(k, v)] :: vs, r)
      | _ => do
        let (v, r) ← node ⟨false, false⟩ fuel r
        let (vs, r) ← flowItems false fuel r
        some (v :: vs, r)

/-- The entries of a bracketed mapping.  A node without a colon is a key without a value. -/
def flowEntries (first : Bool) : Nat → Reading → Option (List (Node × Node) × Reading)
  | 0, _ => none
  | fuel + 1, r =>
    if r.head? = some .flowMappingEnd then some ([], r.tail)
    else if !first && r.head? ≠ some .comma then none
    else
      let r := if first then r else r.tail
      match r.head? with
      | some .flowMappingEnd => some ([], r.tail)
      | some .key => do
        let next := r.tail.head?
        let (k, r) ← orNothing (next = some .value || endsMappingEntry next) (node ⟨false, false⟩ fuel) r.tail
        let (v, r) ← entryValue endsMappingEntry ⟨false, false⟩ fuel r
        let (es, r) ← flowEntries false fuel r
        some ((k, v) :: es, r)
      | some .value =>
        if !r.strict then none
        else do
          let (v, r) ← entryValue endsMappingEntry ⟨false, false⟩ fuel r
          let (es, r) ← flowEntries false fuel r
          some ((nothing, v) :: es, r)
      | _ => do
        let (k, r) ← node ⟨false, false⟩ fuel r
        let (es, r) ← flowEntries false fuel r
        some ((k, nothing) :: es, r)

end

def onlyNode (strict : Bool) (handles : List (String × String)) (ts : List Token) : Option Document := do
  let (v, r) ← node ⟨true, false⟩ (3 * ts.length + 3) { tokens := ts, strict, handles }
  if r.tokens.all (· = .documentEnd) then some ⟨v, r.anchored.map fun a => (a.number, a.node)⟩ else none

end Node

namespace Document

def empty : Document := { root := .nothing }

def afterStart? (strict : Bool) (handles : List (String × String)) (ts : List Token) : Option Document :=
  match ts with
  | [] => some empty
  | .documentEnd :: more => if more.all (· = .documentEnd) then some empty else none
  | _ => Node.onlyNode strict handles ts

def isDirective : Token → Bool
  | .version | .directive | .handle _ _ => true
  | _ => false

/-- What directives say handles stand for.  The version and each handle may be given once. -/
def handles? (directives : List Token) : Option (List (String × String)) :=
  let handles := directives.filterMap fun
    | .handle name start => some (name, start)
    | _ => none
  if directives.count .version ≤ 1 && (handles.map (·.1)).Nodup then some handles else none

/-- The document that tokens spell, if there is one.  Directives need a start mark behind them. -/
def ofTokens? (strict : Bool) (ts : List Token) : Option (Option Document) :=
  let directives := ts.takeWhile isDirective
  match ts.drop directives.length with
  | .documentStart :: ts => do some (← afterStart? strict (← handles? directives) ts)
  | [] => if directives.isEmpty then some none else none
  | ts => if directives.isEmpty then (Node.onlyNode strict [] ts).map some else none

def parse? (text : String) : Option Document := do
  let d ← ofTokens? false (← tokens? text)
  some (d.getD empty)

def parseStrict? (text : String) : Option (Option Document) := do
  ofTokens? true ((← Strict.tokens? text).dropWhile (· = .documentEnd))

end Document
end Yaml
end TrafficRules
