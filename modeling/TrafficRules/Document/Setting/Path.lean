import TrafficRules.Document.Setting
/-!
# Path — where a setting goes

A path is a name and steps from there: to an entry of a table by name, to an item of a list by place, counted from the
end if negative.  What is in the way and not of the right kind makes room: an entry that is missing counts as a new one,
and a list is made long enough for the place, within a limit (`longestList`).

The last name on a path is put in lowercase, and a table that is put there is merged into the one before, entry by
entry.  Settings are put over others in turn, each key naming a path (`overlay`).
-/
namespace TrafficRules
namespace Setting

inductive Step where
  | entry (name : String)
  | item (index : Int)
  deriving DecidableEq, Repr

/-! ## Paths as text -/

def isNameChar (c : Char) : Bool := c.isAlphanum || c = ' ' || c = '_' || c = '-'

/-- The place in brackets behind an opening one, and what follows the brackets. -/
def index? (cs : List Char) : Option (Int × List Char) :=
  let blank (c : Char) : Bool := c = ' ' || c = '\t'
  let inside := cs.takeWhile (· ≠ ']')
  let trimmed := ((inside.dropWhile blank).reverse.dropWhile blank).reverse
  match cs.drop inside.length with
  | [] => none
  | _ :: rest => if trimmed.head? = some '+' then none else (int? 10 trimmed).map fun n => (n, rest)

theorem length_rest_of_index? {cs rest : List Char} {n : Int} (h : index? cs = some (n, rest)) :
    rest.length < cs.length := by
  unfold index? at h
  dsimp only at h
  split at h
  · simp at h
  · next heq =>
    have := congrArg List.length heq
    simp only [List.length_drop, List.length_cons] at this
    split at h
    · simp at h
    · obtain ⟨m, -, hm⟩ := Option.map_eq_some_iff.1 h
      simp only [Prod.mk.injEq] at hm
      rw [← hm.2]
      omega

def steps? : List Char → Option (List Step)
  | [] => some []
  | '.' :: cs =>
    have := (List.dropWhile_sublist isNameChar (l := cs)).length_le
    if cs.head?.any isNameChar then
      (steps? (cs.dropWhile isNameChar)).map (.entry (String.ofList (cs.takeWhile isNameChar)) :: ·)
    else none
  | '[' :: cs =>
    match h : index? cs with
    | none => none
    | some (n, rest) =>
      have := length_rest_of_index? h
      (steps? rest).map (.item n :: ·)
  | _ => none
termination_by cs => cs.length
decreasing_by all_goals (simp only [List.length_cons]; omega)

/-- The path a key spells.  A key that spells none is a name as a whole. -/
def pathOf (key : String) : List Step :=
  let cs := key.toList
  let path := if cs.head?.any isNameChar then
      (steps? (cs.dropWhile isNameChar)).map (.entry (String.ofList (cs.takeWhile isNameChar)) :: ·)
    else none
  path.getD [.entry key]

/-! ## Putting settings -/

def entriesOf : Setting → List (String × Setting)
  | .table entries => entries
  | _ => []

def itemsOf : Setting → List Setting
  | .list items => items
  | _ => []

def change (name : String) (new : Setting) (f : Setting → Setting) : List (String × Setting) → List (String × Setting)
  | [] => [(name, f new)]
  | e :: es => if e.1 = name then (name, f e.2) :: es else e :: change name new f es

def longestList : Nat := 65536

/-- Changes an item, after making the list long enough.  A place that no list can have changes nothing. -/
def changeItem (index : Int) (f : Setting → Setting) (items : List Setting) : List Setting :=
  let place := if index < 0 then items.length + index else index
  if 0 ≤ place ∧ place < longestList then
    (items ++ List.replicate (place.toNat + 1 - items.length) absent).modify place.toNat f
  else items

mutual

def put : Setting → String → Setting → Setting
  | here, name, .table entries => .table (change (lower name) (.table []) (putAll · entries) here.entriesOf)
  | here, name, v => .table (change (lower name) .absent (fun _ => v) here.entriesOf)

def putAll : Setting → List (String × Setting) → Setting
  | here, [] => here
  | here, (name, v) :: es => putAll (put here name v) es

end

/-- Puts a setting at the end of a path. -/
def putAt (v : Setting) : List Step → Setting → Setting
  | [], _ => v
  | [.entry name], here => put here name v
  | .entry name :: path, here => .table (change name .absent (putAt v path) here.entriesOf)
  | .item index :: path, here => .list (changeItem index (putAt v path) here.itemsOf)

def overlay (base : Setting) (entries : List (String × Setting)) : Setting :=
  entries.foldl (fun s e => putAt e.2 (pathOf e.1) s) base

end Setting
end TrafficRules
