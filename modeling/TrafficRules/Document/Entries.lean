/-!
# Entries — named parts of a document

The named parts of a document, in its order.  A name may occur once.  An entry is either needed (`required`) or has
something that counts in its absence (`withDefault`).
-/
namespace TrafficRules

abbrev Entries (β : Type) := List (String × β)

namespace Entries

/-- The value under a name; fails on a name given twice. -/
def get? {β : Type} (es : Entries β) (name : String) : Option (Option β) :=
  match es.filter (·.1 == name) with
  | [] => some none
  | [f] => some (some f.2)
  | _ => none

def required {α β : Type} (es : Entries β) (name : String) (read : β → Option α) : Option α :=
  match es.get? name with
  | some (some v) => read v
  | _ => none

/-- An entry that counts as `absent` when it is not there. -/
def withDefault {α β : Type} (es : Entries β) (name : String) (absent : α) (read : β → Option α) : Option α :=
  match es.get? name with
  | none => none
  | some none => some absent
  | some (some v) => read v

end Entries

end TrafficRules
