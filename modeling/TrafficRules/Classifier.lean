import TrafficRules.Text.Digits
/-!
# Classifier — the rule families

Six families.  Which family a rule belongs to decides its matcher, its key in the store and the entry points that
consult it: raw frames on the mesh path (`mesh`), service-aware flows (`sawf`), stream classification (`scs`), the same
within admitted traffic identifiers (`mscs`), stream classification installed through the service-aware path
(`sawfScs`), and flows located by the hash of their tuple (`ifli`).  Rules of the last are flow-keyed: they are stored under
the hash of their own tuple.  Stream classification also accepts the interface's own address for the destination address
(`Classifier.isScsLike`).  A family is listed by its code and read by its name in any case.
-/
namespace TrafficRules

inductive Classifier where
  | mesh
  | sawf
  | scs
  | mscs
  | sawfScs
  | ifli
  deriving DecidableEq, Inhabited, Repr

namespace Classifier

def all : List Classifier := [.mesh, .sawf, .scs, .mscs, .sawfScs, .ifli]

def code : Classifier → UInt8
  | .mesh => 1
  | .sawf => 2
  | .scs => 3
  | .mscs => 4
  | .sawfScs => 5
  | .ifli => 6

def ofCode? (n : UInt8) : Option Classifier := all.find? (·.code == n)

def name : Classifier → String
  | .mesh => "mesh"
  | .sawf => "sawf"
  | .scs => "scs"
  | .mscs => "mscs"
  | .sawfScs => "sawf_scs"
  | .ifli => "ifli"

def ofName? (s : String) : Option Classifier := all.find? (·.name == s)

def parse? (s : String) : Option Classifier := all.find? (sameIgnoringCase ·.name s)

def nameOf : Option Classifier → String
  | none => "none"
  | some c => c.name

def isFlowKeyed : Classifier → Bool
  | .ifli => true
  | _ => false

def isScsLike : Classifier → Bool
  | .scs | .sawfScs => true
  | _ => false

end Classifier

/-- One value for each family. -/
structure PerFamily (α : Type) where
  (mesh sawf scs mscs sawfScs ifli : α)
  deriving Repr

namespace PerFamily

def fill {α : Type} (a : α) : PerFamily α := ⟨a, a, a, a, a, a⟩

def get {α : Type} (p : PerFamily α) : Classifier → α
  | .mesh => p.mesh
  | .sawf => p.sawf
  | .scs => p.scs
  | .mscs => p.mscs
  | .sawfScs => p.sawfScs
  | .ifli => p.ifli

def modify {α : Type} (f : α → α) (p : PerFamily α) : Classifier → PerFamily α
  | .mesh => { p with mesh := f p.mesh }
  | .sawf => { p with sawf := f p.sawf }
  | .scs => { p with scs := f p.scs }
  | .mscs => { p with mscs := f p.mscs }
  | .sawfScs => { p with sawfScs := f p.sawfScs }
  | .ifli => { p with ifli := f p.ifli }

theorem get_modify {α : Type} (f : α → α) (p : PerFamily α) (c c' : Classifier) :
    (p.modify f c).get c' = if c' = c then f (p.get c) else p.get c' := by
  cases c <;> cases c' <;> rfl

theorem get_fill {α : Type} (a : α) (c : Classifier) : (fill a).get c = a := by cases c <;> rfl

end PerFamily
end TrafficRules
