/-!
# Action — what a matched rule does with the priority

An output code below eight is the priority itself; eight takes the frame's own, nine derives it from the DS field, and
larger codes mean nothing (`Action.noMatchCode` is the first of them).  Beside the action a rule may carry a hint which
acceleration engine its flows should be handed to; a code that names no engine gives no hint.
-/
namespace TrafficRules

inductive Action where
  | pcp (value : UInt8)
  | useUp
  | useDscp
  deriving DecidableEq, Repr

namespace Action

def useUpCode : UInt8 := 8

def useDscpCode : UInt8 := 9

def noMatchCode : UInt8 := 10

def ofCode? (code : UInt8) : Option Action :=
  if code < 8 then some (.pcp code)
  else if code = useUpCode then some .useUp
  else if code = useDscpCode then some .useDscp
  else none

end Action

inductive Acceleration where
  | default
  | ppe
  | sfe
  | ppeDs
  | ppeVp
  | none
  deriving DecidableEq, Inhabited, Repr

namespace Acceleration

def all : List Acceleration := [.default, .ppe, .sfe, .ppeDs, .ppeVp, .none]

/-- The hint of a code; an unknown code gives no hint. -/
def ofCode : UInt8 → Acceleration
  | 1 => .ppe
  | 2 => .sfe
  | 3 => .ppeDs
  | 4 => .ppeVp
  | 5 => .none
  | _ => .default

def name : Acceleration → String
  | .default => "default"
  | .ppe => "ppe"
  | .sfe => "sfe"
  | .ppeDs => "ppe-ds"
  | .ppeVp => "ppe-vp"
  | .none => "none"

def ofName? (s : String) : Option Acceleration := all.find? (·.name == s)

end Acceleration
end TrafficRules
