import TrafficRules.Text.Digits
/-!
# Radio — the radios of a multi-link rule

Bands and bandwidths are listed by their names and read in any case.  In per-band arrays a band has the slot of its
index, slot zero being invalid.  Constraints on several radios combine as any of them or all (`MatchMode`).
-/
namespace TrafficRules

inductive Band where
  | g2
  | g5
  | g5High
  | g5Low
  | g6
  deriving DecidableEq, Repr

namespace Band

def all : List Band := [.g2, .g5, .g5High, .g5Low, .g6]

def name : Band → String
  | .g2 => "2G"
  | .g5 => "5G"
  | .g5High => "5GH"
  | .g5Low => "5GL"
  | .g6 => "6G"

def index : Band → Nat
  | .g2 => 1
  | .g5 => 2
  | .g5High => 3
  | .g5Low => 4
  | .g6 => 5

def ofName? (s : String) : Option Band := all.find? (·.name == s)

def parse? (s : String) : Option Band := all.find? (sameIgnoringCase ·.name s)

end Band

inductive Bandwidth where
  | mhz20
  | mhz40
  | mhz80
  | mhz160
  | mhz80Plus80
  deriving DecidableEq, Repr

namespace Bandwidth

def all : List Bandwidth := [.mhz20, .mhz40, .mhz80, .mhz160, .mhz80Plus80]

def name : Bandwidth → String
  | .mhz20 => "20"
  | .mhz40 => "40"
  | .mhz80 => "80"
  | .mhz160 => "160"
  | .mhz80Plus80 => "80_80"

def code : Bandwidth → UInt8
  | .mhz20 => 1
  | .mhz40 => 2
  | .mhz80 => 3
  | .mhz160 => 4
  | .mhz80Plus80 => 5

def ofName? (s : String) : Option Bandwidth := all.find? (·.name == s)

def parse? (s : String) : Option Bandwidth := all.find? (sameIgnoringCase ·.name s)

end Bandwidth

/-- How a list of radio constraints combines: any of them, or all. -/
inductive MatchMode where
  | or
  | and
  deriving DecidableEq, Inhabited, Repr

namespace MatchMode

def all : List MatchMode := [.or, .and]

def name : MatchMode → String
  | .or => "or"
  | .and => "and"

def render : MatchMode → String
  | .or => "OR"
  | .and => "AND"

def ofName? (s : String) : Option MatchMode := all.find? (·.name == s)

end MatchMode

structure Radio where
  band : Band
  channel : UInt8
  bandwidth : Bandwidth
  deriving DecidableEq, Repr

end TrafficRules
