import TrafficRules.Classifier
/-!
# Counters — what a table counts

Changes and refused writers, and lookups with their hits per family; a lookup without a hit is a miss, and misses never
fall below zero.  Counters are 64-bit words and wrap.  Everything is counted in steps of one kind (`Tally`), and only
families that were looked up are listed, in the order of their codes.
-/
namespace TrafficRules

structure MatchStats where
  lookups : UInt64 := 0
  hits : UInt64 := 0
  deriving DecidableEq, Inhabited, Repr

def MatchStats.misses (s : MatchStats) : UInt64 := if s.hits ≤ s.lookups then s.lookups - s.hits else 0

structure Counters where
  added : UInt64 := 0
  modified : UInt64 := 0
  deleted : UInt64 := 0
  flushes : UInt64 := 0
  rejections : UInt64 := 0
  families : PerFamily MatchStats := .fill {}
  deriving Repr

/-- One step of counting. -/
inductive Tally where
  | added
  | modified
  | deleted (count : UInt64)
  | flush
  | rejected
  | lookup (family : Classifier) (hit : Bool)
  deriving DecidableEq, Repr

namespace Counters

def tally (c : Counters) : Tally → Counters
  | .added => { c with added := c.added + 1 }
  | .modified => { c with modified := c.modified + 1 }
  | .deleted n => { c with deleted := c.deleted + n }
  | .flush => { c with flushes := c.flushes + 1 }
  | .rejected => { c with rejections := c.rejections + 1 }
  | .lookup f hit =>
    { c with families := c.families.modify (fun s => ⟨s.lookups + 1, if hit then s.hits + 1 else s.hits⟩) f }

def stats (c : Counters) (f : Classifier) : MatchStats := c.families.get f

def usedFamilies (c : Counters) : List (Classifier × MatchStats) :=
  (Classifier.all.map fun f => (f, c.stats f)).filter fun p => 0 < p.2.lookups

end Counters
end TrafficRules
