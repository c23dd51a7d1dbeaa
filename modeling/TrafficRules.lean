import TrafficRules.Document.Outcome
import TrafficRules.Main
import TrafficRules.Proofs.Store.Buckets
import TrafficRules.Proofs.Store.Index
import TrafficRules.Proofs.Store.Valid
import TrafficRules.Proofs.Store.Find
import TrafficRules.Proofs.Table.Change
import TrafficRules.Proofs.Table.Reachable
import TrafficRules.Proofs.Table.Flat
import TrafficRules.Proofs.Table.Refine
import TrafficRules.Proofs.Table.Identity
import TrafficRules.Proofs.Table.Tuples
import TrafficRules.Proofs.Table.Named
import TrafficRules.Proofs.Table.Stays
import TrafficRules.Proofs.Flow.Exact
import TrafficRules.Proofs.Lookup.Hashed
import TrafficRules.Proofs.Lookup.Scanned
import TrafficRules.Proofs.Engine.Keeps
import TrafficRules.Proofs.Engine.Callback
import TrafficRules.Proofs.Engine.Balance
import TrafficRules.Proofs.Engine.Transcript
import TrafficRules.Proofs.Table.Answers
import TrafficRules.Proofs.Table.Beside
import TrafficRules.Proofs.Engine.Refusal
import TrafficRules.Proofs.Engine.Observers
import TrafficRules.Proofs.Table.Follow
import TrafficRules.Proofs.Engine.Log
import TrafficRules.Proofs.Lookup.Families
import TrafficRules.Proofs.Lookup.Turns
import TrafficRules.Proofs.Table.RoundTrip
import TrafficRules.Proofs.Engine.Request
import TrafficRules.Proofs.RuleSet.Order
import TrafficRules.Proofs.RuleSet.Accepted
import TrafficRules.Proofs.RuleSet.Install
import TrafficRules.Proofs.RuleSet.Again
import TrafficRules.Proofs.Document.RoundTrip
import TrafficRules.Proofs.Lookup.Gated
import TrafficRules.Proofs.Lookup.Frames
import TrafficRules.Proofs.Lookup.Streams
import TrafficRules.Proofs.Lookup.Admission
import TrafficRules.Proofs.Mesh.Layout
import TrafficRules.Proofs.Mesh.Recorded
import TrafficRules.Proofs.Mesh.RoundTrip
import TrafficRules.Proofs.Table.FiveTuples
import TrafficRules.Proofs.Lookup.Sentinels
import TrafficRules.Proofs.Flow.Loosened
import TrafficRules.Proofs.Table.Undo
import TrafficRules.Proofs.Table.Independent
import TrafficRules.Proofs.Mesh.Conjunction
import TrafficRules.Proofs.Table.Flushed
import TrafficRules.Proofs.Table.Listed
import TrafficRules.Proofs.Lookup.Counted
