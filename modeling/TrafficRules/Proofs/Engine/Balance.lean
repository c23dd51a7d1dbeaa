import Mathlib.Data.UInt
import TrafficRules.Proofs.Engine.Keeps
/-!
# Balance — rules added are the rules live and the rules deleted

A table counts what it adds and what it deletes, apart from the count of its nodes.  `Accounts` relates the two over one
change: as many nodes more as the answer tells came, as many less as it tells went, and the counters with them.  So the
balance and the limit hold at every point of a run, also while observers are told (`live_count_accounted`).
-/
namespace TrafficRules

/-- How many rules came, as the answer to a change of one rule tells it. -/
def UpdateResult.came : UpdateResult → Nat
  | .ok (.added _) => 1
  | _ => 0

/-- How many rules went. -/
def UpdateResult.went : UpdateResult → Nat
  | .ok .deleted => 1
  | _ => 0

def Reply.came : Reply → Nat
  | .update result | .request _ result => UpdateResult.came result
  | _ => 0

def Reply.went : Reply → Nat
  | .update result | .request _ result => UpdateResult.went result
  | .flushed (.ok n) => n
  | _ => 0

namespace Table

/-- The limit is kept, and the rules added are those live and those deleted, as far as 64 bits count. -/
structure Balanced (t : Table) : Prop where
  limit : t.size ≤ t.config.maxRules.toNat
  counts : t.counters.added = UInt64.ofNat t.size + t.counters.deleted

/-- Nodes and counters move together, and no rule comes to a full table. -/
structure Accounts (t u : Table) (came went : Nat) : Prop where
  config : u.config = t.config
  size : u.size + went = t.size + came
  added : u.counters.added = t.counters.added + UInt64.ofNat came
  deleted : u.counters.deleted = t.counters.deleted + UInt64.ofNat went
  room : t.size + came ≤ max t.size t.config.maxRules.toNat

theorem Accounts.refl (t : Table) : Accounts t t 0 0 := by
  refine ⟨rfl, rfl, ?_, ?_, Nat.le_max_left _ _⟩
  · exact (UInt64.add_zero _).symm
  · exact (UInt64.add_zero _).symm

theorem Accounts.balanced {t u : Table} {came went : Nat} (h : Accounts t u came went) (hb : Balanced t) : Balanced u := by
  have hsum : UInt64.ofNat u.size + UInt64.ofNat went = UInt64.ofNat t.size + UInt64.ofNat came := by
    rw [← UInt64.ofNat_add, ← UInt64.ofNat_add, h.size]
  constructor
  · have hroom := h.room
    have hsize := h.size
    have hlimit := hb.limit
    rw [h.config]
    omega
  · calc u.counters.added = t.counters.added + UInt64.ofNat came := h.added
      _ = (UInt64.ofNat t.size + UInt64.ofNat came) + t.counters.deleted := by rw [hb.counts]; ac_rfl
      _ = UInt64.ofNat u.size + (t.counters.deleted + UInt64.ofNat went) := by rw [← hsum]; ac_rfl
      _ = UInt64.ofNat u.size + u.counters.deleted := by rw [h.deleted]

/-! ## One change -/

theorem room_of_accepted {t : Table} {r : Rule} {o : Outcome} (ho : (t.add r).result = .ok o) :
    t.size < t.config.maxRules.toNat := by
  unfold add at ho
  split at ho
  · cases ho
  · rename_i h
    exact Nat.lt_of_not_le h

theorem install_accounts {t : Table} (hroom : t.size < t.config.maxRules.toNat) (r : Rule) :
    Accounts t (t.install r).table (UpdateResult.came (t.install r).result) (UpdateResult.went (t.install r).result) := by
  unfold install
  dsimp only
  cases t.store.findSame (Node.ofRule t.nextSerial r) with
  | none => exact ⟨rfl, rfl, rfl, (UInt64.add_zero _).symm, Nat.le_trans hroom (Nat.le_max_right _ _)⟩
  | some old =>
    refine ⟨rfl, ?_, (UInt64.add_zero _).symm, (UInt64.add_zero _).symm, Nat.le_max_left _ _⟩
    exact Store.Valid.count_replace t.store old _

theorem add_accounts (t : Table) (r : Rule) :
    Accounts t (t.add r).table (UpdateResult.came (t.add r).result) (UpdateResult.went (t.add r).result) := by
  have hroom : ∀ o, (t.add r).result = .ok o → t.size < t.config.maxRules.toNat := fun o => room_of_accepted
  rw [add_eq] at hroom ⊢
  rcases hadm : admission t.config t.plugins t.size r with ⟨_ | e, calls⟩
  · obtain ⟨-, -, -, -, o, ho⟩ := install_eq t r
    rw [hadm] at hroom
    exact install_accounts (hroom o ho) r
  · exact Accounts.refl t

theorem delete_accounts {t : Table} (h : t.Valid) (sel : Selector) (c : Classifier) :
    Accounts t (t.delete sel c).table (UpdateResult.came (t.delete sel c).result) (UpdateResult.went (t.delete sel c).result) := by
  rw [delete_eq]
  split
  · exact Accounts.refl t
  · cases hf : t.store.find sel c with
    | none => exact Accounts.refl t
    | some n =>
      obtain ⟨s, hs, -, -, hcount, -⟩ := h.store.remove? (h.store.of_find hf).1
      dsimp only
      rw [hs]
      exact ⟨rfl, hcount, (UInt64.add_zero _).symm, rfl, Nat.le_max_left _ _⟩

theorem flush_accounts {t : Table} (h : t.Valid) (c : Option Classifier) :
    ∃ n, (t.flush c).result = .ok n ∧ Accounts t (t.flush c).table 0 n := by
  unfold flush
  split
  · exact ⟨0, rfl, Accounts.refl t⟩
  · obtain ⟨-, -, hcount, -⟩ := h.store.removeFamily c
    refine ⟨_, rfl, rfl, ?_, (UInt64.add_zero _).symm, rfl, Nat.le_max_left _ _⟩
    exact (Nat.add_comm _ _).trans hcount

theorem kept_balanced : Kept fun t => Reachable t ∧ Balanced t where
  add r := fun ⟨h, hb⟩ => ⟨h.add r, (add_accounts _ r).balanced hb⟩
  delete sel c := fun ⟨h, hb⟩ => ⟨h.delete sel c, (delete_accounts h.valid sel c).balanced hb⟩
  flush c := fun ⟨h, hb⟩ => by
    obtain ⟨n, -, ha⟩ := flush_accounts h.valid c
    exact ⟨h.flush c, ha.balanced hb⟩
  refuse := fun ⟨h, hb⟩ => ⟨h.count .rejected, hb.limit, hb.counts⟩
  look {t} i := fun ⟨h, hb⟩ => by
    refine ⟨h.counting i, ?_⟩
    rcases t.counting_cases i with he | ⟨c, hit, he⟩ <;> rw [he]
    · exact hb
    · exact ⟨hb.limit, hb.counts⟩
  plug plugins := fun ⟨h, hb⟩ => ⟨h.plug plugins, hb.limit, hb.counts⟩

theorem balanced_fresh (config : TableConfig) (plugins : Plugins) : Balanced { config, plugins } :=
  ⟨Nat.zero_le _, rfl⟩

end Table

namespace Engine

variable {tell : Event → Engine → Engine} {e : Engine}

theorem size_write (ht : Leads (fun _ => true) tell) (hi : e.busy = false) {α : Type} (change : Table → Transition α) :
    (e.write tell change).1.table.size = (change e.table).table.size := congrArg Store.count (store_write ht hi change)

theorem size_write_rule (ht : Leads (fun _ => true) tell) (hi : e.busy = false) (change : Table → Transition Outcome)
    (ha : Table.Accounts e.table (change e.table).table (UpdateResult.came (change e.table).result)
      (UpdateResult.went (change e.table).result)) :
    (e.write tell change).1.table.size + UpdateResult.went (e.write tell change).2 =
      e.table.size + UpdateResult.came (e.write tell change).2 := by
  rw [size_write ht hi, reply_write hi]
  exact ha.size

/-- **The reply to a command tells how the number of rules changes.** -/
theorem size_performWith (ht : Leads (fun _ => true) tell) (hi : e.busy = false) (h : e.table.Valid) {c : Command}
    (hc : ∀ s, c ≠ .apply s) :
    (performWith tell c e).1.table.size + (performWith tell c e).2.went = e.table.size + (performWith tell c e).2.came := by
  cases c with
  | add r => exact size_write_rule ht hi (·.add r) (Table.add_accounts e.table r)
  | delete sel c => exact size_write_rule ht hi (·.delete sel c) (Table.delete_accounts h sel c)
  | update q =>
    show (e.update tell q).1.table.size + UpdateResult.went (e.update tell q).2 =
      e.table.size + UpdateResult.came (e.update tell q).2
    unfold update
    split
    · rfl
    · exact size_write_rule ht hi (·.add q.rule) (Table.add_accounts e.table q.rule)
    · exact size_write_rule ht hi (·.delete q.rule.selector q.rule.classifier)
        (Table.delete_accounts h q.rule.selector q.rule.classifier)
    · cases e.table.query q.rule.selector q.rule.classifier <;> rfl
  | flush c =>
    obtain ⟨n, hn, ha⟩ := Table.flush_accounts h c
    show (e.write tell (·.flush c)).1.table.size + (Reply.flushed (e.write tell (·.flush c)).2).went =
      e.table.size + 0
    rw [size_write ht hi, reply_write hi, hn]
    exact ha.size
  | apply s => exact absurd rfl (hc s)
  | classify i =>
    show (e.table.counting i).size = e.table.size
    unfold Table.counting
    split <;> rfl
  | unobserve name =>
    show (e.unobserve name).1.table.size = e.table.size
    unfold unobserve
    split <;> rfl
  | registerPlugin c v =>
    unfold performWith
    dsimp only
    split <;> rfl
  | _ => rfl

/-- **The live count is accounted for at every point of a run** on a fresh table, under any limit and any observers: the
limit is kept and what was added is what is live and what was deleted; a reply tells how many rules came and went; and
the balance holds in whatever an observer, told of a change, finds and brings about. -/
theorem live_count_accounted (config : TableConfig) (plugins : Plugins) (notifier : Notifier Observer)
    {tell : Event → Engine → Engine} (ht : Leads (fun _ => true) tell) (cs : List Command) :
    let e := performAllWith tell cs { table := { config, plugins }, notifier }
    e.table.Balanced ∧
    (∀ c, (∀ s, c ≠ .apply s) → (performWith tell c e).1.table.size + (performWith tell c e).2.went =
      e.table.size + (performWith tell c e).2.came) ∧
    ∀ {α : Type} (change : Table → Transition α), Table.IsChange change →
      ∀ e₁, Within (fun _ => true) (e.published change) e₁ → e₁.table.Balanced := by
  intro e
  have hkept := performAllWith_keeps Table.kept_balanced (ht.keeps Table.kept_balanced) cs
    (e := { table := { config, plugins }, notifier }) ⟨.fresh config plugins, Table.balanced_fresh config plugins⟩
  have hi : e.busy = false := performAllWith_idle cs rfl
  refine ⟨hkept.2, fun c hc => size_performWith ht hi hkept.1.valid hc, fun change hch e₁ h₁ => ?_⟩
  exact (h₁.keeps Table.kept_balanced (Table.kept_balanced.change hch hkept)).2

/-- Rules added, modified, refused for want of room, deleted and flushed. -/
def busyDay : List Command :=
  [.observe "first" meddling, .add { id := 1, classifier := .scs }, .add { classifier := .ifli },
    .add { id := 3, classifier := .scs }, .delete (.id 1) .scs, .delete (.id 1) .scs, .add { classifier := .ifli, precedence := 3 },
    .add { id := 4, classifier := .sawf }, .flush (some .ifli)]

theorem live_count_accounted_busyDay : Leads (fun _ => true) Engine.tell ∧
    (performAllWith Engine.tell busyDay { table := { config := { maxRules := 2 } } }).table.Balanced ∧
    (performAllWith Engine.tell busyDay { table := { config := { maxRules := 2 } } }).table.size = 1 ∧
    (performAllWith Engine.tell busyDay { table := { config := { maxRules := 2 } } }).table.counters.added = 3 := by
  have ht := leads_tell fun _ => true
  obtain ⟨hb, -⟩ := live_count_accounted { maxRules := 2 } {} {} ht busyDay
  exact ⟨ht, hb, by decide +kernel, by decide +kernel⟩

end Engine
end TrafficRules
