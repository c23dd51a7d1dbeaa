import TrafficRules.Proofs.Engine.Callback
/-!
# Transcript — what callers and observers get of a run

A transcript is the reply to each command with the engine it leaves.  Two engines that are related, and stay so by every
change with the same answer, give the same replies to the commands made of changes (`performWith_related`).  Notes are
written and never read: behind other notes a run is the same run (`transcript_prefaced`).
-/
namespace TrafficRules

namespace Reply

/-- The error of the table that a reply reports. -/
def error? : Reply → Option UpdateError
  | .update (.error err) | .request _ (.error err) | .rule (.error err) | .listing (.error err) => some err
  | .flushed (.error err) | .applied (.error (.notInstalled _ err)) => some err
  | _ => none

variable {err : UpdateError}

theorem error_update {result : UpdateResult} : (update result).error? = some err ↔ result = .error err := by
  cases result <;> simp [error?]

theorem error_request {id : UInt32} {result : UpdateResult} : (request id result).error? = some err ↔ result = .error err := by
  cases result <;> simp [error?]

theorem error_rule {result : Except UpdateError Rule} : (rule result).error? = some err ↔ result = .error err := by
  cases result <;> simp [error?]

theorem error_listing {result : Except UpdateError (List Rule)} :
    (listing result).error? = some err ↔ result = .error err := by
  cases result <;> simp [error?]

theorem error_flushed {result : Except UpdateError Nat} : (flushed result).error? = some err ↔ result = .error err := by
  cases result <;> simp [error?]

theorem error_applied {result : Except RuleSetError ApplySummary} :
    (applied result).error? = some err ↔ ∃ id, result = .error (.notInstalled id err) := by
  cases result with
  | error e => cases e <;> simp [error?]
  | ok _ => simp [error?]

end Reply

/-- Adding rule after rule to related states. -/
theorem RuleSet.applyTo_related {σ τ : Type} {R : σ → τ → Prop} {add : σ → Rule → σ × UpdateResult}
    {add' : τ → Rule → τ × UpdateResult}
    (hadd : ∀ s s' r, R s s' → R (add s r).1 (add' s' r).1 ∧ (add s r).2 = (add' s' r).2) :
    ∀ (es : List RuleEntry) (sum : ApplySummary) (s : σ) (s' : τ), R s s' →
      R (applyTo add es sum s).1 (applyTo add' es sum s').1 ∧ (applyTo add es sum s).2 = (applyTo add' es sum s').2
  | [], _, _, _, h => ⟨h, rfl⟩
  | e :: es, sum, s, s', h => by
    obtain ⟨hs, hres⟩ := hadd s s' e.rule h
    rw [applyTo, applyTo]
    split
    · rcases hr : add s e.rule with ⟨s₁, res⟩
      rcases hr' : add' s' e.rule with ⟨s₁', res'⟩
      rw [hr, hr'] at hs hres
      obtain rfl : res = res' := hres
      rcases res with err | _ | _ | _ | _
      · exact ⟨hs, rfl⟩
      all_goals exact applyTo_related hadd es _ s₁ s₁' hs
    · exact applyTo_related hadd es _ s s' h

namespace Engine

/-- The reply to each command, and the engine it leaves. -/
def transcript (tell : Event → Engine → Engine) : List Command → Engine → List (Engine × Reply)
  | [], _ => []
  | c :: cs, e => performWith tell c e :: transcript tell cs (performWith tell c e).1

variable {tell tell' : Event → Engine → Engine} {e e' : Engine}

theorem performWith_related {R : Engine → Engine → Prop}
    (hw : ∀ {β : Type} {change : Table → Transition β}, Table.IsChange change → ∀ {e e'}, R e e' →
      R (e.write tell change).1 (e'.write tell' change).1 ∧ (e.write tell change).2 = (e'.write tell' change).2)
    (hq : ∀ {e e'}, R e e' → e.table.query = e'.table.query) {c : Command} (hc : c.isChange = true) (h : R e e') :
    R (performWith tell c e).1 (performWith tell' c e').1 ∧ (performWith tell c e).2 = (performWith tell' c e').2 := by
  cases c with
  | add r =>
    obtain ⟨hr, hreply⟩ := hw (.add r) h
    exact ⟨hr, congrArg Reply.update hreply⟩
  | delete sel c =>
    obtain ⟨hr, hreply⟩ := hw (.delete sel c) h
    exact ⟨hr, congrArg Reply.update hreply⟩
  | flush c =>
    obtain ⟨hr, hreply⟩ := hw (.flush c) h
    exact ⟨hr, congrArg Reply.flushed hreply⟩
  | update q =>
    have hu : R (e.update tell q).1 (e'.update tell' q).1 ∧ (e.update tell q).2 = (e'.update tell' q).2 := by
      unfold update
      split
      · exact ⟨h, rfl⟩
      · exact hw (.add q.rule) h
      · exact hw (.delete q.rule.selector q.rule.classifier) h
      · exact ⟨h, by rw [hq h]⟩
    exact ⟨hu.1, congrArg (Reply.request q.rule.id) hu.2⟩
  | apply s =>
    obtain ⟨hr, hreply⟩ := RuleSet.applyTo_related (fun _ _ r he => hw (.add r) he) s.rules {} e e' h
    exact ⟨hr, congrArg Reply.applied hreply⟩
  | _ => cases hc

/-! ## Behind other notes -/

/-- The engine with other notes before its own. -/
def prefaced (ns : List Note) (e : Engine) : Engine := { e with notes := ns ++ e.notes }

/-- Notes made before have no part in the telling. -/
def IgnoresNotes (ns : List Note) (tell : Event → Engine → Engine) : Prop :=
  ∀ event e, tell event (e.prefaced ns) = (tell event e).prefaced ns

variable {ns : List Note}

theorem table_prefaced : (e.prefaced ns).table = e.table := rfl

theorem names_prefaced : (e.prefaced ns).names = e.names := rfl

theorem note_prefaced (xs : List Note) : (e.prefaced ns).note xs = (e.note xs).prefaced ns := by
  show { e with notes := ns ++ e.notes ++ xs } = { e with notes := ns ++ (e.notes ++ xs) }
  rw [List.append_assoc]

theorem write_prefaced (ht : IgnoresNotes ns tell) {α : Type} (change : Table → Transition α) :
    (e.prefaced ns).write tell change = ((e.write tell change).1.prefaced ns, (e.write tell change).2) := by
  cases hb : e.busy with
  | true => rw [write_busy (e := e.prefaced ns) hb, write_busy hb]; rfl
  | false =>
    have hp : (e.prefaced ns).published change = (e.published change).prefaced ns :=
      note_prefaced (e := { e with table := (change e.table).table, busy := true }) _
    have ha : announced tell change (e.prefaced ns) = (announced tell change e).prefaced ns := by
      unfold announced
      rw [hp, table_prefaced]
      cases (change e.table).event with
      | none => rfl
      | some event => exact ht event _
    rw [write_idle (e := e.prefaced ns) hb, write_idle hb, ha]
    rfl

theorem unobserve_prefaced (name : String) :
    (e.prefaced ns).unobserve name = ((e.unobserve name).1.prefaced ns, (e.unobserve name).2) := by
  unfold unobserve
  rw [names_prefaced]
  cases e.names.lookup name <;> rfl

/-- **A command on an engine with notes before.** -/
theorem performWith_prefaced (ht : IgnoresNotes ns tell) (c : Command) (e : Engine) :
    performWith tell c (e.prefaced ns) = ((performWith tell c e).1.prefaced ns, (performWith tell c e).2) := by
  cases hc : c.isChange with
  | true =>
    have hrelated : (performWith tell c (e.prefaced ns)).1 = (performWith tell c e).1.prefaced ns ∧
        (performWith tell c e).2 = (performWith tell c (e.prefaced ns)).2 :=
      performWith_related (R := fun e e' => e' = e.prefaced ns)
        (fun {_ change} _ {e e'} he => by rw [he, write_prefaced ht change]; exact ⟨rfl, rfl⟩) (fun he => by rw [he]; rfl) hc rfl
    exact Prod.ext hrelated.1 hrelated.2.symm
  | false =>
    cases c with
    | add _ | update _ | delete _ _ | flush _ | apply _ => cases hc
    | classify i =>
      show (({ e with table := e.table.counting i }.prefaced ns).note _, Reply.decided (e.table.decide i)) = _
      rw [note_prefaced]
      rfl
    | unobserve name =>
      show ((e.prefaced ns).unobserve name).map id Reply.optionalFlag = _
      rw [unobserve_prefaced]
      rfl
    | registerPlugin c v =>
      unfold performWith
      dsimp only
      rw [table_prefaced]
      cases e.table.plugins.register c v <;> rfl
    | pluginValidate q =>
      show ((e.prefaced ns).note _, Reply.verdict (e.table.plugins.validate q)) = _
      rw [note_prefaced]
      rfl
    | pluginQuery q =>
      show ((e.prefaced ns).note _, Reply.optionalFlag (e.table.plugins.ask? q)) = _
      rw [note_prefaced]
      rfl
    | _ => rfl

theorem ignoresNotes_silent (ns : List Note) : IgnoresNotes ns silent := fun _ _ => rfl

theorem react_prefaced (event : Event) (o : Observer) (e : Engine) : react event o (e.prefaced ns) = (react event o e).prefaced ns := by
  unfold react
  rw [note_prefaced]
  generalize e.note [.told o.name event] = e₀
  induction o.reactions generalizing e₀ with
  | nil => rfl
  | cons c cs ih =>
    rw [List.foldl_cons, List.foldl_cons]
    have hc := performWith_prefaced (ignoresNotes_silent ns) c e₀
    unfold silent at hc
    rw [hc]
    dsimp only
    rw [note_prefaced]
    exact ih _

theorem ignoresNotes_tell (ns : List Note) : IgnoresNotes ns Engine.tell := by
  intro event e
  show e.notifier.observers.foldl _ (e.prefaced ns) = (e.notifier.observers.foldl _ e).prefaced ns
  generalize e.notifier.observers = os
  induction os generalizing e with
  | nil => rfl
  | cons q os ih =>
    rw [List.foldl_cons, List.foldl_cons, react_prefaced]
    exact ih _

/-- **A run behind other notes is the same run.** -/
theorem transcript_prefaced (ht : IgnoresNotes ns tell) : ∀ (cs : List Command) (e : Engine),
    transcript tell cs (e.prefaced ns) = (transcript tell cs e).map fun s => (s.1.prefaced ns, s.2)
  | [], _ => rfl
  | c :: cs, e => by
    rw [transcript, transcript, performWith_prefaced ht c e, transcript_prefaced ht cs]
    rfl

/-- What a step shows: the reply, the table, and what the observers were told so far. -/
def shown (s : Engine × Reply) : Reply × Table × List (String × Event) := (s.2, s.1.table, s.1.deliveries)

/-- Notes that tell nobody anything change nothing of what a run shows. -/
theorem shown_note (ht : ∀ ns, IgnoresNotes ns tell) {xs : List Note} (hxs : (e.note xs).deliveries = e.deliveries)
    (cs : List Command) : (transcript tell cs (e.note xs)).map shown = (transcript tell cs e).map shown := by
  -- both are runs of the engine without notes, behind notes with the same deliveries
  have hprefaced : ∀ ns, (transcript tell cs ({ e with notes := [] }.prefaced ns)).map shown =
      (transcript tell cs { e with notes := [] }).map fun s => (s.2, s.1.table, ns.filterMap Note.delivery? ++ s.1.deliveries) := by
    intro ns
    rw [transcript_prefaced (ht ns), List.map_map]
    refine List.map_congr_left fun s _ => ?_
    show (s.2, s.1.table, (ns ++ s.1.notes).filterMap Note.delivery?) = _
    rw [List.filterMap_append]
    rfl
  have h₁ := hprefaced e.notes
  have h₂ := hprefaced (e.notes ++ xs)
  have hxs : (e.notes ++ xs).filterMap Note.delivery? = e.notes.filterMap Note.delivery? := hxs
  rw [hxs, ← h₁] at h₂
  unfold prefaced at h₂
  rwa [List.append_nil, List.append_nil] at h₂

end Engine
end TrafficRules
