import Mathlib.Data.List.Nodup
import TrafficRules.Document.Value
/-!
# ReadsBack — what is written of a value reads back as the value

A value is read in the form it was written in, or in the form it is held in while it is not known what it is a value
of: there records are mappings.  `ReadsBack` is what a pair of a writer and a reader has to promise, for either form.
A record of fields that read back reads back itself once each field is found under its name (`Entries.get?`).
-/
namespace TrafficRules

/-! ## Looking up a name -/

namespace Entries

variable {β : Type} {name : String}

theorem get?_of_not_mem {es : Entries β} (h : name ∉ es.map (·.1)) : es.get? name = some none := by
  have hnone : es.filter (·.1 == name) = [] := List.filter_eq_nil_iff.2 fun e he hn =>
    h (List.mem_map.2 ⟨e, he, beq_iff_eq.1 hn⟩)
  rw [get?, hnone]

@[simp] theorem get?_append_left {es : Entries β} (h : name ∉ es.map (·.1)) (ds : Entries β) :
    (ds ++ es).get? name = ds.get? name := by
  have hnone : es.filter (·.1 == name) = [] := List.filter_eq_nil_iff.2 fun e he hn =>
    h (List.mem_map.2 ⟨e, he, beq_iff_eq.1 hn⟩)
  rw [get?, get?, List.filter_append, hnone, List.append_nil]

@[simp] theorem get?_append_right {ds : Entries β} (h : name ∉ ds.map (·.1)) (es : Entries β) :
    (ds ++ es).get? name = es.get? name := by
  have hnone : ds.filter (·.1 == name) = [] := List.filter_eq_nil_iff.2 fun e he hn =>
    h (List.mem_map.2 ⟨e, he, beq_iff_eq.1 hn⟩)
  rw [get?, get?, List.filter_append, hnone, List.nil_append]

@[simp] theorem get?_cons_of_ne {n : String} (h : n ≠ name) (v : β) (es : Entries β) :
    get? ((n, v) :: es) name = es.get? name :=
  have hn : name ∉ ([(n, v)] : Entries β).map (·.1) := by simpa using Ne.symm h
  get?_append_right hn es

@[simp] theorem get?_cons_self {es : Entries β} (h : name ∉ es.map (·.1)) (v : β) :
    get? ((name, v) :: es) name = some (some v) := by
  have hself : get? [(name, v)] name = some (some v) := by simp [get?]
  exact (get?_append_left h [(name, v)]).trans hself

end Entries

namespace Value

variable {α : Type}

/-- A value as it is written, or as it is held. -/
def form (isHeld : Bool) (v : Value) : Value := if isHeld then v.held else v

theorem heldItems_eq_map : ∀ vs : List Value, heldItems vs = vs.map held
  | [] => rfl
  | v :: vs => by rw [heldItems, heldItems_eq_map vs, List.map_cons]

mutual

theorem held_held : ∀ v : Value, v.held.held = v.held
  | .list vs => by rw [held, held, heldItems_heldItems]
  | .record fs => by rw [held, held, heldEntries_heldFields]
  | .mapping es => by rw [held, held, heldEntries_heldEntries]
  | .null | .bool _ | .int _ | .foreign _ | .text _ => rfl

theorem heldItems_heldItems : ∀ vs : List Value, heldItems (heldItems vs) = heldItems vs
  | [] => rfl
  | v :: vs => by rw [heldItems, heldItems, held_held v, heldItems_heldItems vs]

theorem heldEntries_heldFields : ∀ fs : List (String × Value), heldEntries (heldFields fs) = heldFields fs
  | [] => rfl
  | (name, v) :: fs => by
    rw [heldFields, heldEntries, held_held v, heldEntries_heldFields fs]
    rfl

theorem heldEntries_heldEntries : ∀ es : List (Value × Value), heldEntries (heldEntries es) = heldEntries es
  | [] => rfl
  | (k, v) :: es => by rw [heldEntries, heldEntries, held_held k, held_held v, heldEntries_heldEntries es]

end

theorem held_form (isHeld : Bool) (v : Value) : (v.form isHeld).held = v.form true := by
  cases isHeld with
  | false => rfl
  | true => exact held_held v

/-- What is written reads back, in either form, and is no null. -/
structure ReadsBack (read : Value → Option α) (write : α → Value) : Prop where
  back : ∀ isHeld a, read ((write a).form isHeld) = some a
  null : read .null = none

namespace ReadsBack

variable {read : Value → Option α} {write : α → Value} (hr : ReadsBack read write) (isHeld : Bool)
include hr

theorem orNull?_some (a : α) : orNull? read ((write a).form isHeld) = some (some a) := by
  have hback := hr.back isHeld a
  generalize (write a).form isHeld = v at hback
  cases v with
  | null =>
    rw [hr.null] at hback
    cases hback
  | _ => exact congrArg (Option.map some) hback

/-- A field that is null where there is no value. -/
theorem orNull (x : Option α) : orNull? read ((Value.orNull write x).form isHeld) = some x := by
  cases x with
  | none => cases isHeld <;> rfl
  | some a => exact hr.orNull?_some isHeld a

/-- A field that is left out where there is no value. -/
theorem present (x : Option α) :
    ((x.map write).elim (some none) fun v => orNull? read (v.form isHeld)) = some x := by
  cases x with
  | none => rfl
  | some a => exact hr.orNull?_some isHeld a

/-- A field that is left out where it has the value that counts in its absence. -/
theorem presentOr (x : Option α) (absent : α) :
    ((x.map write).elim (some absent) fun v => read (v.form isHeld)) = some (x.getD absent) := by
  cases x with
  | none => rfl
  | some a => exact hr.back isHeld a

end ReadsBack

/-- Either form of a record of one field is a choice of what it holds. -/
theorem choice?_form (isHeld : Bool) (names : List String) (name : String) (v : Value) :
    ((Value.record [(name, v)]).form isHeld).choice? names =
      some { name, content := some (v.form isHeld), isHeld } := by
  cases isHeld with
  | false => rfl
  | true =>
    have hheld : (Value.record [(name, v)]).form true = .mapping [(.text name, v.form true)] := by
      show (Value.record [(name, v)]).held = _
      rw [held, heldFields, heldFields]
      rfl
    rw [hheld]
    rfl

/-! ## Scalars -/

theorem form_int (isHeld : Bool) (n : Int) : (Value.int n).form isHeld = .int n := by cases isHeld <;> rfl

theorem form_text (isHeld : Bool) (s : String) : (Value.text s).form isHeld = .text s := by cases isHeld <;> rfl

theorem form_list (isHeld : Bool) (vs : List Value) : (Value.list vs).form isHeld = .list (vs.map (·.form isHeld)) := by
  cases isHeld with
  | false => exact congrArg Value.list (List.map_id' vs).symm
  | true =>
    show (Value.list vs).held = _
    rw [held, heldItems_eq_map]
    rfl

theorem natBelow?_ofNat {bound n : Nat} (h : n < bound) : (Value.ofNat n).natBelow? bound = some n :=
  if_pos ⟨Int.natCast_nonneg n, h⟩

theorem readsBack_u8 : ReadsBack u8? u8 where
  back isHeld n := by
    rw [u8, ofNat, form_int]
    exact (congrArg (Option.map UInt8.ofNat) (natBelow?_ofNat n.toNat_lt)).trans (congrArg some UInt8.ofNat_toNat)
  null := rfl

theorem readsBack_u16 : ReadsBack u16? u16 where
  back isHeld n := by
    rw [u16, ofNat, form_int]
    exact (congrArg (Option.map UInt16.ofNat) (natBelow?_ofNat n.toNat_lt)).trans (congrArg some UInt16.ofNat_toNat)
  null := rfl

theorem readsBack_u32 : ReadsBack u32? u32 where
  back isHeld n := by
    rw [u32, ofNat, form_int]
    exact (congrArg (Option.map UInt32.ofNat) (natBelow?_ofNat n.toNat_lt)).trans (congrArg some UInt32.ofNat_toNat)
  null := rfl

theorem list?_map {read : Value → Option α} {write : α → Value} (h : ∀ a, read (write a) = some a) (as : List α) :
    list? read (.list (as.map write)) = some as := by
  show (as.map write).mapM read = some as
  induction as with
  | nil => rfl
  | cons a as ih =>
    rw [List.map_cons, List.mapM_cons, h, ih]
    rfl

theorem readsBack_list {read : Value → Option α} {write : α → Value} (hr : ReadsBack read write) :
    ReadsBack (list? read) fun as => .list (as.map write) where
  back isHeld as := by
    rw [form_list, List.map_map]
    exact list?_map (hr.back isHeld) as
  null := rfl

theorem readsBack_text : ReadsBack text? .text where
  back isHeld s := by
    rw [form_text]
    rfl
  null := rfl

theorem readsBack_bool : ReadsBack bool? .bool where
  back isHeld b := by cases isHeld <;> rfl
  null := rfl

theorem readsBack_parsed {parse : String → Option α} {render : α → String} (h : ∀ a, parse (render a) = some a) :
    ReadsBack (parsed? parse) fun a => .text (render a) where
  back isHeld a := by
    rw [form_text]
    exact h a
  null := rfl

theorem readsBack_named {names : List String} {ofName? : String → Option α} {name : α → String}
    (h : ∀ a, ofName? (name a) = some a) : ReadsBack (named? names ofName?) fun a => .text (name a) where
  back isHeld a := by
    rw [form_text]
    exact h a
  null := rfl

end Value

namespace Fields

/-- The fields of a record in either form. -/
def form (isHeld : Bool) (fs : Fields) : Fields := fs.map fun f => (f.1, f.2.form isHeld)

theorem form_false (fs : Fields) : fs.form false = fs := List.map_id' fs

theorem form_held (isHeld : Bool) (fs : Fields) : (fs.form isHeld).map (fun f => (f.1, f.2.held)) = fs.form true := by
  rw [form, List.map_map]
  exact List.map_congr_left fun f _ => congrArg (Prod.mk f.1) (Value.held_form isHeld f.2)

theorem fieldsOf?_heldFields (names : List String) : ∀ fs : Fields,
    Value.fieldsOf? names (Value.heldFields fs) = some (fs.form true)
  | [] => rfl
  | (name, v) :: fs => by
    rw [Value.heldFields, Value.fieldsOf?, fieldsOf?_heldFields names fs]
    rfl

/-- **Either form of a record has its fields**, in the same form. -/
@[simp] theorem fields?_form (isHeld : Bool) (names : List String) (needed : Nat) (fs : Fields) :
    ((Value.record fs).form isHeld).fields? names needed = some (fs.form isHeld) := by
  cases isHeld with
  | false =>
    rw [form_false]
    rfl
  | true =>
    have hheld : (Value.record fs).form true = .mapping (Value.heldFields fs) := by
      show (Value.record fs).held = _
      rw [Value.held]
    rw [hheld]
    exact fieldsOf?_heldFields names fs

theorem get?_form (isHeld : Bool) (fs : Fields) (name : String) :
    (fs.form isHeld).get? name = (fs.get? name).map (·.map (·.form isHeld)) := by
  have hfilter : (fs.form isHeld).filter (·.1 == name) = form isHeld (fs.filter (·.1 == name)) := by
    rw [form, List.filter_map]
    rfl
  rw [Entries.get?, Entries.get?, hfilter]
  generalize List.filter (fun f : String × Value => f.1 == name) fs = found
  rcases found with _ | ⟨f, _ | ⟨g, rest⟩⟩ <;> rfl

section Read

variable {α : Type} (isHeld : Bool) (fs : Fields) (name : String) (read : Value → Option α)

@[simp] theorem required_form : (fs.form isHeld).required name read =
    (fs.get? name).bind fun o => o.bind fun v => read (v.form isHeld) := by
  rw [Entries.required, get?_form]
  rcases fs.get? name with _ | _ | v <;> rfl

@[simp] theorem withDefault_form (absent : α) : (fs.form isHeld).withDefault name absent read =
    (fs.get? name).bind fun o => o.elim (some absent) fun v => read (v.form isHeld) := by
  rw [Entries.withDefault, get?_form]
  rcases fs.get? name with _ | _ | v <;> rfl

@[simp] theorem optional_form : (fs.form isHeld).optional name read =
    (fs.get? name).bind fun o => o.elim (some none) fun v => Value.orNull? read (v.form isHeld) :=
  withDefault_form isHeld fs name (Value.orNull? read) none

end Read

end Fields

namespace Value

@[simp] theorem get?_presentField {α : Type} (name : String) (write : α → Value) (x : Option α) :
    Entries.get? (presentField name write x) name = some (x.map write) := by
  cases x with
  | none => rfl
  | some a => simp [presentField, Entries.get?]

theorem names_presentField {α : Type} (name : String) (write : α → Value) (x : Option α) :
    ((presentField name write x).map (·.1)).Sublist [name] := by
  cases x with
  | none => exact List.nil_sublist _
  | some a => exact List.Sublist.refl _

@[simp] theorem mem_names_presentField {α : Type} {n name : String} {write : α → Value} {x : Option α} :
    n ∈ (presentField name write x).map (·.1) ↔ n = name ∧ x.isSome := by
  cases x <;> simp [presentField]

end Value
end TrafficRules
