/-
# Values that are the same as themselves

A value that holds no undefined number, and no mapping in which a key stands twice, is the same as
itself. What is read from such a value is again of this kind, so the definition that it describes
is the same as itself, too.

## Main definitions

* `Constraints.values` — all values that constraints are made of
* `Value.IsProper` — a value holds no undefined number and no key twice

## Main results

* `Value.IsProper.same_self` — a proper value is the same as itself
* `Definition.isProper_of_ofValue` — a proper value describes a proper definition
* `Definition.same_self_of_ofValue` — it is the same as itself
-/

import Mathlib.Data.Option.Basic
import RouteTemplate.Parameter.Resolution
import RouteTemplate.Proofs.Except
import RouteTemplate.Proofs.Fields
import RouteTemplate.Value.Equality

namespace RouteTemplate

open RouteTemplate.Number (Binary64)

/-- All values that constraints are made of, those of the enumeration included. -/
def Constraints.values {α : Type} (c : Constraints α) : List α :=
  c.pattern.toList ++ c.minLength.toList ++ c.maxLength.toList ++ c.minimum.toList ++
    c.maximum.toList ++ c.enum.getD []

namespace Value

/-- The value holds no undefined number, and no mapping in which a key stands twice. -/
inductive IsProper : Value → Prop
  | null : IsProper .null
  | bool (b : Bool) : IsProper (.bool b)
  | int (n : Int) : IsProper (.int n)
  | float {x : Binary64} : x.isNan = false → IsProper (.float x)
  | text (s : String) : IsProper (.text s)
  | date (d : Calendar.DateTime) : IsProper (.date d)
  | list {items : List Value} : (∀ v ∈ items, IsProper v) → IsProper (.list items)
  | mapping {entries : List (String × Value)} : (Fields.names entries).Nodup →
      (∀ entry ∈ entries, IsProper entry.2) → IsProper (.mapping entries)
  | accessor (label : Nat) {content : Value} : IsProper content → IsProper (.accessor label content)
  | object (label : Nat) {entries : List (String × Value)} :
      (∀ entry ∈ entries, IsProper entry.2) → IsProper (.object label entries)
  | parameterType (t : ParameterType) : IsProper (.parameterType t)
  | constraints {c : Constraints Value} : (∀ v ∈ c.values, IsProper v) → IsProper (.constraints c)
  | definition {d : Definition Value} : (∀ v ∈ d.constraints.values, IsProper v) →
      IsProper (.definition d)

/-! ## Equality with itself -/

/-- A number that is not undefined is the same as itself. -/
theorem Numeric.same_self {a : Numeric} (h : ∀ x, a = .binary x → x.isNan = false) :
    a.same a = true := by
  cases a with
  | whole n => simp [Numeric.same, Numeric.compare?]
  | binary x =>
    cases x with
    | finite negative significand exponent =>
      simp [Numeric.same, Numeric.compare?, Binary64.compare?]
    | infinite negative => simp [Numeric.same, Numeric.compare?, Binary64.compare?]
    | nan origin => exact absurd (h _ rfl) (by simp [Binary64.isNan])

theorem denotesSame_self (d : Calendar.DateTime) : d.denotesSame d = true := by
  rw [Calendar.DateTime.denotesSame]
  cases d.instant? <;> simp

theorem sameItems_self {items : List Value} (h : ∀ v ∈ items, v.same v = true) :
    sameItems items items = true := by
  induction items with
  | nil => simp [sameItems]
  | cons v items ih =>
    obtain ⟨hv, hitems⟩ := List.forall_mem_cons.mp h
    rw [sameItems, hv, ih hitems]
    rfl

/-- Without repeated keys, what stands under the key of an entry is the value of the entry. -/
theorem sameEntries_self {entries : List (String × Value)} (hnodup : (Fields.names entries).Nodup)
    (h : ∀ entry ∈ entries, entry.2.same entry.2 = true) : sameEntries entries entries = true := by
  have hpart (part : List (String × Value)) (hpart : part ⊆ entries) :
      sameEntries part entries = true := by
    induction part with
    | nil => simp [sameEntries]
    | cons entry part ih =>
      obtain ⟨key, v⟩ := entry
      obtain ⟨hentry, hpart⟩ := List.cons_subset.mp hpart
      have hlookup : entries.lookup key = some v := (Fields.get?_eq_some_iff_mem hnodup).mpr hentry
      rw [sameEntries, hlookup, ih hpart]
      simpa using h _ hentry
  exact hpart entries fun _ => id

theorem sameOption_self {o : Option Value} (h : ∀ v ∈ o, v.same v = true) :
    sameOption o o = true := by
  cases o with
  | none => simp [sameOption]
  | some v => simpa [sameOption] using h v rfl

theorem sameConstraints_self {c : Constraints Value} (h : ∀ v ∈ c.values, v.same v = true) :
    sameConstraints c c = true := by
  simp only [Constraints.values, List.forall_mem_append, Option.mem_toList] at h
  obtain ⟨⟨⟨⟨⟨hpattern, hminLength⟩, hmaxLength⟩, hminimum⟩, hmaximum⟩, henum⟩ := h
  have henum : sameEnum c.enum c.enum = true := by
    cases hmembers : c.enum with
    | none => simp [sameEnum]
    | some members =>
      rw [hmembers] at henum
      simpa [sameEnum] using sameItems_self henum
  rw [sameConstraints, sameOption_self hpattern, sameOption_self hminLength,
    sameOption_self hmaxLength, sameOption_self hminimum, sameOption_self hmaximum, henum]
  rfl

/-- A proper value is the same as itself. -/
theorem IsProper.same_self {v : Value} (h : v.IsProper) : v.same v = true := by
  induction h with
  | null => simp [same, isNull]
  | bool b => simpa [same, numeric?] using Numeric.same_self (by simp)
  | int n => simpa [same, numeric?] using Numeric.same_self (by simp)
  | float hx =>
    have hself : Numeric.same (.binary _) (.binary _) = true := Numeric.same_self (by
      rintro _ ⟨⟩
      exact hx)
    simpa [same, numeric?] using hself
  | text s => simp [same, text?]
  | date d => simpa [same] using denotesSame_self d
  | list _ ih => simpa [same] using sameItems_self ih
  | mapping hnodup _ ih => simpa [same] using sameEntries_self hnodup ih
  | accessor label => simp [same]
  | object label => simp [same]
  | parameterType t => simp [same, text?]
  | constraints _ ih => simpa [same] using sameConstraints_self ih
  | @definition d _ ih =>
    obtain ⟨name, type, required, constraints⟩ := d
    simpa [same] using sameConstraints_self ih

/-! ## What is read from a value -/

variable {v w : Value}

theorem IsProper.unwrapped (h : v.IsProper) : v.unwrapped.IsProper := by
  cases h with
  | accessor label hcontent => exact hcontent
  | null => exact .null
  | bool b => exact .bool b
  | int n => exact .int n
  | float hx => exact .float hx
  | text s => exact .text s
  | date d => exact .date d
  | list hitems => exact .list hitems
  | mapping hnodup hentries => exact .mapping hnodup hentries
  | object label hentries => exact .object label hentries
  | parameterType t => exact .parameterType t
  | constraints hvalues => exact .constraints hvalues
  | definition hvalues => exact .definition hvalues

theorem isProper_of_get? {entries : Fields Value} (h : ∀ entry ∈ entries, entry.2.IsProper)
    {key : String} (hget : Fields.get? entries key = some w) : w.IsProper :=
  h _ (Fields.mem_of_get?_eq_some hget)

/-- A constraint that is read under its name is one of the values that constraints are made of, or
lists them. -/
theorem isProper_of_constraintField {c : Constraints Value} (h : ∀ v ∈ c.values, v.IsProper)
    {key : String} (hfield : constraintField c key = some w) : w.IsProper := by
  simp only [Constraints.values, List.forall_mem_append, Option.mem_toList] at h
  obtain ⟨⟨⟨⟨⟨hpattern, hminLength⟩, hmaxLength⟩, hminimum⟩, hmaximum⟩, henum⟩ := h
  unfold constraintField at hfield
  split at hfield
  · exact hpattern w hfield
  · exact hminLength w hfield
  · exact hmaxLength w hfield
  · exact hminimum w hfield
  · exact hmaximum w hfield
  · obtain ⟨members, hmembers, rfl⟩ := Option.map_eq_some_iff.mp hfield
    rw [hmembers] at henum
    exact .list henum
  · exact absurd hfield (by simp)

theorem isProper_of_definitionField {d : Definition Value}
    (h : ∀ v ∈ d.constraints.values, v.IsProper) {key : String}
    (hfield : definitionField d key = some w) : w.IsProper := by
  unfold definitionField at hfield
  split at hfield
  · exact Option.some.inj hfield ▸ .text _
  · exact Option.some.inj hfield ▸ .parameterType _
  · exact Option.some.inj hfield ▸ .bool _
  · exact Option.some.inj hfield ▸ .constraints h
  · exact absurd hfield (by simp)

theorem IsProper.of_held (h : v.IsProper) {key : String} (hentry : v.held? key = some w) :
    w.IsProper := by
  cases h with
  | mapping _ hentries => exact isProper_of_get? hentries hentry
  | object _ hentries => exact isProper_of_get? hentries hentry
  | constraints hvalues => exact isProper_of_constraintField hvalues hentry
  | definition hvalues => exact isProper_of_definitionField hvalues hentry
  | parameterType t =>
    rw [held?] at hentry
    split at hentry
    · exact Option.some.inj hentry ▸ .text _
    · exact absurd hentry (by simp)
  | _ => exact absurd hentry (by simp [held?])

theorem IsProper.of_field? (h : v.IsProper) {key : String} (hfield : v.field? key = some w) :
    w.IsProper := by
  obtain ⟨entry, hentry, hgiven⟩ := Option.bind_eq_some_iff.mp hfield
  rw [given?] at hgiven
  split at hgiven
  · exact absurd hgiven (by simp)
  · exact Option.some.inj hgiven ▸ (h.of_held hentry).unwrapped

theorem IsProper.of_elements? (h : v.IsProper) {items : List Value}
    (hitems : v.elements? = some items) : ∀ item ∈ items, item.IsProper := by
  have htexts {α : Type} (f : α → String) (l : List α) :
      ∀ item ∈ l.map fun a => Value.text (f a), item.IsProper := by
    rintro _ hitem
    obtain ⟨a, -, rfl⟩ := List.mem_map.mp hitem
    exact .text _
  cases h with
  | list hmembers => exact Option.some.inj hitems ▸ hmembers
  | mapping _ _ => exact Option.some.inj hitems ▸ htexts _ _
  | text s => exact Option.some.inj hitems ▸ htexts _ _
  | parameterType t => exact Option.some.inj hitems ▸ htexts _ _
  | _ => exact absurd hitems (by simp [elements?])

end Value

/-! ## Definitions -/

/-- A constraint that a description gives is read from one of its fields. -/
theorem isProper_of_constraint? {description apart : Value} (hdescription : description.IsProper)
    (hapart : apart.IsProper) {keys : List String} {w : Value}
    (h : constraint? description apart keys = some w) : w.IsProper := by
  have hfirst {v : Value} (hv : v.IsProper) (h : v.firstGiven? keys = some w) : w.IsProper := by
    obtain ⟨key, -, hfield⟩ := List.exists_of_findSome?_eq_some h
    exact hv.of_field? hfield
  rcases (Option.orElse_eq_some _ _ _).mp h with h | ⟨-, h⟩
  · exact hfirst hapart h
  · exact hfirst hdescription h

/-- The members of a proper enumeration are proper. -/
theorem isProper_of_enumMembers {v : Value} (h : v.IsProper) {members : List Value}
    (hmembers : enumMembers v = .ok members) : ∀ member ∈ members, member.IsProper := by
  rw [enumMembers] at hmembers
  cases hitems : v.elements? with
  | none =>
    rw [hitems] at hmembers
    exact absurd hmembers (by simp)
  | some items =>
    rw [hitems] at hmembers
    obtain rfl := Except.ok.inj hmembers
    rintro _ hmember
    obtain ⟨item, hitem, rfl⟩ := List.mem_map.mp hmember
    exact (h.of_elements? hitems item hitem).unwrapped

theorem isProper_of_constraintsOfValue {description : Value} (h : description.IsProper)
    {c : Constraints Value} (hc : Constraints.ofValue description = .ok c) :
    ∀ v ∈ c.values, v.IsProper := by
  have hapart : ((description.field? "constraints").getD .null).IsProper := by
    cases hfield : description.field? "constraints" with
    | none => exact .null
    | some apart => exact h.of_field? hfield
  obtain ⟨members, hmembers, hc⟩ := Except.bind_eq_ok_iff.mp hc
  have hgiven (keys : List String) : ∀ v ∈ constraint? description
      ((description.field? "constraints").getD .null) keys, v.IsProper :=
    fun _ hv => isProper_of_constraint? h hapart hv
  have henum : ∀ v ∈ members.getD [], v.IsProper := by
    cases hread : constraint? description ((description.field? "constraints").getD .null)
        ["enum"] with
    | none =>
      rw [hread] at hmembers
      obtain rfl : none = members := Except.ok.inj hmembers
      simp
    | some enum =>
      rw [hread] at hmembers
      obtain ⟨items, hitems, rfl⟩ := Except.map_eq_ok_iff.mp hmembers
      exact isProper_of_enumMembers (hgiven _ _ hread) hitems
  obtain rfl := Except.ok.inj hc
  simp only [Constraints.values, List.forall_mem_append, Option.mem_toList]
  exact ⟨⟨⟨⟨⟨hgiven _, hgiven _⟩, hgiven _⟩, hgiven _⟩, hgiven _⟩, henum⟩

/-- A proper value describes a proper definition. -/
theorem Definition.isProper_of_ofValue {name : String} {description : Value}
    (h : description.IsProper) {definition : Definition Value}
    (hdefinition : Definition.ofValue name description = .ok definition) :
    (Value.definition definition).IsProper := by
  have hgiven (hdefinition : (do
      return {
        name
        type := ((description.field? "type").map ParameterType.ofValue).getD .string
        required := ((description.field? "required").map Value.isTruthy).getD true
        constraints := ← Constraints.ofValue description } : Except Fault (Definition Value)) =
      .ok definition) : (Value.definition definition).IsProper := by
    obtain ⟨constraints, hconstraints, hdefinition⟩ := Except.bind_eq_ok_iff.mp hdefinition
    rw [← Except.ok.inj hdefinition]
    exact .definition (isProper_of_constraintsOfValue h hconstraints)
  cases description with
  | null =>
    rw [← Except.ok.inj hdefinition]
    exact .definition (by simp [Definition.plain, Constraints.none, Constraints.values])
  | definition d =>
    rw [← Except.ok.inj hdefinition]
    exact h
  | _ => exact hgiven hdefinition

/-- The definition that a proper value describes is the same as itself. -/
theorem Definition.same_self_of_ofValue {name : String} {description : Value}
    (h : description.IsProper) {definition : Definition Value}
    (hdefinition : Definition.ofValue name description = .ok definition) :
    definition.same definition = true :=
  (Definition.isProper_of_ofValue h hdefinition).same_self

/-- Definitions that are the same as others have among these one that is the same for each of
them. -/
theorem exists_of_sameDefinitions {ds es : Fields (Definition Value)} {name : String}
    {d : Definition Value} (h : sameDefinitions ds es = true) (hget : ds.get? name = some d) :
    ∃ e, es.get? name = some e ∧ d.same e = true := by
  rw [sameDefinitions, Bool.and_eq_true, List.all_eq_true] at h
  have hsame := h.2 _ (Fields.mem_of_get?_eq_some hget)
  rwa [Option.any_eq_true] at hsame

/-- Definitions without repeated names, each the same as itself, are the same as themselves. -/
theorem sameDefinitions_self {definitions : Fields (Definition Value)}
    (hnodup : (Fields.names definitions).Nodup)
    (h : ∀ name definition, definitions.get? name = some definition →
      definition.same definition = true) : sameDefinitions definitions definitions = true := by
  rw [sameDefinitions, beq_self_eq_true, Bool.true_and, List.all_eq_true]
  rintro ⟨name, definition⟩ hmem
  have hget := (Fields.get?_eq_some_iff_mem hnodup).mpr hmem
  simp only [hget, Option.any_some]
  exact h name definition hget

end RouteTemplate
