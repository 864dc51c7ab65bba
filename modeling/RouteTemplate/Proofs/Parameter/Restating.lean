/-
# Descriptions that say the same

A parameter can be described in many ways: by a mapping or an object, with its constraints apart or
beside its type, in either spelling, and with any of its values behind an accessor. Whatever the
way, a constraint is the first one that is given of four places, and descriptions that say the same
resolve to the same definition.

## Main definitions

* `ConstraintName` — the constraints that a description may give, with their keys
* `Fields.reading` — what fields say under a key
* `ConstraintName.readings` — what a description says for a constraint in its four places
* `Value.Restates` — one change to a description that leaves what it says

## Main results

* `Value.Restates.ofValue_eq` — a change that leaves what is said leaves the definition
* `Definition.exists_ofValue_of_restates` — the definition of a description and of all that say the
  same
-/

import Mathlib.Logic.Relation
import RouteTemplate.Parameter.Resolution
import RouteTemplate.Proofs.Except

namespace RouteTemplate

/-! ## What is said -/

/-- The constraints that a description may give. -/
inductive ConstraintName where
  | pattern
  | minLength
  | maxLength
  | minimum
  | maximum
  | enum

namespace ConstraintName

/-- The key of a constraint in camel case. -/
def camelKey : ConstraintName → String
  | pattern => "pattern"
  | minLength => "minLength"
  | maxLength => "maxLength"
  | minimum => "minimum"
  | maximum => "maximum"
  | enum => "enum"

/-- The key of a constraint with underscores. -/
def snakeKey : ConstraintName → String
  | minLength => "min_length"
  | maxLength => "max_length"
  | name => name.camelKey

/-- The keys of a constraint, in the order in which they are looked up. -/
def keys (name : ConstraintName) : List String :=
  [name.camelKey, name.snakeKey]

/-- What is taken of a value that is given for a constraint: of an enumeration, its members are read
through accessors. -/
def taken : ConstraintName → Value → Value
  | enum, .list items => .list (items.map Value.unwrapped)
  | _, v => v

end ConstraintName

/-- The constraint of a name, an enumeration as the list of its members. -/
def Constraints.value? (c : Constraints Value) : ConstraintName → Option Value
  | .pattern => c.pattern
  | .minLength => c.minLength
  | .maxLength => c.maxLength
  | .minimum => c.minimum
  | .maximum => c.maximum
  | .enum => c.enum.map .list

/-- What fields say under a key: what stands there, read through an accessor, and null where nothing
stands. -/
def Fields.reading (fields : Fields Value) (key : String) : Value :=
  ((fields.get? key).getD .null).unwrapped

/-- What a description says for a constraint in the four places, in the order in which they are
looked up: under both keys among its nested constraints, then under both keys beside its type. -/
def ConstraintName.readings (name : ConstraintName) (nested fields : Fields Value) : List Value :=
  [nested.reading name.camelKey, nested.reading name.snakeKey, fields.reading name.camelKey,
    fields.reading name.snakeKey]

/-! ## Saying it differently -/

namespace Value

/-- A value that is no accessor, and an accessor that stands for it. -/
inductive Hides : Value → Value → Prop
  | intro (label : Nat) {v : Value} (h : ∀ label content, v ≠ .accessor label content) :
      Hides v (.accessor label v)

/-- The value under a key is put behind an accessor, or a member of an enumeration is. -/
inductive FieldRestates : String → Value → Value → Prop
  | value (key : String) {v w : Value} (h : v.Hides w) : FieldRestates key v w
  | member (before after : List Value) {v w : Value} (h : v.Hides w) :
      FieldRestates "enum" (.list (before ++ v :: after)) (.list (before ++ w :: after))

/-- Constraints that stand apart are an object in place of a mapping, or a record of constraints if
they have no keys in camel case, or one of their fields is written differently. -/
inductive ApartRestates : Value → Value → Prop
  | object (label : Nat) (fields : Fields Value) :
      ApartRestates (.mapping fields) (.object label fields)
  | constraints {fields : Fields Value} {c : Constraints Value}
      (hsnake : ∀ name : ConstraintName, name.camelKey ≠ name.snakeKey →
        fields.get? name.camelKey = none)
      (hsame : ∀ name : ConstraintName,
        (fields.get? name.snakeKey).getD .null = (c.value? name).getD .null) :
      ApartRestates (.mapping fields) (.constraints c)
  | field {fields : Fields Value} {key : String} {v w : Value} (hget : fields.get? key = some v)
      (h : FieldRestates key v w) : ApartRestates (.mapping fields) (.mapping (fields.put key w))

/-- A description is an object in place of a mapping, or one of its fields is written differently,
or the constraints that stand apart are. -/
inductive Restates : Value → Value → Prop
  | object (label : Nat) (fields : Fields Value) : Restates (.mapping fields) (.object label fields)
  | field {fields : Fields Value} {key : String} {v w : Value} (hget : fields.get? key = some v)
      (h : FieldRestates key v w) : Restates (.mapping fields) (.mapping (fields.put key w))
  | apart {fields : Fields Value} {v w : Value} (hget : fields.get? "constraints" = some v)
      (h : v.ApartRestates w) : Restates (.mapping fields) (.mapping (fields.put "constraints" w))

end Value

/-! ## Fields -/

section Readings

variable {fields : Fields Value} {key : String} {v w : Value}

theorem field?_mapping (fields : Fields Value) (key : String) :
    (Value.mapping fields).field? key = (fields.reading key).given? := by
  rw [Value.field?, Value.held?, Fields.reading]
  cases fields.get? key <;> rfl

theorem reading_of_get? (h : fields.get? key = some v) : fields.reading key = v.unwrapped := by
  rw [Fields.reading, h, Option.getD_some]

theorem reading_put (fields : Fields Value) (key other : String) (w : Value) :
    Fields.reading (fields.put key w) other =
      if other = key then w.unwrapped else fields.reading other := by
  rw [Fields.reading, Fields.get?_put]
  split <;> rfl

/-- A value that is not null is given. -/
theorem getD_given? (v : Value) : v.given?.getD .null = v := by
  cases v <;> rfl

theorem Value.Hides.unwrapped_eq (h : v.Hides w) : w.unwrapped = v ∧ v.unwrapped = v := by
  obtain ⟨label, h⟩ := h
  refine ⟨rfl, ?_⟩
  cases v with
  | accessor label content => exact absurd rfl (h label content)
  | _ => rfl

/-- A field that is written differently is read as the same, but for the members of an
enumeration. -/
theorem Value.FieldRestates.unwrapped_cases (h : FieldRestates key v w) :
    v.unwrapped = w.unwrapped ∨
      key = "enum" ∧ v.unwrapped.given?.map ConstraintName.enum.taken =
        w.unwrapped.given?.map ConstraintName.enum.taken := by
  cases h with
  | value _ h => exact .inl (h.unwrapped_eq.2.trans h.unwrapped_eq.1.symm)
  | member before after h =>
    refine .inr ⟨rfl, congrArg (fun items => some (Value.list items)) ?_⟩
    rw [List.map_append, List.map_append, List.map_cons, List.map_cons, h.unwrapped_eq.1,
      h.unwrapped_eq.2]

end Readings

/-! ## Alike descriptions -/

namespace Value

variable {v w : Value}

/-- The values say the same under every key of a constraint. -/
def ConstrainsAlike (v w : Value) : Prop :=
  ∀ name : ConstraintName, ∀ key ∈ name.keys,
    (v.field? key).map name.taken = (w.field? key).map name.taken

/-- The values say the same under every key, but for accessors as the members of an enumeration. -/
def SpeaksAlike (v w : Value) : Prop :=
  (∀ key ≠ "enum", v.field? key = w.field? key) ∧
    (v.field? "enum").map ConstraintName.enum.taken =
      (w.field? "enum").map ConstraintName.enum.taken

theorem SpeaksAlike.constrainsAlike (h : v.SpeaksAlike w) : v.ConstrainsAlike w := by
  intro name key hkey
  by_cases henum : key = "enum"
  · obtain rfl : name = .enum := by
      subst henum
      cases name with
      | enum => rfl
      | _ => exact absurd hkey (by decide)
    rw [henum]
    exact h.2
  · rw [h.1 key henum]

theorem FieldRestates.speaksAlike {fields : Fields Value} {key : String}
    (hget : fields.get? key = some v) (h : FieldRestates key v w) :
    (Value.mapping fields).SpeaksAlike (.mapping (fields.put key w)) := by
  have hv := reading_of_get? hget
  refine ⟨fun other hother => ?_, ?_⟩
  · rw [field?_mapping, field?_mapping, reading_put]
    split
    · rename_i hkey
      rcases h.unwrapped_cases with hsame | ⟨henum, -⟩
      · rw [hkey, hv, hsame]
      · exact absurd (hkey.trans henum) hother
    · rfl
  · rw [field?_mapping, field?_mapping, reading_put]
    split
    · rename_i hkey
      rw [hkey, hv]
      rcases h.unwrapped_cases with hsame | ⟨-, hsame⟩
      · rw [hsame]
      · exact hsame
    · rfl

/-- An object says what a mapping of the same fields says. -/
theorem field?_object (label : Nat) (fields : Fields Value) (key : String) :
    (Value.object label fields).field? key = (Value.mapping fields).field? key :=
  rfl

/-- A record of constraints says what it holds, under the keys with underscores. -/
theorem field?_constraints (c : Constraints Value) (name : ConstraintName) :
    (Value.constraints c).field? name.snakeKey = ((c.value? name).getD .null).unwrapped.given? := by
  have hfield : (Value.constraints c).field? name.snakeKey =
      (c.value? name).bind (·.unwrapped.given?) := by
    cases name <;> rfl
  rw [hfield]
  cases c.value? name <;> rfl

/-- Constraints that stand apart say the same when they are written differently. -/
theorem ApartRestates.constrainsAlike (h : v.ApartRestates w) : v.ConstrainsAlike w := by
  cases h with
  | object label fields =>
    intro name key _
    rw [field?_object]
  | @constraints fields c hsnake hsame =>
    intro name key hkey
    have hsnakeKey : (Value.mapping fields).field? name.snakeKey =
        (Value.constraints c).field? name.snakeKey := by
      rw [field?_mapping, field?_constraints, Fields.reading, hsame]
    by_cases hkeys : name.camelKey = name.snakeKey
    · obtain rfl : key = name.snakeKey := by
        simpa [ConstraintName.keys, hkeys] using hkey
      rw [hsnakeKey]
    · rcases List.mem_cons.mp hkey with rfl | hkey
      · -- A record of constraints has no keys in camel case.
        have hnone : (Value.constraints c).field? name.camelKey = none := by
          cases name with
          | minLength => rfl
          | maxLength => rfl
          | _ => exact absurd rfl hkeys
        rw [field?_mapping, Fields.reading, hsnake name hkeys, hnone]
        rfl
      · rw [List.mem_singleton.mp hkey, hsnakeKey]
  | field hget h => exact (h.speaksAlike hget).constrainsAlike

end Value

/-! ## Constraints -/

namespace Value

variable {description description' : Value}

/-- The constraints that a description has apart from its type, null if it has none. -/
def apart (description : Value) : Value :=
  (description.field? "constraints").getD .null

/-- The value that a description gives for a constraint. -/
def constraintGiven? (description : Value) (name : ConstraintName) : Option Value :=
  constraint? description description.apart name.keys

theorem firstGiven?_pair (v : Value) (key other : String) :
    v.firstGiven? [key, other] = (v.field? key).or (v.field? other) := by
  rw [firstGiven?]
  cases hkey : v.field? key <;> cases hother : v.field? other <;> simp [hkey, hother]

/-- There are four places in which a constraint may be given, and the first one counts. -/
theorem constraintGiven?_eq (description : Value) (name : ConstraintName) :
    description.constraintGiven? name =
      ((description.apart.field? name.camelKey).or (description.apart.field? name.snakeKey)).or
        ((description.field? name.camelKey).or (description.field? name.snakeKey)) := by
  rw [constraintGiven?, constraint?, ConstraintName.keys, firstGiven?_pair, firstGiven?_pair]
  generalize (description.apart.field? name.camelKey).or _ = first
  cases first <;> rfl

/-- Descriptions that say the same in both places give the same for every constraint. -/
theorem constraintGiven?_congr (hapart : description.apart.ConstrainsAlike description'.apart)
    (hbeside : description.ConstrainsAlike description') (name : ConstraintName) :
    (description.constraintGiven? name).map name.taken =
      (description'.constraintGiven? name).map name.taken := by
  have hcamel : name.camelKey ∈ name.keys := List.mem_cons_self
  have hsnake : name.snakeKey ∈ name.keys := List.mem_cons_of_mem _ List.mem_cons_self
  simp only [constraintGiven?_eq, Option.map_or, hapart name _ hcamel, hapart name _ hsnake,
    hbeside name _ hcamel, hbeside name _ hsnake]

end Value

section Constraints

variable {description description' : Value}

/-- The constraints of a description are those that it gives, an enumeration member by member. -/
theorem Constraints.ofValue_eq (description : Value) :
    Constraints.ofValue description = do
      let enum ← (description.constraintGiven? .enum).mapM enumMembers
      return {
        pattern := description.constraintGiven? .pattern
        minLength := description.constraintGiven? .minLength
        maxLength := description.constraintGiven? .maxLength
        minimum := description.constraintGiven? .minimum
        maximum := description.constraintGiven? .maximum
        enum } := by
  -- A constraint with one spelling is looked up once.
  have hone (v : Value) (key : String) : v.firstGiven? [key, key] = v.firstGiven? [key] := by
    rw [Value.firstGiven?, Value.firstGiven?]
    cases hkey : v.field? key <;> simp [hkey]
  have hself (key : String) : constraint? description description.apart [key, key] =
      constraint? description description.apart [key] := by
    rw [constraint?, constraint?, hone, hone]
  simp only [Value.constraintGiven?, ConstraintName.keys, ConstraintName.camelKey,
    ConstraintName.snakeKey, hself]
  rfl

theorem ConstraintName.taken_of_ne_enum {name : ConstraintName} (h : name ≠ .enum) :
    name.taken = id := by
  cases name with
  | enum => exact absurd rfl h
  | _ => rfl

/-- What is no list is taken as it stands. -/
theorem ConstraintName.taken_enum_cases (v : Value) :
    (∃ items, v = .list items) ∨
      ConstraintName.enum.taken v = v ∧ ∀ items, v ≠ .list items := by
  cases v with
  | list items => exact .inl ⟨items, rfl⟩
  | _ => exact .inr ⟨rfl, fun _ => Value.noConfusion⟩

/-- Enumerations have the same members when these are read as the same. -/
theorem enumMembers_congr {v w : Value}
    (h : ConstraintName.enum.taken v = ConstraintName.enum.taken w) :
    enumMembers v = enumMembers w := by
  rcases ConstraintName.taken_enum_cases v with ⟨items, rfl⟩ | ⟨hv, hlist⟩
  · rcases ConstraintName.taken_enum_cases w with ⟨items', rfl⟩ | ⟨hw, hlist⟩
    · exact congrArg Except.ok (Value.list.inj h)
    · exact absurd (h.trans hw).symm (hlist _)
  · rcases ConstraintName.taken_enum_cases w with ⟨items', rfl⟩ | ⟨hw, -⟩
    · exact absurd (hv.symm.trans h) (hlist _)
    · rw [hv.symm.trans (h.trans hw)]

/-- Descriptions that give the same for every constraint have the same constraints. -/
theorem Constraints.ofValue_congr
    (h : ∀ name : ConstraintName, (description.constraintGiven? name).map name.taken =
      (description'.constraintGiven? name).map name.taken) :
    Constraints.ofValue description = Constraints.ofValue description' := by
  have hsame {name : ConstraintName} (hname : name ≠ .enum) :
      description.constraintGiven? name = description'.constraintGiven? name := by
    simpa only [ConstraintName.taken_of_ne_enum hname, Option.map_id_fun, id_eq] using h name
  have henum : (description.constraintGiven? .enum).mapM enumMembers =
      (description'.constraintGiven? .enum).mapM enumMembers := by
    have henum := h .enum
    generalize description.constraintGiven? .enum = v at henum ⊢
    generalize description'.constraintGiven? .enum = w at henum ⊢
    cases v with
    | none =>
      rw [Option.map_none, eq_comm, Option.map_eq_none_iff] at henum
      rw [henum]
    | some v =>
      rw [Option.map_some, eq_comm, Option.map_eq_some_iff] at henum
      obtain ⟨w, rfl, hw⟩ := henum
      rw [Option.mapM_some, Option.mapM_some, enumMembers_congr hw]
  rw [ofValue_eq, ofValue_eq, henum, hsame (by simp), hsame (by simp), hsame (by simp),
    hsame (by simp), hsame (by simp)]

end Constraints

/-! ## Definitions -/

namespace Value

variable {description description' : Value}

/-- A description that is no definition: a mapping or an object. -/
def IsFieldwise : Value → Prop
  | mapping _ | object _ _ => True
  | _ => False

theorem ofValue_of_isFieldwise (h : description.IsFieldwise) (name : String) :
    Definition.ofValue name description = (do
      return {
        name
        type := ((description.field? "type").map ParameterType.ofValue).getD .string
        required := ((description.field? "required").map Value.isTruthy).getD true
        constraints := ← Constraints.ofValue description }) := by
  cases description with
  | mapping fields => rfl
  | object label fields => rfl
  | _ => exact h.elim

theorem apart_mapping (fields : Fields Value) :
    (mapping fields).apart = fields.reading "constraints" := by
  rw [apart, field?_mapping, getD_given?]

/-- A change that leaves what a description says leaves its definition. -/
theorem Restates.ofValue_eq (h : description.Restates description') (name : String) :
    Definition.ofValue name description = Definition.ofValue name description' := by
  -- The type and whether the parameter is required are read as before, and so are both places of
  -- the constraints.
  have hcongr (hfieldwise : description.IsFieldwise ∧ description'.IsFieldwise)
      (htype : description.field? "type" = description'.field? "type")
      (hrequired : description.field? "required" = description'.field? "required")
      (hbeside : description.ConstrainsAlike description')
      (hapart : description.apart.ConstrainsAlike description'.apart) :
      Definition.ofValue name description = Definition.ofValue name description' := by
    rw [ofValue_of_isFieldwise hfieldwise.1, ofValue_of_isFieldwise hfieldwise.2, htype, hrequired,
      Constraints.ofValue_congr (constraintGiven?_congr hapart hbeside)]
  cases h with
  | object label fields =>
    exact hcongr ⟨trivial, trivial⟩ rfl rfl (fun _ _ _ => rfl) fun _ _ _ => rfl
  | field hget h =>
    have halike := h.speaksAlike hget
    refine hcongr ⟨trivial, trivial⟩ (halike.1 _ (by decide)) (halike.1 _ (by decide))
      halike.constrainsAlike fun name key _ => ?_
    rw [Value.apart, Value.apart, halike.1 "constraints" (by decide)]
  | @apart fields v w hget h =>
    have hsame {key : String} (hkey : key ≠ "constraints") : (mapping fields).field? key =
        (mapping (fields.put "constraints" w)).field? key := by
      rw [field?_mapping, field?_mapping, reading_put, if_neg hkey]
    refine hcongr ⟨trivial, trivial⟩ (hsame (by decide)) (hsame (by decide)) ?_ ?_
    · intro name key hkey
      rw [hsame]
      rintro rfl
      revert hkey
      cases name <;> decide
    · rw [apart_mapping, apart_mapping, reading_put, if_pos rfl, reading_of_get? hget]
      -- Constraints that stand apart are no accessor.
      have hunwrapped : v.unwrapped = v ∧ w.unwrapped = w := by
        cases h <;> exact ⟨rfl, rfl⟩
      rw [hunwrapped.1, hunwrapped.2]
      exact h.constrainsAlike

/-- Changes that leave what a description says leave its definition, however many there are. -/
theorem ofValue_eq_of_eqvGen (h : Relation.EqvGen Restates description description')
    (name : String) :
    Definition.ofValue name description = Definition.ofValue name description' := by
  induction h with
  | rel _ _ h => exact h.ofValue_eq name
  | refl _ => rfl
  | symm _ _ _ ih => exact ih.symm
  | trans _ _ _ _ _ ih ih' => exact ih.trans ih'

end Value

section Readings

variable {fields nested : Fields Value}

/-- Of four values the first one counts that is not null. -/
private theorem find?_given (a b c d : Value) :
    (a.given?.or b.given?).or (c.given?.or d.given?) = [a, b, c, d].find? (!·.isNull) := by
  simp only [List.find?_cons, List.find?_nil, Value.given?]
  cases a.isNull <;> cases b.isNull <;> cases c.isNull <;> cases d.isNull <;> rfl

/-- Fields give for a constraint the first value that is not null. -/
theorem constraintGiven?_mapping
    (hnested : fields.reading "constraints" = .mapping nested ∨
      fields.reading "constraints" = .null ∧ nested = []) (name : ConstraintName) :
    (Value.mapping fields).constraintGiven? name =
      (name.readings nested fields).find? (!·.isNull) := by
  have hapart (key : String) :
      (Value.mapping fields).apart.field? key = (nested.reading key).given? := by
    rw [Value.apart_mapping]
    rcases hnested with hnested | ⟨hnested, rfl⟩
    · rw [hnested, field?_mapping]
    · rw [hnested]
      rfl
  rw [Value.constraintGiven?_eq, hapart, hapart, field?_mapping, field?_mapping, find?_given]
  rfl

/-- The members of an enumeration that is a list are what is taken of it. -/
theorem exists_mapM_enumMembers {given : Option Value}
    (h : ∀ v ∈ given, ∃ items, v = .list items) :
    ∃ members, given.mapM enumMembers = .ok members ∧
      members.map Value.list = given.map ConstraintName.enum.taken := by
  cases given with
  | none => exact ⟨none, rfl, rfl⟩
  | some v =>
    obtain ⟨items, rfl⟩ := h v rfl
    exact ⟨some (items.map Value.unwrapped), rfl, rfl⟩

/-- A description by fields, whose enumerations are lists, gives a definition, in which each
constraint is the first of its four readings that is not null. All descriptions that say the same
give the same definition. -/
theorem Definition.exists_ofValue_of_restates (name : String)
    (hnested : fields.reading "constraints" = .mapping nested ∨
      fields.reading "constraints" = .null ∧ nested = [])
    (henum : ∀ v ∈ ConstraintName.enum.readings nested fields,
      v = .null ∨ ∃ items, v = .list items) :
    ∃ d : Definition Value,
      (∀ description, Relation.EqvGen Value.Restates (.mapping fields) description →
        Definition.ofValue name description = .ok d) ∧
      ∀ constraint : ConstraintName, d.constraints.value? constraint =
        ((constraint.readings nested fields).find? (!·.isNull)).map constraint.taken := by
  have hgiven := constraintGiven?_mapping hnested
  -- The enumeration that is given is not null, so it is a list.
  have hlist : ∀ v ∈ (Value.mapping fields).constraintGiven? .enum, ∃ items, v = .list items := by
    intro v hv
    rw [hgiven] at hv
    refine (henum v (List.mem_of_find?_eq_some hv)).resolve_left ?_
    rintro rfl
    exact absurd (List.find?_some hv) (by simp [Value.isNull])
  obtain ⟨members, hmembers, htaken⟩ := exists_mapM_enumMembers hlist
  have hconstraints := Constraints.ofValue_eq (.mapping fields)
  rw [hmembers] at hconstraints
  have hdefinition := @Value.ofValue_of_isFieldwise (.mapping fields) trivial name
  rw [hconstraints] at hdefinition
  refine ⟨_, fun description h => (Value.ofValue_eq_of_eqvGen h name).symm.trans hdefinition, ?_⟩
  intro constraint
  rw [← hgiven]
  cases constraint with
  | enum => exact htaken
  | _ => exact (congrFun Option.map_id _).symm

end Readings

/-- A bound of zero under a key with underscores comes before one beside the type, also in a record
of constraints that an object has. -/
theorem Definition.exists_ofValue_of_restates_record :
    ∃ (fields nested : Fields Value) (description : Value),
      fields.reading "constraints" = .mapping nested ∧
      (∀ v ∈ ConstraintName.enum.readings nested fields,
        v = .null ∨ ∃ items, v = .list items) ∧
      Relation.EqvGen Value.Restates (.mapping fields) description ∧
      description = .object 1 [("type", .accessor 0 (.text "string")), ("minLength", .int 3),
        ("constraints", .constraints { Constraints.none with minLength := some (.int 0) })] ∧
      ∃ d : Definition Value, Definition.ofValue "s" description = .ok d ∧
        d.constraints.value? .minLength = some (.int 0) := by
  let nested : Fields Value := [("min_length", .int 0)]
  let fields : Fields Value :=
    [("type", .text "string"), ("minLength", .int 3), ("constraints", .mapping nested)]
  let record : Value := .constraints { Constraints.none with minLength := some (.int 0) }
  have hhidden : Value.Restates (.mapping fields)
      (.mapping (fields.put "type" (.accessor 0 (.text "string")))) :=
    .field rfl (.value "type" (.intro 0 (by simp)))
  have hrecord : Value.Restates (.mapping (fields.put "type" (.accessor 0 (.text "string"))))
      (.mapping ((fields.put "type" (.accessor 0 (.text "string"))).put "constraints" record)) := by
    refine .apart rfl (.constraints (fun name _ => ?_) fun name => ?_)
    · cases name <;> rfl
    · cases name <;> rfl
  have hrestates := (Relation.EqvGen.rel _ _ hhidden).trans _ _ _
    ((Relation.EqvGen.rel _ _ hrecord).trans _ _ _ (.rel _ _ (.object 1 _)))
  have henum : ∀ v ∈ ConstraintName.enum.readings nested fields,
      v = .null ∨ ∃ items, v = .list items := by
    have hnull : ConstraintName.enum.readings nested fields = List.replicate 4 .null := rfl
    rw [hnull]
    exact fun v hv => .inl (List.eq_of_mem_replicate hv)
  obtain ⟨d, hd, hconstraints⟩ :=
    @Definition.exists_ofValue_of_restates fields nested "s" (.inl rfl) henum
  exact ⟨fields, nested, _, rfl, henum, hrestates, rfl, d, hd _ hrestates,
    hconstraints .minLength⟩

end RouteTemplate
