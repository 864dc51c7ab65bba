/-
# Descriptions in a list

The parameters of a template can be described by name or in a list of descriptions that name
themselves. A list describes what the mapping describes in which each name stands where it is first
given, with the description that gives it last: a template has the same matcher with the one as with
the other.

A name is known by its text, so equal values with different texts are different names, and a value
without a text is none.

## Main definitions

* `Value.NamedBy` — what a description says about its name
* `Value.isName` — a value that can serve as a name
* `Declarations.AreListed` — the descriptions of a list, by name

## Main results

* `Declarations.ofItems_eq_ok`, `Declarations.exists_ofItems_eq_error` — a list is read from its
  start, and each description needs a name
* `Declarations.list_as_mapping` — a list whose descriptions have names is as good as a mapping
-/

import Mathlib.Algebra.Group.Int.Defs
import Mathlib.Data.List.Forall2
import RouteTemplate.Matching.Matcher
import RouteTemplate.Proofs.Fields
import RouteTemplate.Proofs.Parameter.Restating

namespace RouteTemplate

/-! ## Names -/

/-- A description is a mapping, an object or a definition, and this is what it says about its name:
null if it says nothing. -/
inductive Value.NamedBy : Value → Value → Prop
  | mapping (fields : Fields Value) : NamedBy (.mapping fields) (fields.reading "name")
  | object (label : Nat) (fields : Fields Value) :
      NamedBy (.object label fields) (fields.reading "name")
  | definition (d : Definition Value) : NamedBy (.definition d) (.text d.name)

namespace Value

/-- A value serves as a name if it is not empty and has a text. -/
def isName (name : Value) : Bool :=
  name.isTruthy && name.isWritable

variable {name : Value}

theorem isName_eq_true_iff : name.isName = true ↔ name.isTruthy = true ∧ name.isWritable = true :=
  Bool.and_eq_true_iff

theorem isName_eq_false_iff :
    name.isName = false ↔ name.isTruthy = false ∨ name.isWritable = false :=
  Bool.and_eq_false_iff

/-- A value has the text that it would have if there were no limit, or none. -/
theorem written_eq_ok (h : name.isWritable = true) (text : String) :
    name.written text = .ok text :=
  if_pos h

theorem written_eq_error (h : name.isWritable = false) (text : String) :
    name.written text = .error .integerTooLong :=
  if_neg (h ▸ Bool.false_ne_true)

end Value

namespace Declarations

variable {items names : List Value} {description name : Value} {declarations : Declarations}

/-- Declarations have the descriptions of a list: the names stand where they are first given, and
under each of them stands the description that gives it last. -/
structure AreListed (names items : List Value) (declarations : Declarations) : Prop where
  names_eq : Fields.names declarations = (names.map Value.displayText).eraseDups
  get?_eq (key : String) : declarations.get? key =
    ((((names.map Value.displayText).zip items).filter (·.1 == key)).getLast?).map (·.2)

/-- What is reported of descriptions that cannot all be listed by name: one of them has no name, or
an integer is too long to be written. -/
def IsListingFault (items : List Value) (fault : Fault) : Prop :=
  fault = .integerTooLong ∨ ∃ description ∈ items, fault = .unnamedDefinition description.shown

/-- A description that says nothing about its name, or something empty, has no name. -/
theorem nameOf_eq (h : description.NamedBy name) : nameOf description =
    if name.isTruthy then name.display else .error (namelessFault description) := by
  have hgiven : description.field? "name" = name.given? := by
    cases h with
    | mapping fields => exact field?_mapping fields "name"
    | object label fields => exact field?_mapping fields "name"
    | definition d => rfl
  rw [nameOf, hgiven]
  cases name <;> rfl

theorem nameOf_eq_ok (h : description.NamedBy name) (hname : name.isName = true) :
    nameOf description = .ok name.displayText := by
  obtain ⟨htruthy, hwritable⟩ := Value.isName_eq_true_iff.mp hname
  rw [nameOf_eq h, if_pos htruthy, Value.display, Value.written_eq_ok hwritable]

theorem namelessFault_eq (description : Value) :
    namelessFault description = .integerTooLong ∨
      namelessFault description = .unnamedDefinition description.shown := by
  cases hwritable : description.isWritable with
  | false => exact .inl (by rw [namelessFault, Value.written_eq_error hwritable])
  | true => exact .inr (by rw [namelessFault, Value.written_eq_ok hwritable])

theorem exists_nameOf_eq_error (h : description.NamedBy name) (hname : name.isName = false) :
    ∃ fault, nameOf description = .error fault ∧
      (fault = .integerTooLong ∨ fault = .unnamedDefinition description.shown) := by
  rw [nameOf_eq h]
  cases htruthy : name.isTruthy with
  | false => exact ⟨_, rfl, namelessFault_eq description⟩
  | true =>
    have hwritable : name.isWritable = false :=
      (Value.isName_eq_false_iff.mp hname).resolve_left (by rw [htruthy]; simp)
    exact ⟨.integerTooLong, Value.written_eq_error hwritable _, .inl rfl⟩

/-! ## Reading a list -/

theorem ofItems_cons_of_isName (h : description.NamedBy name) (hname : name.isName = true)
    (items : List Value) (declarations : Declarations) :
    ofItems (description :: items) declarations =
      ofItems items (Fields.put declarations name.displayText description) := by
  rw [ofItems, nameOf_eq_ok h hname]
  rfl

/-- A list is read from its start, description by description, each under its own name. -/
theorem ofItems_eq_ok (h : List.Forall₂ Value.NamedBy items names)
    (hnames : ∀ name ∈ names, name.isName = true) (declarations : Declarations) :
    ofItems items declarations =
      .ok (Fields.merge declarations ((names.map Value.displayText).zip items)) := by
  induction h generalizing declarations with
  | nil => rfl
  | cons hitem _ ih =>
    rw [ofItems_cons_of_isName hitem (hnames _ List.mem_cons_self),
      ih fun name hname => hnames name (List.mem_cons_of_mem _ hname)]
    rfl

/-- A description without a name is found wherever it stands in the list. -/
theorem exists_ofItems_eq_error (h : List.Forall₂ Value.NamedBy items names)
    (hnames : ∃ name ∈ names, name.isName = false) (declarations : Declarations) :
    ∃ fault, ofItems items declarations = .error fault ∧ IsListingFault items fault := by
  induction h generalizing declarations with
  | nil => exact absurd hnames (by simp)
  | @cons item name items names hitem hitems ih =>
    cases hname : name.isName with
    | false =>
      obtain ⟨fault, herror, hfault⟩ := exists_nameOf_eq_error hitem hname
      refine ⟨fault, by rw [ofItems, herror]; rfl, hfault.imp_right fun hshown => ?_⟩
      exact ⟨item, List.mem_cons_self, hshown⟩
    | true =>
      have hrest : ∃ name ∈ names, name.isName = false := by
        obtain ⟨other, hother, hfalse⟩ := hnames
        rcases List.mem_cons.mp hother with rfl | hother
        · exact absurd (hname.symm.trans hfalse) (by simp)
        · exact ⟨other, hother, hfalse⟩
      obtain ⟨fault, herror, hfault⟩ :=
        ih hrest (Fields.put declarations name.displayText item)
      refine ⟨fault, (ofItems_cons_of_isName hitem hname _ _).trans herror,
        hfault.imp_right fun ⟨description, hmem, hshown⟩ => ?_⟩
      exact ⟨description, List.mem_cons_of_mem _ hmem, hshown⟩

theorem areListed_ofList (h : names.length = items.length) :
    AreListed names items (Fields.ofList ((names.map Value.displayText).zip items)) where
  names_eq := by
    rw [Fields.names_ofList, List.map_fst_zip (Nat.le_of_eq (by rw [List.length_map, h]))]
  get?_eq := Fields.get?_ofList _

/-! ## Lists and mappings -/

/-- Values that give the same declarations make the same matchers of templates. -/
theorem ofTemplate_congr {parameters parameters' : Value}
    (h : ofValue parameters = ofValue parameters') (template : String) (given : Options.Given)
    (collaborators : Collaborators) :
    Matcher.ofTemplate template parameters given collaborators =
      Matcher.ofTemplate template parameters' given collaborators := by
  rw [Matcher.ofTemplate, Matcher.ofTemplate, h]

theorem redeclare_congr {parameters parameters' : Value}
    (h : ofValue parameters = ofValue parameters') (m : Matcher) :
    m.redeclare parameters = m.redeclare parameters' := by
  rw [Matcher.redeclare, Matcher.redeclare, h]

/-- A list of descriptions fails exactly when one of them has no name, because what it says about
its name is null or empty or has no text. Otherwise it gives its descriptions by the texts of their
names, and is as good as the mapping of them, for templates and for updates of matchers. -/
theorem list_as_mapping (h : List.Forall₂ Value.NamedBy items names) :
    ((∃ fault, ofValue (.list items) = .error fault) ↔
      ∃ name ∈ names, name.isTruthy = false ∨ name.isWritable = false) ∧
    (∀ fault, ofValue (.list items) = .error fault → IsListingFault items fault) ∧
    ((∀ name ∈ names, name.isTruthy = true ∧ name.isWritable = true) →
      ∃ declarations, ofValue (.list items) = .ok declarations ∧
        AreListed names items declarations ∧
        ofValue (.mapping declarations) = .ok declarations ∧
        (∀ template options collaborators,
          Matcher.ofTemplate template (.list items) options collaborators =
            Matcher.ofTemplate template (.mapping declarations) options collaborators) ∧
        ∀ m : Matcher, m.redeclare (.list items) = m.redeclare (.mapping declarations)) := by
  have hofValue : ofValue (.list items) = ofItems items [] := rfl
  have hcases : (∀ name ∈ names, name.isName = true) ∨ ∃ name ∈ names, name.isName = false := by
    by_cases hnames : ∃ name ∈ names, name.isName = false
    · exact .inr hnames
    · refine .inl fun name hname => ?_
      cases hisName : name.isName with
      | true => rfl
      | false => exact absurd ⟨name, hname, hisName⟩ hnames
  simp only [← Value.isName_eq_false_iff, ← Value.isName_eq_true_iff]
  refine ⟨⟨?_, ?_⟩, ?_, fun hnames => ?_⟩
  · rintro ⟨fault, hfault⟩
    refine hcases.resolve_left fun hnames => ?_
    rw [hofValue, ofItems_eq_ok h hnames] at hfault
    exact nomatch hfault
  · intro hnames
    obtain ⟨fault, herror, -⟩ := exists_ofItems_eq_error h hnames []
    exact ⟨fault, herror⟩
  · intro fault hfault
    rcases hcases with hnames | hnames
    · rw [hofValue, ofItems_eq_ok h hnames] at hfault
      exact nomatch hfault
    · obtain ⟨fault', herror, hlisting⟩ := exists_ofItems_eq_error h hnames []
      exact Except.error.inj (herror.symm.trans hfault) ▸ hlisting
  · have hok := hofValue.trans (ofItems_eq_ok h hnames [])
    exact ⟨_, hok, areListed_ofList h.length_eq.symm, rfl, ofTemplate_congr hok,
      redeclare_congr hok⟩

/-- A number, a text behind an accessor, and the text of that number: the first and the last
description have one name. -/
theorem list_as_mapping_repeated :
    let first : Value := .mapping [("type", .text "integer"), ("name", .int 1)]
    let second : Value := .object 0 [("name", .accessor 1 (.text "b"))]
    let third : Value := .definition (.plain "1")
    List.Forall₂ Value.NamedBy [first, second, third] [.int 1, .text "b", .text "1"] ∧
    (∀ name ∈ [Value.int 1, .text "b", .text "1"],
      name.isTruthy = true ∧ name.isWritable = true) ∧
    ∃ declarations, ofValue (.list [first, second, third]) = .ok declarations ∧
      Fields.names declarations = ["1", "b"] ∧
      declarations.get? "1" = some third ∧ declarations.get? "b" = some second ∧
      ∀ m : Matcher, m.redeclare (.list [first, second, third]) =
        m.redeclare (.mapping declarations) := by
  intro first second third
  have hnamed : List.Forall₂ Value.NamedBy [first, second, third]
      [.int 1, .text "b", .text "1"] :=
    .cons (.mapping _) (.cons (.object 0 _) (.cons (.definition _) .nil))
  have hnames : ∀ name ∈ [Value.int 1, .text "b", .text "1"],
      name.isTruthy = true ∧ name.isWritable = true := by
    intro name hname
    simp only [List.mem_cons, List.not_mem_nil, or_false] at hname
    rcases hname with rfl | rfl | rfl <;> decide +kernel
  obtain ⟨declarations, hok, hlisted, -, -, hredeclare⟩ := (list_as_mapping hnamed).2.2 hnames
  refine ⟨hnamed, hnames, declarations, hok, ?_, ?_, ?_, hredeclare⟩
  · rw [hlisted.names_eq]
    decide
  · rw [hlisted.get?_eq]
    rfl
  · rw [hlisted.get?_eq]
    rfl

/-- Not everything that counts as a yes is a name: an integer may have too many digits for a text.
And one value may be two names, since one and one are equal but have two texts. -/
theorem list_as_mapping_of_numbers :
    let long : Value := .int (10 ^ Number.mostIntegerDigits)
    let whole : Value := .int 1
    let float : Value := .float (.nearest false 1 1)
    long.isTruthy = true ∧ ofValue (.list [.mapping [("name", long)]]) = .error .integerTooLong ∧
    whole.same float = true ∧
    ∃ declarations,
      ofValue (.list [.mapping [("name", whole)], .mapping [("name", float)]]) =
        .ok declarations ∧ Fields.names declarations = ["1", "1.0"] := by
  intro long whole float
  have hlong : long.isTruthy = true :=
    bne_iff_ne.mpr (Int.pow_ne_zero (by decide))
  have hwritable : long.isWritable = false := by
    have hten : (10 : Int).natAbs = 10 := rfl
    have hdigits : ¬ (Number.digitsOf (10 ^ Number.mostIntegerDigits)).length ≤
        Number.mostIntegerDigits := by
      rw [Number.digitsOf, Nat.length_toDigits_le_iff (by decide) (by decide)]
      exact Nat.lt_irrefl _
    rw [Value.isWritable, Number.isShort, Int.natAbs_pow, hten, decide_eq_false hdigits]
  have hnameOf : nameOf (.mapping [("name", long)]) = .error .integerTooLong := by
    rw [nameOf_eq (.mapping _)]
    exact (if_pos hlong).trans (Value.written_eq_error hwritable _)
  have hofItems : ofItems [.mapping [("name", long)]] [] = .error .integerTooLong := by
    rw [ofItems, hnameOf]
    rfl
  have hnamed : List.Forall₂ Value.NamedBy
      [.mapping [("name", whole)], .mapping [("name", float)]] [whole, float] :=
    .cons (.mapping _) (.cons (.mapping _) .nil)
  exact ⟨hlong, hofItems, by decide +kernel, _, ofItems_eq_ok hnamed (by decide +kernel) [],
    by decide +kernel⟩

end Declarations

end RouteTemplate
