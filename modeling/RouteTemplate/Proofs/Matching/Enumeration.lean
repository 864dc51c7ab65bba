/-
# Paths that choose from an enumeration

A parameter whose only constraint is an enumeration is matched twice: the path is compared with the
texts of the members, up to case, and the value that the path gives is compared with the members
themselves. Where a member is a text without percent signs, an integer or a truth value,
both agree, and the parameter takes exactly the members. Where the path encodes a member in another
way than some member is written, the path is not even taken apart.

## Main definitions

* `Definition.IsChoice`, `DeclaresChoice` — an enumeration is the only constraint
* `Value.IsPlainMember` — the members on which both comparisons agree
* `memberLanguage` — the texts of a member in a path

## Main results

* `Matcher.match?_eq_some_iff_member` — the paths that match are those of the members
* `Matcher.match?_encoded_member` — an encoding of a text is matched when it is itself written like
  a member
-/

import RouteTemplate.Proofs.Matching.SoleReference
import RouteTemplate.Proofs.Number.Numeral
import RouteTemplate.Proofs.Template.Characters
import RouteTemplate.Proofs.Text.PercentDecoding
import RouteTemplate.Proofs.Value.Comparison
import RouteTemplate.Proofs.Value.Equality

namespace RouteTemplate

open Template

/-! ## Choices -/

/-- A parameter of a type, required or not, whose value is chosen from the members and has no other
constraint. -/
structure Definition.IsChoice (definition : Definition Value) (type : ParameterType)
    (required : Bool) (members : List Value) : Prop where
  type_eq : definition.type = type
  required_eq : definition.required = required
  constraints_eq : definition.constraints = { Constraints.none with enum := some members }

/-- The parameters declare such a choice under a name. -/
def DeclaresChoice (parameters : Value) (name : String) (type : ParameterType) (required : Bool)
    (members : List Value) : Prop :=
  ∃ declarations definition, Declarations.ofValue parameters = .ok declarations ∧
    Definition.ofValue name (declarations.describe name) = .ok definition ∧
    definition.IsChoice type required members

/-- A description with a type and an enumeration declares a required choice. -/
theorem declaresChoice_mapping (type : ParameterType) (members : List Value) :
    DeclaresChoice
      (.mapping [("x", .mapping [("type", .text type.name), ("enum", .list members)])]) "x" type
      true (members.map Value.unwrapped) := by
  cases type <;> exact ⟨_, _, rfl, rfl, rfl, rfl, rfl⟩

section Choice

variable {definition : Definition Value} {type : ParameterType} {required : Bool}
  {members : List Value} {sensitive : Bool} {text : List Char}

/-- The texts that a choice takes are those of its members, up to case, or the empty text when there
are none. -/
theorem Definition.IsChoice.mem_captureLanguage (h : definition.IsChoice type required members)
    {expand : Bool} {lead : Option Char} :
    text ∈ captureLanguage sensitive definition expand lead ↔
      (∃ v ∈ members, text ∈ word sensitive v.pathText.toList) ∨ (members = [] ∧ text = []) := by
  have henum : definition.constraints.enum = some members := by
    rw [h.constraints_eq]
  cases members with
  | nil => simp [captureLanguage, henum, Language.mem_one]
  | cons v rest =>
    simp only [captureLanguage, henum, declaredLanguage, reduceCtorEq, false_and, or_false]
    constructor
    · rintro ⟨_, hw, htext⟩
      obtain ⟨v', hv', rfl⟩ := List.mem_map.mp hw
      exact ⟨v', hv', htext⟩
    · rintro ⟨v', hv', htext⟩
      exact ⟨_, List.mem_map_of_mem hv', htext⟩

/-- A template that is nothing but such a choice has a matcher, if the members have texts. -/
theorem Matcher.exists_of_declaresChoice {parameters : Value} {given : Options.Given}
    {options : Options} (hparameters : DeclaresChoice parameters "x" type required members)
    (hwritable : ∀ v ∈ members, v.isWritable = true)
    (hoptions : Options.ofGiven given = .ok options) (hend : options.toEnd = true) :
    ∃ m definition, (Matcher.ofTemplate "/{x}" parameters given .standard).outcome = .ok m ∧
      m.options = options ∧ m.IsSole "x" definition ∧
        definition.IsChoice type required members := by
  obtain ⟨declarations, definition, hdeclarations, hdefinition, hchoice⟩ := hparameters
  have hscan : scan "/{x}".toList = [.reference ⟨some '/', false, ['x']⟩] := by decide +kernel
  have hall : definition.isWritable = true := by
    rw [Definition.isWritable, hchoice.constraints_eq]
    exact List.all_eq_true.mpr hwritable
  obtain ⟨m, hm, hmoptions, hsole⟩ := Matcher.exists_isSole hdeclarations hoptions hend hscan
    ⟨rfl, declaredDefinition_eq_ok_iff.mpr ⟨hdefinition, hall⟩⟩
  exact ⟨m, definition, hm, hmoptions, hsole, hchoice⟩

/-- Without a text for each of its members such a template has no matcher. -/
theorem Matcher.outcome_ofTemplate_of_unwritable {parameters : Value} {given : Options.Given}
    {options : Options} (hparameters : DeclaresChoice parameters "x" type required members)
    (hwritable : ∃ v ∈ members, v.isWritable = false)
    (hoptions : Options.ofGiven given = .ok options) (hend : options.toEnd = true) :
    (Matcher.ofTemplate "/{x}" parameters given .standard).outcome = .error .integerTooLong := by
  obtain ⟨declarations, definition, hdeclarations, hdefinition, hchoice⟩ := hparameters
  have hscan : scan "/{x}".toList = [.reference ⟨some '/', false, ['x']⟩] := by decide +kernel
  have hname : decodeText (String.ofList ['x']) = .ok "x" := decodeText_eq_ok_iff.mpr rfl
  have hsome : ¬ definition.isWritable = true := by
    obtain ⟨v, hv, hfalse⟩ := hwritable
    rw [Definition.isWritable, hchoice.constraints_eq]
    intro hall
    exact absurd (List.all_eq_true.mp hall v hv) (by simp [hfalse])
  have hroute : Route.ofTemplate "/{x}" declarations options = .error .integerTooLong := by
    rw [Route.ofTemplate, hscan, resolvePieces, hname]
    simp only [bind, Except.bind, definitionFor_eq (agree_nil declarations),
      declaredDefinition_of_ofValue hdefinition, if_neg hsome]
  have hcompiled : (Compiled.ofTemplate "/{x}" declarations options).outcome =
      .error .integerTooLong := by
    have huniversal : ¬ isUniversal "/{x}" options = true := by
      rw [isUniversal, hend]
      simp
    rw [Compiled.ofTemplate, if_neg huniversal, Run.outcome_bind, hroute]
    rfl
  simp only [outcome_ofTemplate_eq, hoptions, hdeclarations, hcompiled, Except.bind, Except.map]

/-- A value of the type of a choice is accepted when it counts as one of the members. -/
theorem Definition.IsChoice.accepted?_eq (h : definition.IsChoice type required members)
    {encoding decoded : String} (hdecode : decodeText encoding = .ok decoded) {v : Value}
    (hconvert : (Value.text decoded).convertTo type = .ok v) (hnull : v.isNull = false)
    (hsmall : ¬ v.IsHuge) {ofType : Bool} (htype : hasType type v = .ok ofType) :
    definition.accepted? encoding =
      .ok (if ofType && v.isAmong members then some v else none) :=
  Definition.accepted?_of_enum h.constraints_eq hdecode (h.type_eq ▸ hconvert) hnull hsmall
    (h.type_eq ▸ htype)

/-- A text of a choice is a text, whatever its members are. -/
theorem Definition.IsChoice.accepted?_text (h : definition.IsChoice .string required members)
    {encoding decoded : String} (hdecode : decodeText encoding = .ok decoded) :
    definition.accepted? encoding =
      .ok (if (Value.text decoded).isAmong members then some (.text decoded) else none) := by
  have hconvert : (Value.text decoded).convertTo .string = .ok (.text decoded) := rfl
  have htype : hasType .string (.text decoded) = .ok true := rfl
  rw [h.accepted?_eq hdecode hconvert rfl (by simp [Value.IsHuge]) htype, Bool.true_and]

theorem isAmong_texts {s : String} {texts : List String} :
    (Value.text s).isAmong (texts.map .text) ↔ s ∈ texts := by
  simp [Value.isAmong, Value.same, Value.text?]

theorem isWritable_texts {texts : List String} :
    ∀ v ∈ texts.map Value.text, v.isWritable = true :=
  List.forall_mem_map.mpr fun _ _ => rfl

end Choice

/-! ## Encodings of the members -/

private theorem encodes_blank : Text.Encodes "a b".toList "a%20b".toList := by
  have hblank : Text.Escapes (String.utf8EncodeChar ' ') ['%', '2', '0'] :=
    .cons (by decide) .nil
  exact .raw (by decide) (by decide) (.escaped hblank (.raw (by decide) (by decide) .nil))

/-- A template that must take one of several texts matches an encoding of one of them exactly when
the encoding is itself written like one of the texts, up to case. It then gives the text that is
encoded. -/
theorem Matcher.match?_encoded_member {parameters : Value} {given : Options.Given}
    {texts : List String}
    (hparameters : DeclaresChoice parameters "x" .string true (texts.map .text))
    (hoptions : Options.ofGiven given = .ok .standard) :
    ∃ m, (Matcher.ofTemplate "/{x}" parameters given .standard).outcome = .ok m ∧
      ∀ text ∈ texts, ∀ encoding : String, Text.Encodes text.toList encoding.toList →
        (encoding.toList ∈ oneOf false texts →
          (m.match? ("/" ++ encoding)).outcome =
            .ok (some ⟨"/" ++ encoding, [("x", .text text)]⟩)) ∧
        (encoding.toList ∉ oneOf false texts →
          (m.match? ("/" ++ encoding)).outcome = .ok none) := by
  obtain ⟨m, definition, hm, hmoptions, hsole, hchoice⟩ :=
    Matcher.exists_of_declaresChoice hparameters isWritable_texts hoptions rfl
  refine ⟨m, hm, fun text htext encoding hencoding => ?_⟩
  have hlanguage (u : List Char) :
      u ∈ captureLanguage m.options.sensitive definition false (some '/') ↔
        u ∈ oneOf false texts := by
    rw [hchoice.mem_captureLanguage, hmoptions]
    have hne : texts.map Value.text ≠ [] := by simpa using List.ne_nil_of_mem htext
    simp only [List.mem_map, exists_exists_and_eq_and, hne, false_and, or_false]
    rfl
  -- An encoding has no slash that could end the path.
  have hlast : encoding.toList.getLast? ≠ some '/' :=
    fun hlast => hencoding.slash_notMem (List.mem_of_getLast? hlast)
  constructor
  · intro hmember
    have hdecode : decodeText encoding = .ok text := by
      have hdecoded := hencoding.percentDecode?_eq
      rw [String.ofList_toList] at hdecoded
      rw [decodeText_eq, hdecoded]
    have htaken := (hlanguage _).mpr hmember
    rw [hsole.match?_of_mem_captureLanguage (.inl hchoice.required_eq) htaken hlast,
      hchoice.accepted?_text hdecode, if_pos (isAmong_texts.mpr htext)]
    rfl
  · intro hmember
    refine hsole.match?_of_forall_not_takes (.inl hchoice.required_eq) ?_
    rintro u ⟨hu, slash, hslash, hsplit⟩
    have hpath : encoding.toList = u ++ slash := by
      rw [String.toList_append] at hsplit
      exact (List.cons.inj hsplit).2
    rcases hslash with rfl | ⟨-, rfl⟩
    · rw [List.append_nil] at hpath
      exact hmember (hpath ▸ (hlanguage u).mp hu)
    · exact hlast (by rw [hpath, List.getLast?_concat])

/-- A blank may stand in the path as it is, but not as an escape. -/
theorem Matcher.match?_encoded_member_blank :
    ∃ m, (Matcher.ofTemplate "/{x}"
        (.mapping [("x", .mapping [("enum", .list [.text "a b", .text "c"])])]) .none
        .standard).outcome = .ok m ∧
      (m.match? ("/" ++ "a b")).outcome = .ok (some ⟨"/" ++ "a b", [("x", .text "a b")]⟩) ∧
      (m.match? ("/" ++ "a%20b")).outcome = .ok none := by
  have hparameters : DeclaresChoice
      (.mapping [("x", .mapping [("enum", .list [.text "a b", .text "c"])])]) "x" .string
      true (["a b", "c"].map .text) := ⟨_, _, rfl, rfl, rfl, rfl, rfl⟩
  have hoptions : Options.ofGiven .none = .ok .standard := rfl
  obtain ⟨m, hm, hmatch⟩ := Matcher.match?_encoded_member hparameters hoptions
  have hself : Text.Encodes "a b".toList "a b".toList := .refl (by decide) (by decide)
  refine ⟨m, hm, (hmatch "a b" (by simp) "a b" hself).1 ⟨"a b", by simp, mem_word_self _⟩,
    (hmatch "a b" (by simp) "a%20b" encodes_blank).2 ?_⟩
  -- Neither member has as many characters.
  rintro ⟨w, hw, hword⟩
  have hlength := List.Forall₂.length_eq hword
  rcases List.mem_pair.mp hw with rfl | rfl
  · exact absurd hlength (by decide)
  · exact absurd hlength (by decide)

/-- The escape of a blank stands for the member with the blank, yet the path does not match. Without
the enumeration it does, and the text is decoded. -/
theorem Matcher.match?_escaped_blank :
    Text.Encodes "a b".toList "a%20b".toList ∧
    (∃ m, (Matcher.ofTemplate "/{x}" (.mapping [("x", .mapping [("enum", .list [.text "a b"])])])
        .none .standard).outcome = .ok m ∧ (m.match? "/a%20b").outcome = .ok none) ∧
    ∃ m, (Matcher.ofTemplate "/{x}" .null .none .standard).outcome = .ok m ∧
      (m.match? "/a%20b").outcome = .ok (some ⟨"/a%20b", [("x", .text "a b")]⟩) :=
  ⟨encodes_blank, ⟨_, rfl, rfl⟩, ⟨_, rfl, rfl⟩⟩

/-! ## Members that are written without encodings -/

/-- A member of a choice of the given type that stands in a path as it is: a text without percent
signs that does not end with a slash, an integer with a finite floating-point value, or a truth
value. -/
def Value.IsPlainMember : ParameterType → Value → Prop
  | .string, .text s => '%' ∉ s.toList ∧ s.toList.getLast? ≠ some '/'
  | .integer, .int n => n.natAbs < Number.Binary64.overflowThreshold
  | .boolean, .bool _ => True
  | _, _ => False

/-- The texts of a member in a path: its own text, for a truth value up to case unless case
counts. -/
def memberLanguage (sensitive : Bool) (type : ParameterType) (v : Value) : Language Char :=
  word (sensitive || type != .boolean) v.pathText.toList

theorem mem_word_of_mem_memberLanguage {sensitive : Bool} {type : ParameterType}
    {v : Value} {u : List Char}
    (hu : u ∈ memberLanguage sensitive type v) : u ∈ word sensitive v.pathText.toList := by
  rw [memberLanguage] at hu
  cases hsensitive : sensitive || type != .boolean with
  | true =>
    rw [hsensitive, mem_word_true] at hu
    rw [hu]
    exact mem_word_self _
  | false =>
    obtain ⟨rfl, -⟩ := Bool.or_eq_false_iff.mp hsensitive
    rwa [hsensitive] at hu

theorem not_isHuge_of_natAbs_lt {n : Int}
    (h : n.natAbs < Number.Binary64.overflowThreshold) : ¬ (Value.int n).IsHuge := by
  rintro ⟨k, hk, hhuge⟩
  obtain rfl := Value.int.inj hk
  omega

theorem isShort_of_lt_overflowThreshold {n : Int}
    (h : n.natAbs < Number.Binary64.overflowThreshold) : Number.isShort n = true :=
  have hbound : Number.Binary64.overflowThreshold ≤ 2 ^ 1024 := by decide +kernel
  Number.isShort_of_natAbs_lt (h.trans_le hbound)

/-- An integer with a finite floating-point value is read back from its text. -/
theorem readInteger?_of_natAbs_lt {n : Int}
    (h : n.natAbs < Number.Binary64.overflowThreshold) :
    Number.readInteger? (toString n).toList = some n :=
  Number.readInteger?_toString (isShort_of_lt_overflowThreshold h)

/-- A truth value is read from its text in any case. -/
theorem readBoolean?_of_mem_word {sensitive b : Bool} {text : List Char}
    (h : text ∈ word sensitive (Value.bool b).pathText.toList) : readBoolean? text = some b := by
  rw [readBoolean?, map_toLower_of_mem_word h]
  cases b <;> decide

section PlainChoice

variable {definition : Definition Value} {type : ParameterType} {required : Bool}
  {members : List Value} {sensitive : Bool} {text : List Char}

/-- The text of an integer has no letters. -/
theorem Value.mem_pathText_int {n : Int} {c : Char} (h : c ∈ (Value.int n).pathText.toList) :
    c = '-' ∨ c.isDigit := by
  rw [Value.pathText_int, Number.toList_toString, List.mem_append] at h
  rcases h with hsign | hdigit
  · rw [Number.signChars] at hsign
    split at hsign
    · exact .inl (List.mem_singleton.mp hsign)
    · exact absurd hsign List.not_mem_nil
  · exact .inr (Number.isDigit_of_mem_digitsOf hdigit)

/-- The text of a plain member has no percent signs, and no slash at the end. -/
theorem Value.IsPlainMember.pathText {v : Value} (h : v.IsPlainMember type) :
    '%' ∉ v.pathText.toList ∧ v.pathText.toList.getLast? ≠ some '/' := by
  cases type with
  | string =>
    cases v with
    | text s => exact h
    | _ => exact h.elim
  | integer =>
    cases v with
    | int n =>
      have hother {c : Char} (hminus : c ≠ '-') (hdigit : c.isDigit = false) :
          c ∉ (Value.int n).pathText.toList := by
        intro hc
        rcases Value.mem_pathText_int hc with rfl | hc
        · exact hminus rfl
        · exact Bool.false_ne_true (hdigit.symm.trans hc)
      exact ⟨hother (by decide) (by decide), fun hlast =>
        hother (by decide) (by decide) (List.mem_of_getLast? hlast)⟩
    | _ => exact h.elim
  | boolean =>
    cases v with
    | bool b => cases b <;> decide
    | _ => exact h.elim
  | number => exact absurd h (by cases v <;> exact id)
  | date => exact absurd h (by cases v <;> exact id)

theorem Value.IsPlainMember.isWritable {v : Value} (h : v.IsPlainMember type) :
    v.isWritable = true := by
  cases v with
  | text s => rfl
  | bool b => rfl
  | int n =>
    cases type with
    | integer => exact isShort_of_lt_overflowThreshold h
    | _ => exact h.elim
  | _ => exact absurd h (by cases type <;> exact id)

/-- A text of a choice of plain members decodes to itself, and does not end with a slash. -/
theorem Definition.IsChoice.text_of_plain (h : definition.IsChoice type required members)
    (hplain : ∀ v ∈ members, v.IsPlainMember type)
    (htext : text ∈ captureLanguage sensitive definition false (some '/')) :
    decodeText (String.ofList text) = .ok (String.ofList text) ∧ text.getLast? ≠ some '/' := by
  have hcharacters : '%' ∉ text ∧ text.getLast? ≠ some '/' := by
    rcases h.mem_captureLanguage.mp htext with ⟨v, hv, htext⟩ | ⟨-, rfl⟩
    · obtain ⟨hpercent, hlast⟩ := (hplain v hv).pathText
      exact ⟨percent_notMem_of_mem_word htext hpercent, getLast?_of_mem_word htext hlast⟩
    · exact ⟨List.not_mem_nil, by simp⟩
  exact ⟨decodeText_of_percent_notMem (String.toList_ofList ▸ hcharacters.1), hcharacters.2⟩

/-- Without members nothing is accepted. -/
theorem Definition.IsChoice.accepted?_nil (h : definition.IsChoice type required []) :
    definition.accepted? "" = .ok none := by
  have hdecode : decodeText "" = .ok "" := rfl
  have hconvert : (Value.text "").convertTo type = .ok (.text "") := by
    cases type <;> rfl
  obtain ⟨ofType, htype⟩ : ∃ ofType, hasType type (.text "") = .ok ofType := by
    cases type <;> exact ⟨_, rfl⟩
  rw [h.accepted?_eq hdecode hconvert rfl (by simp [Value.IsHuge]) htype, Value.isAmong,
    List.any_nil, Bool.and_false]
  rfl

/-- A text is accepted when it is one of the members. -/
theorem Definition.IsChoice.accepted?_of_texts (h : definition.IsChoice .string required members)
    (hplain : ∀ v ∈ members, v.IsPlainMember .string) {s : String}
    (hdecode : decodeText s = .ok s) :
    ∃ result, definition.accepted? s = .ok result ∧
      ∀ v, result = some v ↔ v ∈ members ∧ s.toList ∈ memberLanguage sensitive .string v := by
  have hmember {v : Value} (hv : v ∈ members) : ∃ t, v = .text t := by
    have hv := hplain v hv
    cases v with
    | text t => exact ⟨t, rfl⟩
    | _ => exact hv.elim
  have hamong : (Value.text s).isAmong members ↔ .text s ∈ members := by
    rw [Value.isAmong, List.any_eq_true]
    constructor
    · rintro ⟨v, hv, hsame⟩
      obtain ⟨t, rfl⟩ := hmember hv
      have hst : t = s := by simpa [Value.same, Value.text?] using hsame
      exact hst ▸ hv
    · intro hs
      exact ⟨_, hs, (Value.IsProper.text s).same_self⟩
  refine ⟨_, h.accepted?_text hdecode, fun v => ?_⟩
  rw [memberLanguage, show (ParameterType.string != .boolean) = true from rfl, Bool.or_true,
    mem_word_true]
  constructor
  · intro hv
    split at hv
    · rename_i hs
      obtain rfl := Option.some.inj hv
      exact ⟨hamong.mp hs, rfl⟩
    · exact absurd hv (by simp)
  · rintro ⟨hv, hs⟩
    obtain ⟨t, rfl⟩ := hmember hv
    obtain rfl : s = t := String.toList_inj.mp hs
    rw [if_pos (hamong.mpr hv)]

/-- The text of an integer among the members is accepted as that integer. -/
theorem Definition.IsChoice.accepted?_of_integers
    (h : definition.IsChoice .integer required members)
    (hplain : ∀ v ∈ members, v.IsPlainMember .integer) {n : Int} (hmem : .int n ∈ members)
    (hdecode : decodeText (toString n) = .ok (toString n)) :
    ∃ result, definition.accepted? (toString n) = .ok result ∧
      ∀ v, result = some v ↔
        v ∈ members ∧ (toString n).toList ∈ memberLanguage sensitive .integer v := by
  have hn : n.natAbs < Number.Binary64.overflowThreshold := hplain _ hmem
  have hconvert : (Value.text (toString n)).convertTo .integer = .ok (.int n) := by
    rw [Value.convertTo, readText, readInteger?_of_natAbs_lt hn]
    rfl
  have hamong : (Value.int n).isAmong members = true :=
    List.any_eq_true.mpr ⟨_, hmem, (Value.IsProper.int n).same_self⟩
  have haccepted : definition.accepted? (toString n) = .ok (some (.int n)) := by
    rw [h.accepted?_eq hdecode hconvert rfl (not_isHuge_of_natAbs_lt hn) rfl, hamong]
    rfl
  refine ⟨_, haccepted, fun v => ?_⟩
  rw [memberLanguage, show (ParameterType.integer != .boolean) = true from rfl, Bool.or_true,
    mem_word_true]
  constructor
  · intro hv
    obtain rfl := Option.some.inj hv
    exact ⟨hmem, by rw [Value.pathText_int]⟩
  · rintro ⟨hv, htext⟩
    have hk := hplain v hv
    cases v with
    | int k =>
      -- Two integers with the same text are read as the same integer.
      rw [Value.pathText_int] at htext
      have hread := readInteger?_of_natAbs_lt hn
      rw [htext, readInteger?_of_natAbs_lt hk] at hread
      rw [Option.some.inj hread]
    | _ => exact hk.elim

/-- A text of a truth value among the members is accepted as that truth value. -/
theorem Definition.IsChoice.accepted?_of_booleans
    (h : definition.IsChoice .boolean required members)
    (hplain : ∀ v ∈ members, v.IsPlainMember .boolean) {b : Bool} (hmem : .bool b ∈ members)
    (htext : text ∈ word sensitive (Value.bool b).pathText.toList)
    (hdecode : decodeText (String.ofList text) = .ok (String.ofList text)) :
    ∃ result, definition.accepted? (String.ofList text) = .ok result ∧
      ∀ v, result = some v ↔ v ∈ members ∧ text ∈ memberLanguage sensitive .boolean v := by
  have hconvert : (Value.text (String.ofList text)).convertTo .boolean = .ok (.bool b) := by
    rw [Value.convertTo, readText, String.toList_ofList, readBoolean?_of_mem_word htext]
    rfl
  have hamong : (Value.bool b).isAmong members = true :=
    List.any_eq_true.mpr ⟨_, hmem, (Value.IsProper.bool b).same_self⟩
  have haccepted : definition.accepted? (String.ofList text) = .ok (some (.bool b)) := by
    rw [h.accepted?_eq hdecode hconvert rfl (by simp [Value.IsHuge]) rfl, hamong]
    rfl
  refine ⟨_, haccepted, fun v => ?_⟩
  rw [memberLanguage, show (ParameterType.boolean != .boolean) = false from rfl, Bool.or_false]
  constructor
  · intro hv
    obtain rfl := Option.some.inj hv
    exact ⟨hmem, htext⟩
  · rintro ⟨hv, htext'⟩
    have hplain := hplain v hv
    cases v with
    | bool b' =>
      have hread := (readBoolean?_of_mem_word htext).symm.trans (readBoolean?_of_mem_word htext')
      rw [Option.some.inj hread]
    | _ => exact hplain.elim

/-- What a choice of plain members takes is accepted as a member that is written so, if there is
one. -/
theorem Definition.IsChoice.accepted?_of_plain (h : definition.IsChoice type required members)
    (hplain : ∀ v ∈ members, v.IsPlainMember type)
    (htext : text ∈ captureLanguage sensitive definition false (some '/')) :
    ∃ result, definition.accepted? (String.ofList text) = .ok result ∧
      ∀ v, result = some v ↔ v ∈ members ∧ text ∈ memberLanguage sensitive type v := by
  have hdecode := (h.text_of_plain hplain htext).1
  rcases h.mem_captureLanguage.mp htext with ⟨v, hv, hword⟩ | ⟨rfl, rfl⟩
  · have hmember := hplain v hv
    cases type with
    | string =>
      have htexts : ∃ result, definition.accepted? (String.ofList text) = .ok result ∧
          ∀ v, result = some v ↔ v ∈ members ∧
            (String.ofList text).toList ∈ memberLanguage sensitive .string v :=
        h.accepted?_of_texts hplain hdecode
      rwa [String.toList_ofList] at htexts
    | integer =>
      cases v with
      | int n =>
        have huncased : ∀ c ∈ (Value.int n).pathText.toList,
            Regex.CaseMode.isCased .ascii c.toNat = false := by
          intro c hc
          rcases Value.mem_pathText_int hc with rfl | hc
          · decide
          · exact isCased_of_isDigit hc
        obtain rfl := eq_of_mem_word hword huncased
        rw [Value.pathText_int, String.ofList_toList] at hdecode ⊢
        exact h.accepted?_of_integers hplain hv hdecode
      | _ => exact hmember.elim
    | boolean =>
      cases v with
      | bool b => exact h.accepted?_of_booleans hplain hv hword hdecode
      | _ => exact hmember.elim
    | number => exact absurd hmember (by cases v <;> exact id)
    | date => exact absurd hmember (by cases v <;> exact id)
  · exact ⟨none, h.accepted?_nil, by simp⟩

end PlainChoice

/-! ## The paths of the members -/

/-- A template that must take a member of an enumeration matches the paths of the members: a slash,
the text of the member, and a slash at the end unless the match is strict. It then gives that
member. -/
theorem Matcher.match?_eq_some_iff_member {parameters : Value} {given : Options.Given}
    {options : Options} {type : ParameterType} {members : List Value}
    (hparameters : DeclaresChoice parameters "x" type true members)
    (hplain : ∀ v ∈ members, v.IsPlainMember type)
    (hoptions : Options.ofGiven given = .ok options) (hend : options.toEnd = true) :
    ∃ m, (Matcher.ofTemplate "/{x}" parameters given .standard).outcome = .ok m ∧
      ∀ path : String, ∃ result, (m.match? path).outcome = .ok result ∧
        ∀ r, result = some r ↔ ∃ v ∈ members, ∃ text ∈ memberLanguage options.sensitive type v,
          ∃ slash, (slash = [] ∨ (options.strict = false ∧ slash = ['/'])) ∧
            path.toList = '/' :: text ++ slash ∧ r = ⟨path, [("x", v)]⟩ := by
  obtain ⟨m, definition, hm, rfl, hsole, hchoice⟩ :=
    Matcher.exists_of_declaresChoice hparameters (fun v hv => (hplain v hv).isWritable) hoptions
      hend
  refine ⟨m, hm, fun path => ?_⟩
  -- The texts of a member are among those that the reference may take.
  have htakes {v : Value} (hv : v ∈ members) {text slash : List Char}
      (htext : text ∈ memberLanguage m.options.sensitive type v)
      (hslash : slash = [] ∨ (m.options.strict = false ∧ slash = ['/']))
      (hpath : path.toList = '/' :: text ++ slash) :
      MayTake m.options definition path.toList text := by
    have hword := mem_word_of_mem_memberLanguage htext
    exact ⟨hchoice.mem_captureLanguage.mpr (.inl ⟨v, hv, hword⟩), slash, hslash, hpath⟩
  by_cases hexists : ∃ text, MayTake m.options definition path.toList text
  · obtain ⟨text, htext⟩ := hexists
    have hunique {text' : List Char} (htext' : MayTake m.options definition path.toList text') :
        text' = text :=
      htext'.unique (fun u hu => (hchoice.text_of_plain hplain hu).2) htext
    obtain ⟨result, hresult, hmember⟩ := hchoice.accepted?_of_plain hplain htext.1
    refine ⟨result.map fun v => ⟨path, [("x", v)]⟩, ?_, ?_⟩
    · rw [hsole.match?_of_takes (.inl hchoice.required_eq) htext fun _ => hunique, hresult]
      rfl
    · intro r
      rw [Option.map_eq_some_iff]
      constructor
      · rintro ⟨v, hv, rfl⟩
        obtain ⟨hmem, hlanguage⟩ := (hmember v).mp hv
        obtain ⟨slash, hslash, hpath⟩ := htext.2
        exact ⟨v, hmem, text, hlanguage, slash, hslash, hpath, rfl⟩
      · rintro ⟨v, hmem, text', hlanguage, slash, hslash, hpath, rfl⟩
        obtain rfl := hunique (htakes hmem hlanguage hslash hpath)
        exact ⟨v, (hmember v).mpr ⟨hmem, hlanguage⟩, rfl⟩
  · have hnone := hsole.match?_of_forall_not_takes (.inl hchoice.required_eq)
      (not_exists.mp hexists)
    refine ⟨none, hnone, fun r => ?_⟩
    constructor
    · exact fun h => absurd h (by simp)
    · rintro ⟨v, hmem, text, hlanguage, slash, hslash, hpath, rfl⟩
      exact absurd ⟨text, htakes hmem hlanguage hslash hpath⟩ hexists

/-- A member that is the beginning of another one does not stand in its way, and a slash within a
member is not the one at the end. -/
theorem Matcher.match?_eq_some_iff_member_slash :
    ∃ m, (Matcher.ofTemplate "/{x}"
        (.mapping [("x", .mapping [("enum", .list [.text "a", .text "a|b", .text "a/(b"])])]) .none
        .standard).outcome = .ok m ∧
      (m.match? "/a/(b/").outcome = .ok (some ⟨"/a/(b/", [("x", .text "a/(b")]⟩) ∧
      (m.match? "/A").outcome = .ok none := by
  have hparameters : DeclaresChoice
      (.mapping [("x", .mapping [("enum", .list [.text "a", .text "a|b", .text "a/(b"])])]) "x"
      .string true [.text "a", .text "a|b", .text "a/(b"] := ⟨_, _, rfl, rfl, rfl, rfl, rfl⟩
  have hplain : ∀ v ∈ [Value.text "a", .text "a|b", .text "a/(b"], v.IsPlainMember .string := by
    have htext {s : String} (h : '%' ∉ s.toList ∧ s.toList.getLast? ≠ some '/') :
        Value.IsPlainMember .string (.text s) := h
    simp only [List.forall_mem_cons]
    exact ⟨htext (by decide), htext (by decide), htext (by decide), by simp⟩
  have hoptions : Options.ofGiven .none = .ok .standard := rfl
  obtain ⟨m, hm, hmatch⟩ :=
    Matcher.match?_eq_some_iff_member hparameters hplain hoptions rfl
  refine ⟨m, hm, ?_, ?_⟩
  · obtain ⟨result, hresult, hmember⟩ := hmatch "/a/(b/"
    rw [hresult, (hmember _).mpr ⟨.text "a/(b", by simp, "a/(b".toList, mem_word_true.mpr rfl,
      ['/'], .inr ⟨rfl, rfl⟩, rfl, rfl⟩]
  · obtain ⟨result, hresult, hmember⟩ := hmatch "/A"
    cases result with
    | none => exact hresult
    | some r =>
      -- No member has the text, with or without a slash at the end.
      obtain ⟨v, hv, text, htext, slash, hslash, hpath, -⟩ := (hmember r).mp rfl
      obtain rfl := mem_word_true.mp htext
      simp only [List.mem_cons, List.not_mem_nil, or_false] at hv
      rcases hslash with rfl | ⟨-, rfl⟩ <;> rcases hv with rfl | rfl | rfl <;>
        exact absurd hpath (by decide)

end RouteTemplate
