/-
# Choices of numbers and dates

A path is compared with the texts of the members of an enumeration, and the value that is read from
it with the members as they were declared. Where reading a text gives another value than the member,
the member cannot be chosen. An integer is read as the floating-point value nearest to it, which may
be another number, and a date is never the text that it is read from.

## Main definitions

* `Value.Denotes` — the floating-point value that is read from the text of a number

## Main results

* `Value.Denotes.readBinary?_pathText` — the text of a number is read as the value that it denotes
* `Value.Denotes.isAmong` — a value that is not rounded counts as one of the members
* `Matcher.match?_converted_member` — which numbers can be chosen, and that no date can
-/

import RouteTemplate.Proofs.Matching.Enumeration
import RouteTemplate.Proofs.Number.Rendering
import RouteTemplate.Proofs.Template.DateText

namespace RouteTemplate

open Number (Binary64)
open Template

/-! ## Numbers -/

/-- The floating-point value that the text of a finite number denotes: the one nearest to an
integer, and otherwise the number itself, but for the sign of zero. -/
inductive Value.Denotes : Value → Binary64 → Prop
  | int {n : Int} (h : n.natAbs < 2 ^ 1023) : Denotes (.int n) (.nearest (n < 0) n.natAbs 1)
  | float {x : Binary64} (h : x.IsRegular) :
      Denotes (.float x) (if x.isZero then .signedZero false else x)

namespace Value.Denotes

variable {v : Value} {y : Binary64}

theorem isFinite (h : v.Denotes y) : y.isFinite = true := by
  cases h with
  | @int n hn =>
    have hrat : (n.natAbs : ℚ) / (1 : Nat) < 2 ^ (1023 : Int) := by
      rw [Nat.cast_one, div_one]
      exact_mod_cast hn
    exact Binary64.isFinite_nearest _ one_pos hrat
  | @float x hx =>
    obtain ⟨negative, m, e, rfl⟩ := hx.exists_finite
    split <;> rfl

/-- A number that denotes a value has a text. -/
theorem isWritable (h : v.Denotes y) : v.isWritable = true := by
  cases h with
  | @int n hn =>
    have hbound : 2 ^ 1023 ≤ 2 ^ 1024 := by decide +kernel
    exact Number.isShort_of_natAbs_lt (hn.trans_le hbound)
  | @float x hx =>
    rw [Value.isWritable, Option.all_eq_true]
    exact fun n hn => Number.isShort_of_natAbs_lt (hx.natAbs_lt hn)

/-- The text of a number is that of an integer, or of a floating-point value. -/
theorem readBinary?_pathText (h : v.Denotes y) :
    Number.readBinary? v.pathText.toList = some y ∧ Number.IsPlain v.pathText.toList := by
  cases h with
  | @int n hn =>
    rw [pathText_int]
    exact ⟨Number.readBinary?_toString_of_lt hn, Number.isPlain_toString n⟩
  | @float x hx =>
    rw [pathText]
    cases hint : x.toInt? with
    | some n => exact ⟨Binary64.readBinary?_toString_of_toInt? hx hint, Number.isPlain_toString n⟩
    | none =>
      -- Zero is an integer, so no sign of zero is lost here.
      have hzero : x.isZero = false := by
        rw [Bool.eq_false_iff]
        intro hzero
        have hrat : x.toRat? = some ((0 : Int) : ℚ) := by
          rw [Binary64.toRat?_of_isZero hzero, Int.cast_zero]
        exact Option.some_ne_none 0 ((Binary64.toInt?_eq_some_iff.mpr hrat).symm.trans hint)
      rw [hzero]
      exact ⟨Binary64.readBinary?_render hx, Binary64.isPlain_render hx⟩

/-- A floating-point value denotes its own number. -/
theorem toRat?_float {x : Binary64} (h : (Value.float x).Denotes y) : y.toRat? = x.toRat? := by
  cases h
  split
  · rename_i hzero
    rw [Binary64.toRat?_of_isZero hzero, Binary64.toRat?_of_isZero rfl]
  · rfl

/-- An integer of at most 53 bits denotes itself. -/
theorem toRat?_int {n : Int} (h : (Value.int n).Denotes y) (hn : n.natAbs < 2 ^ 53) :
    y.toRat? = some (n : ℚ) := by
  cases h
  rw [Binary64.toRat?_nearest_of_lt _ hn, Nat.cast_natAbs, Int.cast_abs]
  by_cases hnegative : n < 0
  · have habs : |(n : ℚ)| = -n := abs_of_neg (Int.cast_lt_zero.mpr hnegative)
    simp [hnegative, habs]
  · have habs : |(n : ℚ)| = n := abs_of_nonneg (Int.cast_nonneg (not_lt.mp hnegative))
    simp [hnegative, habs]

/-- A member that denotes its own number counts as one of the members. -/
theorem isAmong (h : v.Denotes y) {members : List Value} (hv : v ∈ members)
    (hexact : ∀ n, v = .int n → 2 ^ 53 ≤ n.natAbs → y.toRat? = some (n : ℚ)) :
    (Value.float y).isAmong members := by
  have hsame : (Value.float y).same v := by
    cases v with
    | int n =>
      have hrat : y.toRat? = some (n : ℚ) := by
        by_cases hn : n.natAbs < 2 ^ 53
        · exact h.toRat?_int hn
        · exact hexact n rfl (not_lt.mp hn)
      exact same_of_rat? rfl rfl hrat rfl
    | float x =>
      obtain ⟨p, hp⟩ : ∃ p, x.toRat? = some p := by
        cases h with
        | float hx =>
          obtain ⟨negative, m, e, rfl⟩ := hx.exists_finite
          exact ⟨_, rfl⟩
      exact same_of_rat? rfl rfl (h.toRat?_float.trans hp) hp
    | _ => cases h
  exact List.any_eq_true.mpr ⟨v, hv, hsame⟩

end Value.Denotes

/-! ## Choosing -/

namespace Definition.IsChoice

variable {definition : Definition Value} {required : Bool} {members : List Value}

/-- What a number denotes is accepted when it counts as one of the members. -/
theorem accepted?_of_denotes (h : definition.IsChoice .number required members) {v : Value}
    {y : Binary64} (hv : v.Denotes y) : definition.accepted? v.pathText =
      .ok (if (Value.float y).isAmong members then some (.float y) else none) := by
  obtain ⟨hread, hplain⟩ := hv.readBinary?_pathText
  have hdecode : decodeText v.pathText = .ok v.pathText :=
    decodeText_of_percent_notMem fun hpercent => absurd (hplain _ hpercent) (by decide)
  have hconvert : (Value.text v.pathText).convertTo .number = .ok (.float y) := by
    rw [Value.convertTo, readText, hread]
    rfl
  have htype : hasType .number (.float y) = .ok true := by
    rw [hasType, isFiniteNumber, hv.isFinite]
  rw [h.accepted?_eq hdecode hconvert rfl (by simp [Value.IsHuge]) htype, Bool.true_and]

/-- A date is not the text that it is read from, so none is accepted where the members are texts. -/
theorem accepted?_of_mem_dateLanguage {texts : List String}
    (h : definition.IsChoice .date required (texts.map .text)) {text : String}
    (htext : text.toList ∈ dateLanguage false) : definition.accepted? text = .ok none := by
  have hdecode : decodeText text = .ok text := by
    have hdecoded := percentDecode?_of_mem_dateLanguage htext
    rw [String.ofList_toList] at hdecoded
    exact decodeText_eq_ok_iff.mpr hdecoded
  obtain ⟨read, hread⟩ := exists_read_of_mem_dateLanguage htext
  cases read with
  | none =>
    have hconvert : (Value.text text).convertTo .date = .ok (.text text) := by
      rw [Value.convertTo, readText, hread]
      rfl
    rw [h.accepted?_eq hdecode hconvert rfl (by simp [Value.IsHuge]) rfl]
    rfl
  | some date =>
    have hconvert : (Value.text text).convertTo .date = .ok (.date date) := by
      rw [Value.convertTo, readText, hread]
      rfl
    have hamong : (Value.date date).isAmong (texts.map .text) = false := by
      rw [Value.isAmong, List.any_map, List.any_eq_false]
      intro text htext
      simp [Value.same]
    rw [h.accepted?_eq hdecode hconvert rfl (by simp [Value.IsHuge]) rfl, hamong]
    rfl

end Definition.IsChoice

namespace Matcher

variable {given : Options.Given}

/-- The text of a member is taken as a whole, and accepted or not. -/
theorem IsSole.match?_pathText {m : Matcher} {name : String} {definition : Definition Value}
    {type : ParameterType} {required : Bool} {members : List Value}
    (h : m.IsSole name definition) (hchoice : definition.IsChoice type required members) {v : Value}
    (hv : v ∈ members) (hne : v.pathText ≠ "")
    (hlast : v.pathText.toList.getLast? ≠ some '/') :
    (m.match? ("/" ++ v.pathText)).outcome = (definition.accepted? v.pathText).map
      (Option.map fun w => ⟨"/" ++ v.pathText, [(name, w)]⟩) :=
  h.match?_of_mem_captureLanguage (.inr hne)
    (hchoice.mem_captureLanguage.mpr (.inl ⟨v, hv, mem_word_self _⟩)) hlast

/-- The text of a number gives what the number denotes, when that counts as one of the members. -/
theorem IsSole.match?_of_denotes {m : Matcher} {definition : Definition Value} {required : Bool}
    {members : List Value} (h : m.IsSole "x" definition)
    (hchoice : definition.IsChoice .number required members) {v : Value} (hv : v ∈ members)
    {y : Binary64} (hy : v.Denotes y) : (m.match? ("/" ++ v.pathText)).outcome =
      .ok (if (Value.float y).isAmong members then some ⟨"/" ++ v.pathText, [("x", .float y)]⟩
        else none) := by
  obtain ⟨hread, hplain⟩ := hy.readBinary?_pathText
  have hne : v.pathText ≠ "" := by
    intro hempty
    have hnone : Number.readBinary? "".toList = none := rfl
    rw [hempty, hnone] at hread
    exact absurd hread (by simp)
  have hlast : v.pathText.toList.getLast? ≠ some '/' := fun hlast =>
    absurd (hplain _ (List.mem_of_getLast? hlast)) (by decide)
  rw [h.match?_pathText hchoice hv hne hlast, hchoice.accepted?_of_denotes hy]
  split <;> rfl

/-- The text of a date gives nothing. -/
theorem IsSole.match?_of_mem_dateLanguage {m : Matcher} {definition : Definition Value}
    {required : Bool} {texts : List String} (h : m.IsSole "x" definition)
    (hchoice : definition.IsChoice .date required (texts.map .text)) {text : String}
    (htext : text ∈ texts) (hdate : text.toList ∈ dateLanguage false) :
    (m.match? ("/" ++ text)).outcome = .ok none := by
  have hlast : text.toList.getLast? ≠ some '/' := fun hlast =>
    notMem_of_mem_dateLanguage (by decide) (by decide) (by decide) hdate
      (List.mem_of_getLast? hlast)
  have hne : text ≠ "" := by
    rintro rfl
    exact nil_notMem_dateLanguage hdate
  have hpathText : (Value.text text).pathText = text := rfl
  have hmatch := h.match?_pathText hchoice (List.mem_map_of_mem htext) (hpathText.symm ▸ hne)
    (hpathText.symm ▸ hlast)
  rw [hpathText, hchoice.accepted?_of_mem_dateLanguage hdate] at hmatch
  exact hmatch

/-- A template that takes one of several numbers matches the text of a member when the value that is
read from it counts as a member. Only an integer that is no floating-point value may be refused. A
template that takes one of several dates, each given as a text, matches none of them. There is no
matcher when a member has no text, but a number that denotes a value has one. -/
theorem match?_converted_member (hoptions : Options.ofGiven given = .ok .standard) :
    (∀ parameters required members, DeclaresChoice parameters "x" .number required members →
      ((∃ v ∈ members, v.isWritable = false) →
        (ofTemplate "/{x}" parameters given .standard).outcome = .error .integerTooLong) ∧
      ((∀ v ∈ members, v.isWritable = true) →
        ∃ m, (ofTemplate "/{x}" parameters given .standard).outcome = .ok m ∧
          ∀ v ∈ members, ∀ y, v.Denotes y →
            ((Value.float y).isAmong members →
              (m.match? ("/" ++ v.pathText)).outcome =
                .ok (some ⟨"/" ++ v.pathText, [("x", .float y)]⟩)) ∧
            (¬ (Value.float y).isAmong members →
              (m.match? ("/" ++ v.pathText)).outcome = .ok none ∧
                ∃ n, v = .int n ∧ 2 ^ 53 ≤ n.natAbs ∧ y.toRat? ≠ some (n : ℚ)))) ∧
    ∀ parameters required (texts : List String),
      DeclaresChoice parameters "x" .date required (texts.map .text) →
        ∃ m, (ofTemplate "/{x}" parameters given .standard).outcome = .ok m ∧
          ∀ text ∈ texts, text.toList ∈ dateLanguage false →
            (m.match? ("/" ++ text)).outcome = .ok none := by
  constructor
  · intro parameters required members hparameters
    refine ⟨fun hwritable => outcome_ofTemplate_of_unwritable hparameters hwritable hoptions rfl,
      fun hwritable => ?_⟩
    obtain ⟨m, definition, hm, -, hsole, hchoice⟩ :=
      exists_of_declaresChoice hparameters hwritable hoptions rfl
    refine ⟨m, hm, fun v hv y hy => ?_⟩
    have hmatch := hsole.match?_of_denotes hchoice hv hy
    constructor
    · intro hamong
      rwa [if_pos hamong] at hmatch
    · intro hamong
      rw [if_neg hamong] at hmatch
      refine ⟨hmatch, ?_⟩
      -- A member that denotes its own number would count as one.
      by_contra hexact
      refine hamong (hy.isAmong hv fun n hn hlong => ?_)
      exact by_contra fun hne => hexact ⟨n, hn, hlong, hne⟩
  · intro parameters required texts hparameters
    obtain ⟨m, definition, hm, -, hsole, hchoice⟩ :=
      exists_of_declaresChoice hparameters isWritable_texts hoptions rfl
    exact ⟨m, hm, fun text htext hdate => hsole.match?_of_mem_dateLanguage hchoice htext hdate⟩

private theorem mem_dateLanguage_november :
    "Sun, 06 Nov 1994 08:49:37 GMT".toList ∈ dateLanguage false := by
  have hsplit : "Sun, 06 Nov 1994 08:49:37 GMT".toList =
      "Sun".toList ++ (", ".toList ++ ("06".toList ++ (" ".toList ++ ("Nov".toList ++
        (" ".toList ++ ("1994".toList ++ (" ".toList ++ ("08".toList ++ (":".toList ++
          ("49".toList ++ (":".toList ++ ("37".toList ++ " GMT".toList)))))))))))) := by
    decide
  have hday : "Sun".toList ∈ oneOf false dayNames := ⟨"Sun", by decide, mem_word_self _⟩
  have hmonth : "Nov".toList ∈ oneOf false monthNames := ⟨"Nov", by decide, mem_word_self _⟩
  have hdigits : "06".toList ∈ digitsOf 2 ∧ "1994".toList ∈ digitsOf 4 :=
    ⟨⟨rfl, List.all_eq_true.mp rfl⟩, rfl, List.all_eq_true.mp rfl⟩
  have hhour : "08".toList ∈ twoDigitsBelow 24 :=
    ⟨'0', '8', by decide, by decide, by decide, by decide⟩
  have hminute : "49".toList ∈ twoDigitsBelow 60 :=
    ⟨'4', '9', by decide, by decide, by decide, by decide⟩
  have hsecond : "37".toList ∈ twoDigitsBelow 60 :=
    ⟨'3', '7', by decide, by decide, by decide, by decide⟩
  have hword (w : List Char) : w ∈ word false w := mem_word_self w
  rw [hsplit, dateLanguage]
  simp only [List.prod_cons, List.prod_nil, mul_one]
  refine Language.append_mem_mul hday (Language.append_mem_mul (hword _) ?_)
  refine Language.append_mem_mul hdigits.1 (Language.append_mem_mul (hword _) ?_)
  refine Language.append_mem_mul hmonth (Language.append_mem_mul (hword _) ?_)
  refine Language.append_mem_mul hdigits.2 (Language.append_mem_mul (hword _) ?_)
  refine Language.append_mem_mul hhour (Language.append_mem_mul (hword _) ?_)
  refine Language.append_mem_mul hminute (Language.append_mem_mul (hword _) ?_)
  exact Language.append_mem_mul hsecond (hword _)

/-- The integer after two to the 53rd is rounded, and one half is not. -/
theorem match?_converted_member_rounded :
    (∃ m, (ofTemplate "/{x}" (.mapping [("x", .mapping [("type", .text "number"),
        ("enum", .list [.int 9007199254740993, .float (.finite false (2 ^ 52) (-53))])])]) .none
        .standard).outcome = .ok m ∧
      (m.match? ("/" ++ (Value.int 9007199254740993).pathText)).outcome = .ok none ∧
      (m.match? ("/" ++ (Value.float (.finite false (2 ^ 52) (-53))).pathText)).outcome =
        .ok (some ⟨"/" ++ (Value.float (.finite false (2 ^ 52) (-53))).pathText,
          [("x", .float (.finite false (2 ^ 52) (-53)))]⟩)) ∧
    ∃ m, (ofTemplate "/{x}" (.mapping [("x", .mapping [("type", .text "date"),
        ("enum", .list [.text "Sun, 06 Nov 1994 08:49:37 GMT"])])]) .none .standard).outcome =
        .ok m ∧
      (m.match? ("/" ++ "Sun, 06 Nov 1994 08:49:37 GMT")).outcome = .ok none := by
  have hoptions : Options.ofGiven .none = .ok .standard := rfl
  obtain ⟨hnumbers, hdates⟩ := match?_converted_member hoptions
  have hinteger : (Value.int 9007199254740993).Denotes _ := .int (by decide +kernel)
  have hhalf : (Value.float (.finite false (2 ^ 52) (-53))).Denotes _ :=
    .float ⟨⟨by decide, by decide, .inl (by decide)⟩, by decide⟩
  have hwritable : ∀ v ∈ [Value.int 9007199254740993, .float (.finite false (2 ^ 52) (-53))],
      v.isWritable = true :=
    List.forall_mem_cons.mpr ⟨hinteger.isWritable, List.forall_mem_singleton.mpr hhalf.isWritable⟩
  obtain ⟨m, hm, hmatch⟩ := (hnumbers _ _ _ (declaresChoice_mapping .number
    [.int 9007199254740993, .float (.finite false (2 ^ 52) (-53))])).2 hwritable
  obtain ⟨m', hm', hmatch'⟩ := hdates _ _ ["Sun, 06 Nov 1994 08:49:37 GMT"]
    (declaresChoice_mapping .date [.text "Sun, 06 Nov 1994 08:49:37 GMT"])
  refine ⟨⟨m, hm, ?_, ?_⟩, m', hm', ?_⟩
  · exact ((hmatch _ List.mem_cons_self _ hinteger).2 (by decide +kernel)).1
  · exact (hmatch _ (List.mem_cons_of_mem _ List.mem_cons_self) _ hhalf).1 (by decide +kernel)
  · exact hmatch' _ (by simp) mem_dateLanguage_november

/-- The integer after two to the 53rd denotes the power itself, and its own text is refused. -/
theorem match?_rounded_integer :
    (Value.int 9007199254740993).Denotes (.finite false (2 ^ 52) 1) ∧
    ∃ m, (ofTemplate "/{x}" (.mapping [("x", .mapping [("type", .text "number"),
        ("enum", .list [.int 9007199254740993])])]) .none .standard).outcome = .ok m ∧
      (m.match? ("/" ++ (Value.int 9007199254740993).pathText)).outcome = .ok none := by
  have hnearest : Binary64.nearest (decide ((9007199254740993 : Int) < 0))
      (9007199254740993 : Int).natAbs 1 = .finite false (2 ^ 52) 1 := by decide +kernel
  have hdenotes : (Value.int 9007199254740993).Denotes (.finite false (2 ^ 52) 1) :=
    hnearest ▸ .int (by decide +kernel)
  have hoptions : Options.ofGiven .none = .ok .standard := rfl
  obtain ⟨m, definition, hm, -, hsole, hchoice⟩ := exists_of_declaresChoice
    (declaresChoice_mapping .number [.int 9007199254740993])
    (List.forall_mem_singleton.mpr hdenotes.isWritable) hoptions rfl
  have hmatch := hsole.match?_of_denotes hchoice List.mem_cons_self hdenotes
  rw [if_neg (by decide +kernel)] at hmatch
  exact ⟨hdenotes, m, hm, hmatch⟩

end Matcher

end RouteTemplate
