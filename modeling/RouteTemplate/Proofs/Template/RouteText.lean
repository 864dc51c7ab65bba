/-
# The text of a route

The text that is reported for a route is a regular expression, and reading it gives the expression
that is matched: whatever characters the template and the members of enumerations hold, they are
read as themselves, and the groups of the text are the references in their order.

## Main definitions

* `flagsOf` — the flags under which the text of a route is read

## Main results

* `Route.parse_text` — reading the text of a route gives its expression
* `Route.groupCount_regex` — the expression has one group for each reference
-/

import Mathlib.Algebra.GroupWithZero.Nat
import RouteTemplate.Proofs.Regex.Reading
import RouteTemplate.Proofs.Template.Language
import RouteTemplate.Proofs.Template.Resolution

namespace RouteTemplate.Template

open RouteTemplate.Regex (Denotes DenotesTerm DenotesBody Flags CaseMode)

/-- The flags under which the text of a route is read. -/
def flagsOf (sensitive : Bool) : Flags :=
  if sensitive then [.ascii] else [.ascii, .ignoreCase]

variable (sensitive : Bool)

private theorem isPlain_flagsOf : (flagsOf sensitive).IsPlain := by
  cases sensitive with
  | true => exact ⟨rfl, rfl, rfl, rfl, rfl, rfl⟩
  | false => exact ⟨rfl, rfl, rfl, rfl, rfl, rfl⟩

private theorem caseMode_flagsOf : (flagsOf sensitive).caseMode = caseModeOf sensitive := by
  cases sensitive with
  | true => rfl
  | false => rfl

/-! ## Literal text -/

private theorem isAlphanum_of_isSpecial {c : Char} (h : isSpecial c = true) :
    c.isAlphanum = false := by
  have hall : ['.', '*', '+', '?', '=', '^', '!', ':', '$', openBrace, closeBrace, '(', ')', '|',
    '[', ']', '/', '\\'].all (fun d => !d.isAlphanum) = true := by decide
  simp only [isSpecial, List.contains_eq_mem, decide_eq_true_eq] at h
  exact Bool.not_eq_true' _ |>.mp (List.all_eq_true.mp hall c h)

private theorem isOperator_eq_false {c : Char} (h : isSpecial c = false) :
    Regex.isOperator c = false := by
  have hall : ['\\', '|', ')', '[', '?', '*', '+', '\x7b', '.', '(', '^', '$'].all isSpecial =
    true := by decide
  simp only [Regex.isOperator, List.contains_eq_mem, decide_eq_false_iff_not]
  intro hc
  rw [List.all_eq_true.mp hall c hc] at h
  exact Bool.false_ne_true h.symm

private theorem denotesTerm_charRegex {c : Char} (hc : Regex.isOperator c = false) :
    DenotesTerm (flagsOf sensitive) [c] 0 fun _ => charRegex (caseModeOf sensitive) c := by
  rw [← caseMode_flagsOf]
  exact Regex.denotesTerm_char (isPlain_flagsOf sensitive) hc

private theorem denotesTerm_escaped {c : Char} (hc : isSpecial c = true) :
    DenotesTerm (flagsOf sensitive) ['\\', c] 0 fun _ => charRegex (caseModeOf sensitive) c := by
  rw [← caseMode_flagsOf]
  exact Regex.denotesTerm_escaped (isAlphanum_of_isSpecial hc)

/-- A text that has been escaped denotes the text itself. -/
theorem denotes_escape (w : List Char) :
    Denotes (flagsOf sensitive) (escape w) 0 fun _ => charRegexes (caseModeOf sensitive) w := by
  induction w with
  | nil => exact Regex.denotes_nil _
  | cons c w ih =>
    rw [escape, List.flatMap_cons]
    -- An escaped character and one that needs no escape denote the same kind of expression.
    cases hc : isSpecial c with
    | true => exact (denotesTerm_escaped sensitive hc).denotes.append ih
    | false => exact (denotesTerm_charRegex sensitive (isOperator_eq_false hc)).denotes.append ih

/-- A text without special characters needs no escape. -/
private theorem escape_eq_self {w : List Char} (h : w.all fun c => !isSpecial c) :
    escape w = w := by
  induction w with
  | nil => rfl
  | cons c w ih =>
    rw [List.all_cons, Bool.and_eq_true, Bool.not_eq_true'] at h
    obtain ⟨hc, hw⟩ := h
    have hrest : (w.flatMap fun c => if isSpecial c then ['\\', c] else [c]) = w := ih hw
    rw [escape, List.flatMap_cons, hc, hrest]
    rfl

/-- Texts that have been escaped, with bars between them, denote a choice between the texts. -/
private theorem denotesBody_words (words : List String) :
    DenotesBody (flagsOf sensitive) (['|'].intercalate (words.map fun w => escape w.toList)) 0
      fun _ => wordsRegex (caseModeOf sensitive) words := by
  have hwords : List.Forall₂ (fun cs es => Denotes (flagsOf sensitive) cs 0 fun _ => es)
      (words.map fun w => escape w.toList)
      (words.map fun w => charRegexes (caseModeOf sensitive) w.toList) := by
    rw [List.forall₂_map_left_iff, List.forall₂_map_right_iff]
    exact List.forall₂_same.mpr fun w _ => denotes_escape sensitive w.toList
  have hbody := Regex.denotesBody_alternatives hwords
  rw [List.map_map] at hbody
  exact hbody

private theorem denotesTerm_words (words : List String) :
    DenotesTerm (flagsOf sensitive)
      (['(', '?', ':'] ++ (['|'].intercalate (words.map fun w => escape w.toList) ++ [')'])) 0
      fun _ => wordsRegex (caseModeOf sensitive) words :=
  (denotesBody_words sensitive words).group (isPlain_flagsOf sensitive)

/-- A group of alternatives without special characters. -/
private theorem denotesTerm_alternativesText (words : List String)
    (h : words.all fun w => w.toList.all fun c => !isSpecial c) :
    DenotesTerm (flagsOf sensitive) (alternativesText words).toList 0
      fun _ => wordsRegex (caseModeOf sensitive) words := by
  -- Words without special characters are their own escaped form.
  have htext : (alternativesText words).toList =
      ['(', '?', ':'] ++ (['|'].intercalate (words.map fun w => escape w.toList) ++ [')']) := by
    have hsame : words.map (fun w => escape w.toList) = words.map String.toList :=
      List.map_congr_left fun w hw => escape_eq_self (List.all_eq_true.mp h w hw)
    simp [alternativesText, String.toList_intercalate, hsame]
  rw [htext]
  exact denotesTerm_words sensitive words

/-! ## Digits and numerals -/

private theorem denotesTerm_digitRegex :
    DenotesTerm (flagsOf sensitive) ['\\', 'd'] 0 fun _ => digitRegex (caseModeOf sensitive) := by
  rw [← caseMode_flagsOf]
  exact Regex.denotesTerm_digit (isPlain_flagsOf sensitive)

private theorem denotes_digitsRegex :
    Denotes (flagsOf sensitive) ['\\', 'd', '+'] 0
      fun _ => [digitsRegex (caseModeOf sensitive)] :=
  (denotesTerm_digitRegex sensitive).plus (isPlain_flagsOf sensitive)

private theorem denotes_signRegex :
    Denotes (flagsOf sensitive) ['[', '-', '+', ']', '?'] 0
      fun _ => [signRegex (caseModeOf sensitive)] := by
  have hread (rest : List Char) : Regex.readBracket (flagsOf sensitive)
      (Regex.tokens (['-', '+', ']'] ++ rest)) =
      .ok (.set (flagsOf sensitive).caseMode false [.code '-'.toNat, .code '+'.toNat],
        Regex.tokens rest) := rfl
  have hclass := Regex.denotesTerm_bracket (isPlain_flagsOf sensitive) hread
    fun rest => Nat.le_add_right _ 3
  rw [caseMode_flagsOf] at hclass
  exact hclass.optional (isPlain_flagsOf sensitive)

private theorem denotesTerm_digitBetween (first last : Char)
    (hread : ∀ rest, Regex.readBracket (flagsOf sensitive)
      (Regex.tokens ([first, '-', last, ']'] ++ rest)) =
      .ok (.set (flagsOf sensitive).caseMode false [.range first.toNat last.toNat],
        Regex.tokens rest))
    (hlength : ∀ rest, (Regex.tokens rest).length ≤
      (Regex.tokens ([first, '-', last, ']'] ++ rest)).length) :
    DenotesTerm (flagsOf sensitive) ['[', first, '-', last, ']'] 0
      fun _ => digitBetween (caseModeOf sensitive) first last := by
  have hclass := Regex.denotesTerm_bracket (isPlain_flagsOf sensitive) hread hlength
  rw [caseMode_flagsOf] at hclass
  exact hclass

private theorem denotes_integerText :
    Denotes (flagsOf sensitive) integerText.toList 0
      fun _ => [signRegex (caseModeOf sensitive), digitsRegex (caseModeOf sensitive)] :=
  (denotes_signRegex sensitive).append (denotes_digitsRegex sensitive)

private theorem denotes_numberText :
    Denotes (flagsOf sensitive) numberText.toList 0
      fun _ => [signRegex (caseModeOf sensitive), digitsRegex (caseModeOf sensitive),
        optional (Regex.sequence
          [charRegex (caseModeOf sensitive) '.', digitsRegex (caseModeOf sensitive)])] := by
  have hpoint := (denotesTerm_escaped sensitive (c := '.') rfl).denotes
  have hfraction := ((hpoint.append (denotes_digitsRegex sensitive)).body.group
    (isPlain_flagsOf sensitive)).optional (isPlain_flagsOf sensitive)
  exact (denotes_integerText sensitive).append hfraction

private theorem denotes_digitsText (count : Nat) (d : Char) (hd : d.isDigit = true)
    (hcount : Regex.numberOf 10 [d] = count) (hlimit : count < Regex.countLimit) :
    Denotes (flagsOf sensitive) ['\\', 'd', '\x7b', d, '\x7d'] 0
      fun _ => [digitsOfLength (caseModeOf sensitive) count] :=
  (denotesTerm_digitRegex sensitive).times (isPlain_flagsOf sensitive) hd hcount hlimit

/-! ## Dates -/

private theorem denotes_chars {w : List Char} (h : w.all fun c => !Regex.isOperator c) :
    Denotes (flagsOf sensitive) w 0 fun _ => charRegexes (caseModeOf sensitive) w := by
  induction w with
  | nil => exact Regex.denotes_nil _
  | cons c w ih =>
    rw [List.all_cons, Bool.and_eq_true, Bool.not_eq_true'] at h
    exact (denotesTerm_charRegex sensitive h.1).denotes.append (ih h.2)

private theorem denotesTerm_hourText :
    DenotesTerm (flagsOf sensitive) (alternativesText ["[0-1]\\d", "2[0-3]"]).toList 0
      fun _ => hourRegex (caseModeOf sensitive) := by
  have hearly := (denotesTerm_digitBetween sensitive '0' '1'
    (fun _ => rfl) (fun _ => Nat.le_add_right _ 4)).denotes.append
    (denotesTerm_digitRegex sensitive).denotes
  have hlate := (denotesTerm_charRegex sensitive (c := '2') rfl).denotes.append
    (denotesTerm_digitBetween sensitive '0' '3'
      (fun _ => rfl) (fun _ => Nat.le_add_right _ 4)).denotes
  exact (Regex.denotesBody_alternatives (.cons hearly (.cons hlate .nil))).group
    (isPlain_flagsOf sensitive)

private theorem denotes_sixtieths :
    Denotes (flagsOf sensitive) [':', '[', '0', '-', '5', ']', '\\', 'd'] 0
      fun _ => sixtieths (caseModeOf sensitive) :=
  (denotesTerm_charRegex sensitive (c := ':') rfl).denotes.append
    ((denotesTerm_digitBetween sensitive '0' '5'
      (fun _ => rfl) (fun _ => Nat.le_add_right _ 4)).denotes.append
      (denotesTerm_digitRegex sensitive).denotes)

private theorem denotes_dateText :
    ∃ es, Denotes (flagsOf sensitive) dateText.toList 0 (fun _ => es) ∧
      Regex.sequence es = dateRegex (caseModeOf sensitive) := by
  have hdays := denotesTerm_alternativesText sensitive dayNames (by decide)
  have hmonths := denotesTerm_alternativesText sensitive monthNames (by decide)
  have htwo := denotes_digitsText sensitive 2 '2' rfl rfl (by decide)
  have hfour := denotes_digitsText sensitive 4 '4' rfl rfl (by decide)
  have hcomma := denotes_chars sensitive (w := [',', ' ']) (by decide)
  have hblank := denotes_chars sensitive (w := [' ']) (by decide)
  have hzone := denotes_chars sensitive (w := [' ', 'G', 'M', 'T']) (by decide)
  have hdate := hdays.denotes.append <| hcomma.append <| htwo.append <| hblank.append <|
    hmonths.denotes.append <| hblank.append <| hfour.append <| hblank.append <|
    (denotesTerm_hourText sensitive).denotes.append <| (denotes_sixtieths sensitive).append <|
    (denotes_sixtieths sensitive).append hzone
  -- The text of a date, cut where the parts above meet.
  have htext : dateText.toList = (alternativesText dayNames).toList ++ ([',', ' '] ++
      (['\\', 'd', '\x7b', '2', '\x7d'] ++ ([' '] ++ ((alternativesText monthNames).toList ++
      ([' '] ++ (['\\', 'd', '\x7b', '4', '\x7d'] ++ ([' '] ++
      ((alternativesText ["[0-1]\\d", "2[0-3]"]).toList ++
      ([':', '[', '0', '-', '5', ']', '\\', 'd'] ++ ([':', '[', '0', '-', '5', ']', '\\', 'd'] ++
      [' ', 'G', 'M', 'T'])))))))))) := by
    have htwo : (toString 2).toList = ['2'] := rfl
    have hfour : (toString 4).toList = ['4'] := rfl
    simp only [dateText, digitsText, String.toList_append, htwo, hfour, List.append_assoc]
    rfl
  rw [← htext] at hdate
  exact ⟨_, hdate, rfl⟩

/-! ## References -/

private theorem denotes_segmentText {lead : Option Char}
    (hlead : lead = none ∨ lead = some '/' ∨ lead = some '.') :
    Denotes (flagsOf sensitive) (segmentText (String.ofList (escape lead.toList))).toList 0
      fun _ => [segmentRegex (caseModeOf sensitive) (lead.getD '/')] := by
  have hclass (cs : List Char) {c : Char} (hread : ∀ rest, Regex.readBracket (flagsOf sensitive)
      (Regex.tokens (cs ++ rest)) =
      .ok (.code (flagsOf sensitive).caseMode true c.toNat, Regex.tokens rest))
      (hlength : ∀ rest, (Regex.tokens rest).length ≤ (Regex.tokens (cs ++ rest)).length) :
      Denotes (flagsOf sensitive) ('[' :: cs ++ ['+']) 0
        fun _ => [segmentRegex (caseModeOf sensitive) c] := by
    have hterm := Regex.denotesTerm_bracket (isPlain_flagsOf sensitive) hread hlength
    rw [caseMode_flagsOf] at hterm
    exact hterm.plus (isPlain_flagsOf sensitive)
  rcases hlead with rfl | rfl | rfl
  · exact hclass ['^', '/', ']'] (fun _ => rfl) fun _ => Nat.le_add_right _ 3
  · exact hclass ['^', '\\', '/', ']'] (fun _ => rfl) fun _ => Nat.le_add_right _ 3
  · exact hclass ['^', '\\', '.', ']'] (fun _ => rfl) fun _ => Nat.le_add_right _ 3

/-- The text for what a reference captures denotes its expression. -/
theorem denotes_captureText (definition : Definition Value) (expand : Bool) {lead : Option Char}
    (hlead : lead = none ∨ lead = some '/' ∨ lead = some '.') :
    ∃ es, Denotes (flagsOf sensitive)
        (captureText definition expand (String.ofList (escape lead.toList))).toList 0
        (fun _ => es) ∧
      Regex.sequence es =
        captureRegex (caseModeOf sensitive) definition expand (lead.getD '/') := by
  rw [captureText, captureRegex]
  cases definition.constraints.enum with
  | some members =>
    have htext : (enumText members).toList = ['(', '?', ':'] ++ (['|'].intercalate
        ((members.map Value.pathText).map fun w => escape w.toList) ++ [')']) := by
      simp [enumText, String.toList_intercalate, Function.comp_def]
    rw [htext]
    exact ⟨_, (denotesTerm_words sensitive (members.map Value.pathText)).denotes, rfl⟩
  | none =>
    cases definition.type with
    | string =>
      cases expand with
      | true =>
        simp only [↓reduceIte]
        exact ⟨_, (Regex.denotesTerm_any (isPlain_flagsOf sensitive)).lazyPlus
          (isPlain_flagsOf sensitive), rfl⟩
      | false => exact ⟨_, denotes_segmentText sensitive hlead, rfl⟩
    | number => exact ⟨_, denotes_numberText sensitive, rfl⟩
    | integer => exact ⟨_, denotes_integerText sensitive, rfl⟩
    | boolean =>
      exact ⟨_, (denotesTerm_alternativesText sensitive ["true", "false"]
        (by decide)).denotes, rfl⟩
    | date => exact denotes_dateText sensitive

/-! ## Parts and ends -/

namespace Route

private theorem denotes_reference (definition : Definition Value) (expand : Bool)
    {lead : Option Char} (hlead : lead = none ∨ lead = some '/' ∨ lead = some '.') :
    Denotes (flagsOf sensitive) (partText (.reference lead expand definition)).toList 1 fun n =>
      let items := charRegexes (caseModeOf sensitive) lead.toList ++
        [.group n (captureRegex (caseModeOf sensitive) definition expand (lead.getD '/'))]
      if definition.required then items else [optional (Regex.sequence items)] := by
  obtain ⟨es, hes, hcapture⟩ := denotes_captureText sensitive definition expand hlead
  have hgroup := (denotes_escape sensitive lead.toList).append
    (hes.body.capture (isPlain_flagsOf sensitive)).denotes
  rw [hcapture] at hgroup
  rw [partText]
  generalize captureText definition expand (String.ofList (escape lead.toList)) = text at hgroup
  have hgroupText : (String.ofList (escape lead.toList) ++ "(" ++ text ++ ")").toList =
      escape lead.toList ++ (['('] ++ (text.toList ++ [')'])) := by simp
  cases definition.required with
  | true =>
    simp only [hgroupText, ↓reduceIte]
    exact hgroup
  | false =>
    -- A reference that may be left out stands in an optional group of its own.
    have htext (group : String) : ("(?:" ++ group ++ ")?").toList =
        ['(', '?', ':'] ++ (group.toList ++ [')']) ++ ['?'] := by simp
    simp only [htext, hgroupText, Bool.false_eq_true, ↓reduceIte]
    exact (hgroup.body.group (isPlain_flagsOf sensitive)).optional (isPlain_flagsOf sensitive)

/-- The texts of parts denote their expressions, with one group for each reference. -/
theorem denotes_parts {declarations : Declarations} {pieces : List Piece} {parts : List Part}
    {slots : List Slot} (h : Resolves declarations pieces parts slots)
    (hpieces : ∀ piece ∈ pieces, piece.IsWellFormed) :
    Denotes (flagsOf sensitive) (parts.flatMap fun part => (partText part).toList) slots.length
      fun n => partRegexes (caseModeOf sensitive) n parts := by
  induction h with
  | nil => exact Regex.denotes_nil _
  | special c _ ih =>
    obtain ⟨hc, hpieces⟩ := List.forall_mem_cons.mp hpieces
    have happend := (denotesTerm_escaped sensitive hc).denotes.append (ih hpieces)
    rw [Nat.zero_add] at happend
    rw [List.flatMap_cons, partText, String.toList_ofList]
    exact happend
  | plain c _ ih =>
    obtain ⟨hc, hpieces⟩ := List.forall_mem_cons.mp hpieces
    have happend := (denotesTerm_charRegex sensitive (isOperator_eq_false hc)).denotes.append
      (ih hpieces)
    rw [Nat.zero_add] at happend
    rw [List.flatMap_cons, partText, String.toList_singleton]
    exact happend
  | @reference r name definition _ _ _ _ _ ih =>
    obtain ⟨⟨hlead, -⟩, hpieces⟩ := List.forall_mem_cons.mp hpieces
    have happend := (denotes_reference sensitive definition r.expand hlead).append (ih hpieces)
    rw [Nat.add_comm] at happend
    exact happend

variable {template : String} {declarations : Declarations} {options : Options} {route : Route}
  {contents : Contents}

/-- The text of the end of a route denotes the expressions of the end. -/
private theorem denotes_endText (route : Route) :
    Denotes (flagsOf route.options.sensitive) route.endText.toList 0
      fun _ => route.endRegexes := by
  have hplain := isPlain_flagsOf route.options.sensitive
  have hslash := (denotesTerm_escaped route.options.sensitive (c := '/') rfl).denotes
  have hend : Denotes (flagsOf route.options.sensitive) ['\\', 'Z'] 0
      fun _ => [.anchor .textEnd] := Regex.denotes_textEnd
  have hclosing := ((hslash.append (hend.body.ahead hplain).denotes).body.group hplain).optional
    hplain
  have hboundary := ((Regex.denotesBody_alternatives (.cons hslash (.cons hend .nil))).ahead
    hplain).denotes
  have hfirst : Denotes (flagsOf route.options.sensitive)
      (if route.options.strict then "" else "(?:\\/(?=\\Z))?").toList 0 fun _ =>
      if route.options.strict then []
      else [optional (Regex.sequence
        [charRegex route.caseMode '/', .look .ahead false (.anchor .textEnd)])] := by
    cases route.options.strict with
    | true => exact Regex.denotes_nil _
    | false => exact hclosing
  have hlast : Denotes (flagsOf route.options.sensitive)
      (if route.options.toEnd then "\\Z"
        else if route.options.strict && route.endsWithSlash then ""
        else "(?=\\/|\\Z)").toList 0 fun _ =>
      if route.options.toEnd then [.anchor .textEnd]
      else if route.options.strict && route.endsWithSlash then []
      else [.look .ahead false
        (Regex.choice [charRegex route.caseMode '/', .anchor .textEnd])] := by
    cases route.options.toEnd with
    | true =>
      simp only [↓reduceIte]
      exact hend
    | false =>
      cases route.options.strict && route.endsWithSlash with
      | true => exact Regex.denotes_nil _
      | false => exact hboundary
  rw [endText, String.toList_append]
  exact hfirst.append hlast

/-- Reading the text of a route gives its expression. -/
theorem parse_text (h : ofTemplate template declarations options = .ok (route, contents)) :
    Regex.parse (flagsOf options.sensitive) route.text = .ok route.regex := by
  obtain ⟨hcontents, hroute⟩ := ofTemplate_eq_ok_iff.mp h
  have hoptions : route.options = options := by rw [hroute]
  have hparts := denotes_parts options.sensitive (resolves_required h)
    fun piece hpiece => isWellFormed_of_mem_scan hpiece
  have hend := denotes_endText route
  rw [hoptions] at hend
  -- No group comes before the parts and none after them, so theirs are numbered from one.
  have hbody := ((Regex.denotes_textStart (isPlain_flagsOf options.sensitive)).append
    (hparts.append hend)).body
  have htext : route.text = String.ofList (['^'] ++
      ((route.required.flatMap fun part => (partText part).toList) ++ route.endText.toList)) := by
    rw [← String.toList_inj]
    simp [text, String.toList_join, List.flatMap_map]
  rw [htext, hbody.parse_eq_ok (isPlain_flagsOf options.sensitive), regex, caseMode, hoptions]
  rfl

/-! ## Groups -/

private theorem groupCount_sequence (es : List Regex) :
    (Regex.sequence es).groupCount = (es.map Regex.groupCount).sum := by
  induction es with
  | nil => rfl
  | cons e es ih =>
    cases es with
    | nil => simp [Regex.sequence]
    | cons e' es =>
      rw [List.map_cons, List.sum_cons, ← ih]
      rfl

private theorem groupCount_choice (es : List Regex) :
    (Regex.choice es).groupCount = (es.map Regex.groupCount).sum := by
  induction es with
  | nil => rfl
  | cons e es ih =>
    cases es with
    | nil => simp [Regex.choice]
    | cons e' es =>
      rw [List.map_cons, List.sum_cons, ← ih]
      rfl

private theorem sum_groupCount_charRegexes (mode : CaseMode) (w : List Char) :
    ((charRegexes mode w).map Regex.groupCount).sum = 0 := by
  induction w with
  | nil => rfl
  | cons c w ih => simpa [charRegexes, charRegex, Regex.groupCount] using ih

private theorem groupCount_wordsRegex (mode : CaseMode) (words : List String) :
    (wordsRegex mode words).groupCount = 0 := by
  rw [wordsRegex, groupCount_choice, List.map_map]
  refine List.sum_eq_zero_iff_forall_eq_nat.mpr fun n hn => ?_
  obtain ⟨w, -, rfl⟩ := List.mem_map.mp hn
  exact (groupCount_sequence _).trans (sum_groupCount_charRegexes mode w.toList)

/-- What a reference captures holds no group. -/
theorem groupCount_captureRegex (mode : CaseMode) (definition : Definition Value) (expand : Bool)
    (separator : Char) : (captureRegex mode definition expand separator).groupCount = 0 := by
  rw [captureRegex]
  cases definition.constraints.enum with
  | some members => exact groupCount_wordsRegex mode _
  | none =>
    cases definition.type with
    | string =>
      cases expand with
      | true => rfl
      | false => rfl
    | number => rfl
    | integer => rfl
    | boolean => exact groupCount_wordsRegex mode _
    | date =>
      change (dateRegex mode).groupCount = 0
      rw [dateRegex, groupCount_sequence]
      simp [groupCount_wordsRegex, sum_groupCount_charRegexes, sixtieths, hourRegex, charRegex,
        digitRegex, digitBetween, digitsOfLength, Regex.sequence, Regex.choice, Regex.groupCount]

private theorem sum_groupCount_partRegexes (mode : CaseMode) {pieces : List Piece}
    {parts : List Part} {slots : List Slot} (h : Resolves declarations pieces parts slots)
    (number : Nat) :
    ((partRegexes mode number parts).map Regex.groupCount).sum = slots.length := by
  induction h generalizing number with
  | nil => rfl
  | special c _ ih => simpa [partRegexes, charRegex, Regex.groupCount] using ih number
  | plain c _ ih => simpa [partRegexes, charRegex, Regex.groupCount] using ih number
  | @reference r name definition _ _ _ _ _ ih =>
    have hitems := sum_groupCount_charRegexes mode r.lead.toList
    have hcapture := groupCount_captureRegex mode definition r.expand (r.lead.getD '/')
    rw [partRegexes, List.map_append, List.sum_append, ih (number + 1), List.length_cons,
      Nat.add_comm]
    -- The optional group around a reference does not capture.
    cases definition.required with
    | true => simp [Regex.groupCount, hitems, hcapture]
    | false => simp [optional, groupCount_sequence, Regex.groupCount, hitems, hcapture]

/-- The expression of a route has one group for each reference. -/
theorem groupCount_regex (h : ofTemplate template declarations options = .ok (route, contents)) :
    route.regex.groupCount = contents.slots.length := by
  have hparts := sum_groupCount_partRegexes route.caseMode (resolves_required h) 1
  have hend : (route.endRegexes.map Regex.groupCount).sum = 0 := by
    rw [endRegexes]
    cases route.options.strict <;> cases route.options.toEnd <;> cases route.endsWithSlash <;> rfl
  rw [regex, groupCount_sequence, List.cons_append, List.map_cons, List.sum_cons,
    List.map_append, List.sum_append, hparts, hend]
  exact Nat.zero_add _

end Route

end RouteTemplate.Template
