/-
# Routes do not tell letters of different case apart

Unless case counts, a route compares letters of ASCII up to case, and whatever else it asks of a
character holds of characters that have no other case. So the expression of a route does the same to
two paths that differ in the case of ASCII letters alone: it matches both or neither, takes alike
parts of them, and captures alike texts under each reference.

## Main definitions

* `IsLike` — the same text, up to the case of ASCII letters unless case counts
* `FoundLike` — the same match in alike paths

## Main results

* `Route.isBlind_regex` — the expression of a route tells no letters apart that are the same
* `Route.rel_find?` — matches in alike paths are alike
-/

import RouteTemplate.Matching.Compilation
import RouteTemplate.Proofs.Regex.Blind
import RouteTemplate.Proofs.Template.Characters

namespace RouteTemplate.Template

open RouteTemplate.Regex (CaseMode CharClass IsBlind)

variable {sensitive : Bool}

/-! ## Characters -/

/-- A class of characters that have no other case tells no letters apart. -/
theorem isBlind_one_of_uncased {cls : CharClass} {P : Char → Prop} (h : ∀ d, cls.holds d ↔ P d)
    (hP : ∀ d, P d → CaseMode.isCased .ascii d.toNat = false) :
    IsBlind (SameLetter sensitive) (.one cls) := by
  have hsame {c d : Char} (hcd : SameLetter sensitive c d) (hd : P d) : P c :=
    hcd.eq_of_uncased (hP d hd) ▸ hd
  refine .one fun c d hcd => ?_
  rw [Bool.eq_iff_iff, h, h]
  exact ⟨hsame hcd.symm, hsame hcd⟩

/-- So does a class that leaves out one letter, or one that has one letter alone. -/
theorem isBlind_one_code (negated : Bool) (c : Char) :
    IsBlind (SameLetter sensitive) (.one (.code (caseModeOf sensitive) negated c.toNat)) := by
  refine .one fun d e hde => ?_
  have hsame : Regex.sameLetter (caseModeOf sensitive) c.toNat d =
      Regex.sameLetter (caseModeOf sensitive) c.toNat e := by
    rw [Bool.eq_iff_iff, sameLetter_iff, sameLetter_iff]
    exact ⟨fun h => h.trans hde, fun h => h.trans hde.symm⟩
  rw [CharClass.holds, CharClass.holds, hsame]

/-- So does the class of all characters but line feeds. -/
theorem isBlind_one_any : IsBlind (SameLetter sensitive) (.one (.any false)) := by
  have hsame {c d : Char} (hcd : SameLetter sensitive c d) (hd : d = '\n') : c = '\n' :=
    (hcd.eq_of_uncased (hd ▸ by decide)).trans hd
  refine .one fun c d hcd => ?_
  rw [CharClass.holds, CharClass.holds, Bool.false_or, Bool.false_or, Bool.eq_iff_iff, bne_iff_ne,
    bne_iff_ne]
  exact not_congr ⟨hsame hcd.symm, hsame hcd⟩

private theorem isCased_of_between {first last d : Char} (hfirst : '0'.toNat ≤ first.toNat)
    (hlast : last.toNat ≤ '9'.toNat) (h : first.toNat ≤ d.toNat ∧ d.toNat ≤ last.toNat) :
    CaseMode.isCased .ascii d.toNat = false :=
  isCased_of_isDigit (isDigit_iff.mpr ⟨Nat.le_trans hfirst h.1, Nat.le_trans h.2 hlast⟩)

/-! ## The expressions of a route -/

section Expressions

variable (sensitive)

private theorem isBlind_charRegexes (text : List Char) :
    ∀ r ∈ charRegexes (caseModeOf sensitive) text, IsBlind (SameLetter sensitive) r := by
  intro r hr
  obtain ⟨c, -, rfl⟩ := List.mem_map.mp hr
  exact isBlind_one_code false c

private theorem isBlind_wordsRegex (words : List String) :
    IsBlind (SameLetter sensitive) (wordsRegex (caseModeOf sensitive) words) := by
  refine .choice fun r hr => ?_
  obtain ⟨w, -, rfl⟩ := List.mem_map.mp hr
  exact .sequence (isBlind_charRegexes sensitive w.toList)

private theorem isBlind_optional {r : Regex} (h : IsBlind (SameLetter sensitive) r) :
    IsBlind (SameLetter sensitive) (optional r) :=
  .repetition .greedy 0 (some 1) h

private theorem isBlind_digitRegex :
    IsBlind (SameLetter sensitive) (digitRegex (caseModeOf sensitive)) :=
  isBlind_one_of_uncased (fun _ => holds_digit_iff) fun _ => isCased_of_isDigit

private theorem isBlind_digitBetween {first last : Char} (hfirst : '0'.toNat ≤ first.toNat)
    (hlast : last.toNat ≤ '9'.toNat) :
    IsBlind (SameLetter sensitive) (digitBetween (caseModeOf sensitive) first last) :=
  isBlind_one_of_uncased (fun _ => holds_between_iff hlast) fun _ =>
    isCased_of_between hfirst hlast

private theorem isBlind_numerals :
    IsBlind (SameLetter sensitive) (integerRegex (caseModeOf sensitive)) ∧
      IsBlind (SameLetter sensitive) (numberRegex (caseModeOf sensitive)) := by
  have hsign : IsBlind (SameLetter sensitive) (signRegex (caseModeOf sensitive)) := by
    refine isBlind_optional sensitive (isBlind_one_of_uncased (fun _ => holds_sign_iff) ?_)
    rintro d (rfl | rfl) <;> decide
  have hdigits : IsBlind (SameLetter sensitive) (digitsRegex (caseModeOf sensitive)) :=
    .repetition .greedy 1 none (isBlind_digitRegex sensitive)
  have hpoint : IsBlind (SameLetter sensitive) (charRegex (caseModeOf sensitive) '.') :=
    isBlind_one_code false '.'
  exact ⟨.seq hsign hdigits,
    .seq hsign (.seq hdigits (isBlind_optional sensitive (.seq hpoint hdigits)))⟩

private theorem isBlind_dateRegex :
    IsBlind (SameLetter sensitive) (dateRegex (caseModeOf sensitive)) := by
  have hchar (c : Char) : IsBlind (SameLetter sensitive) (charRegex (caseModeOf sensitive) c) :=
    isBlind_one_code false c
  have hdigit := isBlind_digitRegex sensitive
  have hcount (count : Nat) :
      IsBlind (SameLetter sensitive) (digitsOfLength (caseModeOf sensitive) count) :=
    .repetition .greedy count (some count) hdigit
  have hbetween {last : Char} (hlast : last.toNat ≤ '9'.toNat) :
      IsBlind (SameLetter sensitive) (digitBetween (caseModeOf sensitive) '0' last) :=
    isBlind_digitBetween sensitive (Nat.le_refl _) hlast
  have hhour : IsBlind (SameLetter sensitive) (hourRegex (caseModeOf sensitive)) :=
    .alt (.seq (hbetween (by decide)) hdigit) (.seq (hchar '2') (hbetween (by decide)))
  have hsixtieths : ∀ r ∈ sixtieths (caseModeOf sensitive), IsBlind (SameLetter sensitive) r := by
    simp only [sixtieths, List.forall_mem_cons]
    exact ⟨hchar ':', hbetween (by decide), hdigit, List.forall_mem_nil _⟩
  refine .sequence ?_
  simp only [List.forall_mem_append, List.forall_mem_cons]
  exact ⟨⟨⟨⟨isBlind_wordsRegex sensitive _, hchar ',', hchar ' ', hcount 2, hchar ' ',
    isBlind_wordsRegex sensitive _, hchar ' ', hcount 4, hchar ' ', hhour, by simp⟩, hsixtieths⟩,
    hsixtieths⟩, isBlind_charRegexes sensitive _⟩

theorem isBlind_captureRegex (definition : Definition Value) (expand : Bool) (separator : Char) :
    IsBlind (SameLetter sensitive)
      (captureRegex (caseModeOf sensitive) definition expand separator) := by
  rw [captureRegex]
  cases definition.constraints.enum with
  | some members => exact isBlind_wordsRegex sensitive _
  | none =>
    cases definition.type with
    | string =>
      cases expand with
      | true => exact .repetition .lazy 1 none isBlind_one_any
      | false => exact .repetition .greedy 1 none (isBlind_one_code true separator)
    | number => exact (isBlind_numerals sensitive).2
    | integer => exact (isBlind_numerals sensitive).1
    | boolean => exact isBlind_wordsRegex sensitive _
    | date => exact isBlind_dateRegex sensitive

/-- The expressions of parts tell no letters apart that are the same. -/
theorem isBlind_partRegexes (number : Nat) (parts : List Part) :
    ∀ r ∈ Route.partRegexes (caseModeOf sensitive) number parts,
      IsBlind (SameLetter sensitive) r := by
  induction parts generalizing number with
  | nil =>
    intro r hr
    exact absurd hr List.not_mem_nil
  | cons part parts ih =>
    cases part with
    | special c => exact List.forall_mem_cons.mpr ⟨isBlind_one_code false c, ih number⟩
    | plain c => exact List.forall_mem_cons.mpr ⟨isBlind_one_code false c, ih number⟩
    | reference lead expand definition =>
      have hitems : ∀ r ∈ charRegexes (caseModeOf sensitive) lead.toList ++
          [.group number
            (captureRegex (caseModeOf sensitive) definition expand (lead.getD '/'))],
          IsBlind (SameLetter sensitive) r :=
        List.forall_mem_append.mpr ⟨isBlind_charRegexes sensitive _,
          List.forall_mem_singleton.mpr (.group number (isBlind_captureRegex sensitive _ _ _))⟩
      rw [Route.partRegexes]
      refine List.forall_mem_append.mpr ⟨?_, ih (number + 1)⟩
      split
      · exact hitems
      · exact List.forall_mem_singleton.mpr (isBlind_optional sensitive (.sequence hitems))

end Expressions

/-- The expression of a route tells no letters apart that are the same. -/
theorem Route.isBlind_regex (route : Route) :
    IsBlind (SameLetter route.options.sensitive) route.regex := by
  have hmode : route.caseMode = caseModeOf route.options.sensitive := rfl
  have hslash : IsBlind (SameLetter route.options.sensitive)
      (charRegex (caseModeOf route.options.sensitive) '/') := isBlind_one_code false '/'
  have hends : ∀ r ∈ route.endRegexes, IsBlind (SameLetter route.options.sensitive) r := by
    rw [Route.endRegexes, hmode]
    refine List.forall_mem_append.mpr ⟨?_, ?_⟩
    · split
      · exact List.forall_mem_nil _
      · exact List.forall_mem_singleton.mpr
          (isBlind_optional _ (.seq hslash (.ahead false .textEnd)))
    · split
      · exact List.forall_mem_singleton.mpr .textEnd
      · split
        · exact List.forall_mem_nil _
        · exact List.forall_mem_singleton.mpr (.ahead false (.alt hslash .textEnd))
  rw [Route.regex, hmode]
  refine .sequence (List.forall_mem_append.mpr ⟨List.forall_mem_cons.mpr ⟨.textStart, ?_⟩, hends⟩)
  exact isBlind_partRegexes _ 1 route.required

/-! ## Matches -/

/-- The same text, up to the case of ASCII letters unless case counts. -/
def IsLike (sensitive : Bool) (s t : String) : Prop :=
  List.Forall₂ (SameLetter sensitive) s.toList t.toList

instance (sensitive : Bool) : DecidableRel (IsLike sensitive) :=
  fun s t => inferInstanceAs (Decidable (List.Forall₂ (SameLetter sensitive) s.toList t.toList))

/-- The same match in alike paths: the parts that match are alike, and so are the texts of every
group. -/
structure FoundLike (sensitive : Bool) (found found' : Found) : Prop where
  path : IsLike sensitive found.path found'.path
  groups : List.Forall₂ (Option.Rel (IsLike sensitive)) found.groups found'.groups

/-- In alike paths there are alike matches, or none in either. -/
theorem Route.rel_find? (route : Route) (groupCount : Nat) {path path' : String}
    (h : IsLike route.options.sensitive path path') :
    Option.Rel (FoundLike route.options.sensitive) (route.pattern.find? groupCount path)
      (route.pattern.find? groupCount path') := by
  have hstart := route.isBlind_regex.matchStart h
  rw [Pattern.find?, Pattern.find?, Route.pattern]
  generalize route.regex.matchStart path.toList = p at hstart ⊢
  generalize route.regex.matchStart path'.toList = q at hstart ⊢
  cases hstart with
  | none => exact .none
  | @some p q hpq =>
    refine .some ⟨?_, ?_⟩
    · rw [IsLike, String.toList_ofList, String.toList_ofList]
      exact List.rel_reverse hpq.before
    · rw [List.forall₂_map_left_iff, List.forall₂_map_right_iff]
      refine List.forall₂_same.mpr fun i _ => ?_
      have hcaptured := hpq.captured? (i + 1)
      generalize p.captured? (i + 1) = text at hcaptured ⊢
      generalize q.captured? (i + 1) = text' at hcaptured ⊢
      cases hcaptured with
      | none => exact .none
      | some htext =>
        refine .some ?_
        rwa [IsLike, String.toList_ofList, String.toList_ofList]

end RouteTemplate.Template
