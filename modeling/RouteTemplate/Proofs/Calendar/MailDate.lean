/-
# Dates with short words

A date of a mail header may name any numbers, but none that is too large unless one of its words is
long: so many characters spell a number below that power of ten.

## Main definitions

* `IsShort` — a word of at most nine characters, also in upper case
* `Numbers.IsModerate` — numbers that machine words and the calendar hold

## Main results

* `Number.natAbs_readInteger?_lt` — a numeral is bounded by its length
* `exists_read_eq_ok` — reading a text whose words are short does not fail
-/

import Mathlib.Algebra.Group.Nat.Defs
import Mathlib.Data.List.Flatten
import Mathlib.Data.List.Induction
import RouteTemplate.Calendar.MailDate

namespace RouteTemplate

/-! ## Numerals -/

namespace Number

theorem ofDigits_lt {digits : List Char} (h : ∀ d ∈ digits, d.isDigit) :
    ofDigits digits < 10 ^ digits.length := by
  induction digits using List.reverseRecOn with
  | nil => decide
  | append_singleton digits d ih =>
    have hdigits := ih fun d hd => h d (List.mem_append_left _ hd)
    have hlast : d.toNat - '0'.toNat ≤ 9 := by
      have hd := h d (List.mem_append_right _ List.mem_cons_self)
      have hnine : d.toNat ≤ '9'.toNat := by
        rw [Char.isDigit, Bool.and_eq_true, decide_eq_true_eq, decide_eq_true_eq] at hd
        exact UInt32.le_iff_toNat_le.mp hd.2
      have hzero : '0'.toNat = 48 := rfl
      have hnine' : '9'.toNat = 57 := rfl
      omega
    have hfold : ofDigits (digits ++ [d]) = ofDigits digits * 10 + (d.toNat - '0'.toNat) := by
      rw [ofDigits, List.foldl_append]
      rfl
    rw [hfold, List.length_append, List.length_singleton, Nat.pow_succ]
    omega

private theorem length_numeralChars_le (text : List Char) :
    (numeralChars text).length ≤ text.length := by
  have hdrop (cs : List Char) : (cs.dropWhile Text.isAsciiBlank).length ≤ cs.length :=
    (List.dropWhile_sublist _).length_le
  have hmap : (text.map toAscii).length = text.length := List.length_map _
  rw [numeralChars, strip, List.length_reverse, ← hmap]
  refine Nat.le_trans (hdrop _) ?_
  rw [List.length_reverse]
  exact hdrop _

private theorem length_splitSign_le (cs : List Char) : (splitSign cs).2.length ≤ cs.length := by
  fun_cases splitSign cs <;> simp

private theorem length_dropUnderscores_le {cs digits : List Char}
    (h : dropUnderscores cs = some digits) : digits.length ≤ cs.length := by
  -- Whatever is kept stood in the text; underscores are left out.
  have hcons {c : Char} {rest more digits : List Char} (hrest : rest.length ≤ more.length)
      (ih : ∀ {digits}, dropUnderscores rest = some digits → digits.length ≤ rest.length)
      (h : (dropUnderscores rest).map (c :: ·) = some digits) :
      digits.length ≤ (c :: more).length := by
    obtain ⟨kept, hkept, rfl⟩ := Option.map_eq_some_iff.mp h
    exact Nat.succ_le_succ (Nat.le_trans (ih hkept) hrest)
  fun_induction dropUnderscores cs generalizing digits with
  | case1 =>
    obtain rfl := Option.some.inj h
    exact Nat.le_refl 0
  | case2 => exact absurd h (by simp)
  | case3 c d rest hc hdigits ih => exact hcons (Nat.le_succ _) ih h
  | case4 => exact absurd h (by simp)
  | case5 c rest hrest hunderscore ih => exact hcons (Nat.le_refl _) ih h

/-- A numeral denotes a number below the power of ten of its length. -/
theorem natAbs_readInteger?_lt {text : List Char} {n : Int} (h : readInteger? text = some n) :
    n.natAbs < 10 ^ text.length := by
  simp only [readInteger?, Option.bind_eq_bind, Option.bind_eq_some_iff] at h
  obtain ⟨digits, hdigits, h⟩ := h
  have hlength : digits.length ≤ text.length :=
    Nat.le_trans (length_dropUnderscores_le hdigits)
      (Nat.le_trans (length_splitSign_le _) (length_numeralChars_le text))
  split at h
  · exact absurd h (by simp)
  · rename_i hvalid
    simp only [Bool.or_eq_true, Bool.not_eq_true', decide_eq_true_eq, not_or,
      Bool.not_eq_false] at hvalid
    have hlt : ofDigits digits < 10 ^ text.length :=
      Nat.lt_of_lt_of_le (ofDigits_lt (List.all_eq_true.mp hvalid.1.2))
        (Nat.pow_le_pow_right (by decide) hlength)
    split at h
    · obtain rfl := Option.some.inj h
      rwa [Int.natAbs_neg]
    · obtain rfl := Option.some.inj h
      exact hlt

end Number

namespace Calendar.MailDate

open RouteTemplate.Number (readInteger?)

/-! ## Words -/

theorem splitWhere_ne_nil (isSeparator : Char → Bool) (text : List Char) :
    splitWhere isSeparator text ≠ [] := by
  fun_cases splitWhere isSeparator text <;> simp

/-- Splitting at a separator splits what stands before it and what stands after it. -/
theorem splitWhere_append_cons {isSeparator : Char → Bool} {c : Char} (hc : isSeparator c)
    (u v : List Char) :
    splitWhere isSeparator (u ++ c :: v) =
      splitWhere isSeparator u ++ splitWhere isSeparator v := by
  induction u with
  | nil => simp [splitWhere, hc]
  | cons d u ih =>
    rw [List.cons_append, splitWhere, splitWhere, ih]
    split
    · rfl
    · cases hparts : splitWhere isSeparator u with
      | nil => exact absurd hparts (splitWhere_ne_nil isSeparator u)
      | cons part parts => rfl

/-- A part of a text has characters of the text, in their order. -/
theorem sublist_of_mem_splitWhere {isSeparator : Char → Bool} {text part : List Char}
    (h : part ∈ splitWhere isSeparator text) : part.Sublist text := by
  induction text generalizing part with
  | nil =>
    obtain rfl := List.mem_singleton.mp h
    exact List.nil_sublist _
  | cons c text ih =>
    rw [splitWhere] at h
    split at h
    · rcases List.mem_cons.mp h with rfl | h
      · exact List.nil_sublist _
      · exact (ih h).cons c
    · cases hparts : splitWhere isSeparator text with
      | nil => exact absurd hparts (splitWhere_ne_nil isSeparator text)
      | cons first parts =>
        rw [hparts] at h
        rcases List.mem_cons.mp h with rfl | h
        · exact (ih (by rw [hparts]; exact List.mem_cons_self)).cons_cons c
        · exact (ih (by rw [hparts]; exact List.mem_cons_of_mem _ h)).cons c

/-- A word of at most nine characters, also in upper case. -/
structure IsShort (word : List Char) : Prop where
  length : word.length ≤ 9
  length_upper : (word.flatMap Text.upperChar).length ≤ 9

theorem IsShort.sublist {word part : List Char} (h : IsShort word) (hpart : part.Sublist word) :
    IsShort part :=
  ⟨Nat.le_trans hpart.length_le h.length,
    Nat.le_trans (hpart.flatMap Text.upperChar).length_le h.length_upper⟩

private theorem isShort_nil : IsShort [] :=
  ⟨by decide, by decide⟩

theorem IsShort.dropComma {word : List Char} (h : IsShort word) : IsShort (dropComma word) := by
  rw [MailDate.dropComma]
  split
  · exact h.sublist (List.dropLast_sublist word)
  · exact h

theorem isShort_of_mem_dropDayName {ws : List (List Char)} (h : ∀ word ∈ ws, IsShort word) :
    ∀ word ∈ dropDayName ws, IsShort word := by
  cases ws with
  | nil => exact h
  | cons first rest =>
    obtain ⟨hfirst, hrest⟩ := List.forall_mem_cons.mp h
    rw [dropDayName]
    split
    · exact hrest
    · have hsublist : (first.reverse.takeWhile (· != ',')).reverse.Sublist first := by
        rw [← List.reverse_sublist, List.reverse_reverse]
        exact List.takeWhile_sublist _
      exact List.forall_mem_cons.mpr ⟨hfirst.sublist hsublist, hrest⟩

theorem isShort_of_mem_splitZone {word : List Char} (h : IsShort word) :
    ∀ part ∈ splitZone word, IsShort part := by
  simp only [splitZone]
  -- Whichever sign it is, the time and the zone are the beginning and the end of the word.
  generalize (if word.contains '+' then '+' else '-') = sign
  split
  · exact List.forall_mem_cons.mpr ⟨h, List.forall_mem_singleton.mpr isShort_nil⟩
  · exact List.forall_mem_cons.mpr ⟨h.sublist (List.takeWhile_sublist _),
      List.forall_mem_singleton.mpr (h.sublist (List.drop_sublist _ _))⟩

/-- The words with a date at the front that is joined by hyphens taken apart. -/
private theorem isShort_of_mem_hyphenated {ws : List (List Char)} (h : ∀ word ∈ ws, IsShort word) :
    ∀ word ∈ (match ws with
      | [date, time, zone] =>
        match splitOn '-' date with
        | [day, month, year] => [day, month, year, time, zone]
        | _ => ws
      | _ => ws), IsShort word := by
  split
  · split
    · rename_i date time zone _ day month year hsplit
      obtain ⟨hdate, hrest⟩ := List.forall_mem_cons.mp h
      have hparts : ∀ part ∈ [day, month, year], IsShort part := by
        intro part hpart
        rw [← hsplit] at hpart
        exact hdate.sublist (sublist_of_mem_splitWhere hpart)
      exact List.forall_mem_append.mpr ⟨hparts, hrest⟩
    · exact h
  · exact h

theorem isShort_of_mem_separate {ws : List (List Char)} (h : ∀ word ∈ ws, IsShort word) :
    ∀ word ∈ separate ws, IsShort word := by
  have hyphenated := isShort_of_mem_hyphenated h
  fun_cases separate ws with
  | case1 separated day month year time hparts =>
    have hseparated : ∀ word ∈ separated, IsShort word := hyphenated
    rw [hparts] at hseparated
    -- The zone may be joined to the time.
    obtain ⟨hdate, htime⟩ := List.forall_mem_append.mp
      (show ∀ word ∈ [day, month, year] ++ [time], IsShort word from hseparated)
    exact List.forall_mem_append.mpr
      ⟨hdate, isShort_of_mem_splitZone (List.forall_mem_singleton.mp htime)⟩
  | case2 separated hparts => exact hyphenated

/-! ## Numbers -/

/-- The numbers are such that machine words and the calendar hold them. -/
structure Numbers.IsModerate (n : Numbers) : Prop where
  field : ∀ field ∈ [n.year, n.day, n.hour, n.minute, n.second], field.natAbs ≤ 2000000000
  offset : ∀ offset ∈ n.offset, offset.natAbs ≤ 100000000000

private theorem natAbs_lt_of_isShort {word : List Char} (h : word.length ≤ 9) {n : Int}
    (hn : readInteger? word = some n) : n.natAbs < 1000000000 :=
  Nat.lt_of_lt_of_le (Number.natAbs_readInteger?_lt hn) (Nat.pow_le_pow_right (by decide) h)

private theorem natAbs_fullYear_le {year : Int} (h : year.natAbs < 1000000000) :
    (fullYear year).natAbs ≤ 2000000000 := by
  rw [fullYear]
  split
  · split <;> omega
  · omega

private theorem natAbs_zone_lt {word : List Char} (h : IsShort word) {zone : Int}
    (hzone : zone? word = some zone) : zone.natAbs < 1000000000 := by
  simp only [zone?] at hzone
  split at hzone
  · rename_i hlookup
    obtain rfl := Option.some.inj hzone
    have hzones : ∀ entry ∈ zones, entry.2.natAbs < 1000000000 := by decide
    obtain ⟨before, after, hsplit, -⟩ := List.lookup_eq_some_iff.mp hlookup
    have hmem := hsplit ▸ List.mem_append_right before List.mem_cons_self
    exact hzones _ hmem
  · split at hzone
    · rename_i number hnumber
      split at hzone
      · exact absurd hzone (by simp)
      · obtain rfl := Option.some.inj hzone
        exact natAbs_lt_of_isShort h.length_upper hnumber
    · exact absurd hzone (by simp)

private theorem natAbs_zoneSeconds_le {zone : Int} (h : zone.natAbs < 1000000000) :
    (zoneSeconds zone).natAbs ≤ 100000000000 := by
  rw [zoneSeconds, Int.natAbs_mul, Int.natAbs_natCast]
  have hsign : zone.sign.natAbs ≤ 1 := by
    rw [Int.natAbs_sign]
    split <;> omega
  refine Nat.le_trans (Nat.mul_le_mul_right _ hsign) ?_
  omega

/-- The parts of a time are those of the text, or a zero for the seconds. -/
private theorem length_timeParts?_le {time : List Char} (h : time.length ≤ 9)
    {parts : List Char × List Char × List Char} (hparts : timeParts? time = some parts) :
    parts.1.length ≤ 9 ∧ parts.2.1.length ≤ 9 ∧ parts.2.2.length ≤ 9 := by
  have hmem {separator : Char} {text : List Char} (htext : text.Sublist time)
      {texts : List (List Char)} (hsplit : splitOn separator text = texts) :
      ∀ part ∈ texts, part.Sublist time := by
    intro part hpart
    rw [← hsplit] at hpart
    exact (sublist_of_mem_splitWhere hpart).trans htext
  have htwo {hours minutes : List Char} (hall : ∀ part ∈ [hours, minutes], part.Sublist time) :
      hours.length ≤ 9 ∧ minutes.length ≤ 9 ∧ ['0'].length ≤ 9 :=
    ⟨Nat.le_trans (hall hours (by simp)).length_le h,
      Nat.le_trans (hall minutes (by simp)).length_le h, by decide⟩
  have hthree {hours minutes seconds : List Char}
      (hall : ∀ part ∈ [hours, minutes, seconds], part.Sublist time) :
      hours.length ≤ 9 ∧ minutes.length ≤ 9 ∧ seconds.length ≤ 9 :=
    ⟨Nat.le_trans (hall hours (by simp)).length_le h,
      Nat.le_trans (hall minutes (by simp)).length_le h,
      Nat.le_trans (hall seconds (by simp)).length_le h⟩
  rw [timeParts?] at hparts
  split at hparts
  · rename_i hsplit
    obtain rfl := Option.some.inj hparts
    exact htwo (hmem (List.Sublist.refl time) hsplit)
  · rename_i hsplit
    obtain rfl := Option.some.inj hparts
    exact hthree (hmem (List.Sublist.refl time) hsplit)
  · rename_i whole hsplit
    -- Without colons, the parts stand between points.
    have hwhole : whole.Sublist time :=
      hmem (List.Sublist.refl time) hsplit whole (List.mem_singleton.mpr rfl)
    split at hparts
    · rename_i hpoints
      obtain rfl := Option.some.inj hparts
      exact htwo (hmem hwhole hpoints)
    · rename_i hpoints
      obtain rfl := Option.some.inj hparts
      exact hthree (hmem hwhole hpoints)
    · exact absurd hparts (by simp)
  · exact absurd hparts (by simp)

/-- Numbers that are read from short texts are moderate. -/
private theorem isModerate_of_isShort {day year zone time : List Char}
    {parts : List Char × List Char × List Char} {d y hour minute second : Int} {month : Nat}
    (hday : day.length ≤ 9) (hyear : IsShort year) (hzone : IsShort zone) (htime : IsShort time)
    (hparts : timeParts? time = some parts) (hy : readInteger? year = some y)
    (hd : readInteger? day = some d) (hhour : readInteger? parts.1 = some hour)
    (hminute : readInteger? parts.2.1 = some minute)
    (hsecond : readInteger? parts.2.2 = some second) :
    Numbers.IsModerate
      ⟨fullYear y, month, d, hour, minute, second, (zone? zone).map zoneSeconds⟩ := by
  obtain ⟨hhours, hminutes, hseconds⟩ := length_timeParts?_le htime.length hparts
  have hfield {field : Int} (h : field.natAbs < 1000000000) : field.natAbs ≤ 2000000000 := by
    omega
  constructor
  · simp only [List.forall_mem_cons]
    exact ⟨natAbs_fullYear_le (natAbs_lt_of_isShort hyear.length hy),
      hfield (natAbs_lt_of_isShort hday hd), hfield (natAbs_lt_of_isShort hhours hhour),
      hfield (natAbs_lt_of_isShort hminutes hminute),
      hfield (natAbs_lt_of_isShort hseconds hsecond), List.forall_mem_nil _⟩
  · intro offset hoffset
    obtain ⟨number, hnumber, rfl⟩ := Option.map_eq_some_iff.mp hoffset
    exact natAbs_zoneSeconds_le (natAbs_zone_lt hzone hnumber)

/-- The numbers of a date with short parts are moderate. -/
theorem isModerate_of_ofParts? {day month year time zone : List Char} (hday : IsShort day)
    (hmonth : IsShort month) (hyear : IsShort year) (htime : IsShort time) (hzone : IsShort zone)
    {n : Numbers} (h : ofParts? day month year time zone = some n) : n.IsModerate := by
  -- Two parts that may be exchanged are short in either order.
  have hpair {a b : List Char} (condition : Prop) [Decidable condition] (ha : IsShort a)
      (hb : IsShort b) :
      IsShort (if condition then (b, a) else (a, b)).1 ∧
        IsShort (if condition then (b, a) else (a, b)).2 := by
    split
    · exact ⟨hb, ha⟩
    · exact ⟨ha, hb⟩
  have hlower : (dropComma (month.map Char.toLower)).length ≤ 9 := by
    have hlength :
        (dropComma (month.map Char.toLower)).length ≤ (month.map Char.toLower).length := by
      rw [dropComma]
      split
      · exact (List.dropLast_sublist _).length_le
      · exact Nat.le_refl _
    rw [List.length_map] at hlength
    exact Nat.le_trans hlength hmonth.length
  rw [ofParts?] at h
  split at h
  · exact absurd h (by simp)
  · -- Day and month may be exchanged, and the rest is the same.
    have hyears := hpair (year.contains ':' && year.head? != some ':') hyear htime
    cases hnumber : month? month with
    | some number =>
      simp only [hnumber, Option.bind_eq_bind, Option.bind_eq_some_iff, Option.some.injEq,
        Option.pure_def] at h
      obtain ⟨_, rfl, first, -, parts, hparts, y, hy, d, hd, hour, hhour, minute, hminute, second,
        hsecond, rfl⟩ := h
      have hzones := hpair (Text.isDigit first) hzone hyears.1.dropComma
      exact isModerate_of_isShort hday.dropComma.length hzones.1 hzones.2 hyears.2.dropComma hparts
        hy hd hhour hminute hsecond
    | none =>
      simp only [hnumber, Option.bind_eq_bind, Option.bind_eq_some_iff, Option.some.injEq,
        Option.pure_def] at h
      obtain ⟨date, hdate, first, -, parts, hparts, y, hy, d, hd, hour, hhour, minute, hminute,
        second, hsecond, rfl⟩ := h
      obtain ⟨number, -, rfl⟩ := Option.map_eq_some_iff.mp hdate
      have hzones := hpair (Text.isDigit first) hzone hyears.1.dropComma
      exact isModerate_of_isShort hlower hzones.1 hzones.2 hyears.2.dropComma hparts hy hd hhour
        hminute hsecond

private theorem forM_checkField {fields : List Int}
    (h : ∀ field ∈ fields, field.natAbs ≤ 2000000000) : fields.forM checkField = .ok () := by
  induction fields with
  | nil => rfl
  | cons field fields ih =>
    obtain ⟨hle, hfields⟩ := List.forall_mem_cons.mp h
    have hfield : checkField field = .ok () := by
      simp only [checkField, Bool.or_eq_true, decide_eq_true_eq]
      rw [if_neg (by omega), if_neg (by omega), if_neg (by omega)]
    rw [List.forM, hfield]
    exact ih hfields

/-- Moderate numbers are never too large for a date. -/
theorem Numbers.IsModerate.exists_toDateTime {n : Numbers} (h : n.IsModerate) :
    ∃ date, n.toDateTime = .ok date := by
  have hoffset : n.offset.forM checkOffset = .ok () := by
    cases hsome : n.offset with
    | none => rfl
    | some offset =>
      have hle := h.offset offset hsome
      change checkOffset offset = .ok ()
      simp only [checkOffset, Bool.or_eq_true, decide_eq_true_eq]
      rw [if_neg (by omega), if_neg (by omega)]
  rw [toDateTime, hoffset, forM_checkField h.field]
  dsimp only [bind, Except.bind, pure, Except.pure]
  split
  · exact ⟨_, rfl⟩
  · split
    · exact ⟨_, rfl⟩
    · exact ⟨_, rfl⟩

/-! ## Texts -/

theorem length_upperChar {c : Char} (h : c.toNat < 0x80) : (Text.upperChar c).length = 1 := by
  have hkeys : ∀ entry ∈ Text.uppercaseExpansions, 0x80 ≤ entry.1 := by decide
  have hnone : Text.uppercaseExpansions.lookup c.toNat = none := by
    rw [List.lookup_eq_none_iff]
    intro entry hentry
    have := hkeys entry hentry
    rw [bne_iff_ne]
    omega
  rw [Text.upperChar, hnone]
  rfl

/-- Reading a text of ASCII whose words have at most nine characters does not fail. -/
theorem exists_read_eq_ok {text : List Char} (hascii : ∀ c ∈ text, c.toNat < 0x80)
    (hwords : ∀ part ∈ splitWhere Text.isBlank text, part.length ≤ 9) :
    ∃ date, read text = .ok date := by
  have hshort : ∀ word ∈ words text, IsShort word := by
    intro word hword
    have hpart := (List.mem_filter.mp hword).1
    refine ⟨hwords word hpart, ?_⟩
    have hone : ∀ c ∈ word, (Text.upperChar c).length = 1 := fun c hc =>
      length_upperChar (hascii c ((sublist_of_mem_splitWhere hpart).subset hc))
    rw [List.length_flatMap, List.map_congr_left hone, List.map_const', List.sum_replicate_nat,
      Nat.mul_one]
    exact hwords word hpart
  have hparts := isShort_of_mem_separate (isShort_of_mem_dropDayName hshort)
  rw [read]
  cases hfields : fields? text with
  | none => exact ⟨none, rfl⟩
  | some numbers =>
    rw [fields?] at hfields
    split at hfields
    · rename_i day month year time zone htake
      have hmem : ∀ part ∈ [day, month, year, time, zone], IsShort part := by
        intro part hpart
        rw [← htake] at hpart
        exact hparts part (List.mem_of_mem_take hpart)
      simp only [List.forall_mem_cons] at hmem
      obtain ⟨hday, hmonth, hyear, htime, hzone, -⟩ := hmem
      exact (isModerate_of_ofParts? hday hmonth hyear htime hzone hfields).exists_toDateTime
    · exact absurd hfields (by simp)

end Calendar.MailDate

end RouteTemplate
