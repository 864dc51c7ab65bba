/-
# Dates as they are written

A date of the grammar has a name of a day, the number of the day, a name of a month, the year, the
time of day and the zone, in this order and in a fixed form. Reading it gives the day and the time
that are written, in universal time, unless the month has no such day in that year. A year of which
only the last two digits count lies between 1969 and 2068.

## Main definitions

* `WrittenDate` — the texts of a date
* `WrittenDate.IsWritten` — they are as the grammar has them
* `WrittenDate.NamesDay`, `WrittenDate.dateTime` — the day that is written

## Main results

* `exists_writtenDate` — a date of the grammar has these texts
* `WrittenDate.IsWritten.read_chars` — the date that is read from them
-/

import Mathlib.Data.Bool.AllAny
import RouteTemplate.Proofs.Calendar.Excess
import RouteTemplate.Proofs.Number.Signed
import RouteTemplate.Proofs.Template.DateText

namespace RouteTemplate.Template

open Calendar (DateTime daysInMonth)

/-- The texts that a date is made of. -/
structure WrittenDate where
  dayName : List Char
  day : List Char
  monthName : List Char
  year : List Char
  hour : List Char
  minute : List Char
  second : List Char
  zone : List Char

/-- The number that digits denote. -/
def numberOf (digits : List Char) : Nat :=
  Nat.ofDigitChars 10 digits 0

/-- The year that is meant: one below 69 belongs to this century, another of two digits to the
last one. -/
def yearMeant (written : Nat) : Nat :=
  if written < 69 then written + 2000 else if written < 100 then written + 1900 else written

namespace WrittenDate

/-- The time of day. -/
def timeChars (w : WrittenDate) : List Char :=
  w.hour ++ ':' :: (w.minute ++ ':' :: w.second)

/-- The texts, with what stands between them. -/
def chars (w : WrittenDate) : List Char :=
  (w.dayName ++ [',']) ++ ' ' :: (w.day ++ ' ' :: (w.monthName ++ ' ' :: (w.year ++ ' ' ::
    (w.timeChars ++ ' ' :: w.zone))))

/-- The texts are as the grammar has them, and the month is the one with the number. -/
structure IsWritten (sensitive : Bool) (month : Nat) (w : WrittenDate) : Prop where
  dayName : w.dayName ∈ oneOf sensitive dayNames
  day : w.day ∈ digitsOf 2
  monthName : ∃ name, (name, month) ∈ monthNames.zipIdx 1 ∧ w.monthName ∈ word sensitive name.toList
  year : w.year ∈ digitsOf 4
  hour : w.hour ∈ twoDigitsBelow 24
  minute : w.minute ∈ twoDigitsBelow 60
  second : w.second ∈ twoDigitsBelow 60
  zone : w.zone ∈ word sensitive ['G', 'M', 'T']

/-- The month has the day that is written, in the year that is meant. -/
def NamesDay (w : WrittenDate) (month : Nat) : Prop :=
  1 ≤ numberOf w.day ∧ numberOf w.day ≤ daysInMonth (yearMeant (numberOf w.year)) month

instance (w : WrittenDate) (month : Nat) : Decidable (w.NamesDay month) :=
  inferInstanceAs (Decidable (_ ∧ _))

/-- The day and the time that are written, in universal time. -/
def dateTime (w : WrittenDate) (month : Nat) : DateTime where
  year := yearMeant (numberOf w.year)
  month := month
  day := numberOf w.day
  hour := numberOf w.hour
  minute := numberOf w.minute
  second := numberOf w.second
  offset := some 0

end WrittenDate

variable {sensitive : Bool}

/-! ## Taking a date apart -/

/-- A date of the grammar is made of these texts. -/
theorem exists_writtenDate {text : List Char} (h : text ∈ dateLanguage sensitive) :
    ∃ (w : WrittenDate) (month : Nat), w.IsWritten sensitive month ∧ text = w.chars := by
  -- What stands between the texts has no other case.
  have hmark {mark u : List Char} (hu : u ∈ word sensitive mark) (hmark : mark ⊆ [',', ' ', ':']) :
      u = mark := by
    have huncased : ∀ c ∈ [',', ' ', ':'], Regex.CaseMode.isCased .ascii c.toNat = false :=
      List.all_iff_forall_prop.mp (by decide)
    exact eq_of_mem_word hu fun c hc => huncased c (hmark hc)
  simp only [dateLanguage, List.prod_cons, List.prod_nil, mul_one, Language.mem_mul] at h
  obtain ⟨dayName, hdayName, _, ⟨_, hcomma, _, ⟨day, hday, _, ⟨_, hblank, _, ⟨monthName, hmonthName,
    _, ⟨_, hblank', _, ⟨year, hyear, _, ⟨_, hblank'', _, ⟨hour, hhour, _, ⟨_, hcolon, _, ⟨minute,
    hminute, _, ⟨_, hcolon', _, ⟨second, hsecond, _, hzone, rfl⟩, rfl⟩, rfl⟩, rfl⟩, rfl⟩, rfl⟩,
    rfl⟩, rfl⟩, rfl⟩, rfl⟩, rfl⟩, rfl⟩, rfl⟩ := h
  obtain ⟨name, hname, hmonthName⟩ := hmonthName
  obtain ⟨_, zone, hblankZone, hzoneName, rfl⟩ := List.forall₂_cons_left_iff.mp hzone
  obtain rfl := hblankZone.symm.eq_of_uncased (by decide)
  obtain rfl := hmark hcomma (by decide)
  obtain rfl := hmark hblank (by decide)
  obtain rfl := hmark hblank' (by decide)
  obtain rfl := hmark hblank'' (by decide)
  obtain rfl := hmark hcolon (by decide)
  obtain rfl := hmark hcolon' (by decide)
  obtain ⟨i, hi, hget⟩ := List.getElem_of_mem hname
  have hnumbered : (name, i + 1) ∈ monthNames.zipIdx 1 := by
    refine List.mk_mem_zipIdx_iff_le_and_getElem?_sub.mpr ⟨Nat.le_add_left 1 i, ?_⟩
    rw [Nat.add_sub_cancel, List.getElem?_eq_getElem hi, hget]
  refine ⟨⟨dayName, day, monthName, year, hour, minute, second, zone⟩, i + 1,
    ⟨hdayName, hday, ⟨name, hnumbered, hmonthName⟩, hyear, hhour, hminute, hsecond, hzoneName⟩, ?_⟩
  simp [WrittenDate.chars, WrittenDate.timeChars]

/-! ## Characters -/

/-- The character is one of ASCII, and no blank or control character. -/
def IsGraphic (c : Char) : Prop :=
  0x21 ≤ c.toNat ∧ c.toNat < 0x80

instance (c : Char) : Decidable (IsGraphic c) :=
  inferInstanceAs (Decidable (_ ∧ _))

theorem IsGraphic.isBlank {c : Char} (h : IsGraphic c) : Text.isBlank c = false := by
  obtain ⟨hmin, hmax⟩ := h
  simp only [Text.isBlank, Text.blankIntervals, Text.inIntervals, List.any_cons, List.any_nil]
  simp
  omega

theorem isGraphic_of_isDigit {c : Char} (h : c.isDigit) : IsGraphic c := by
  obtain ⟨hmin, hmax⟩ := isDigit_iff.mp h
  exact ⟨Nat.le_trans (by decide) hmin, Nat.lt_of_le_of_lt hmax (by decide)⟩

theorem SameLetter.isGraphic {c d : Char} (h : SameLetter sensitive c d) (hc : IsGraphic c) :
    IsGraphic d := by
  obtain ⟨hmin, hmax⟩ := hc
  rw [IsGraphic]
  rcases h.eq_or_capital with rfl | ⟨hcapital, hd⟩ | ⟨hcapital, hc⟩ <;> omega

/-! ## Reading a date -/

section Reading

open Calendar.MailDate (splitWhere splitWhere_append_cons splitOn words dropDayName separate
  dropComma)
open Number (readInteger?)

/-- A text without separators is one part. -/
theorem splitWhere_of_forall {isSeparator : Char → Bool} {text : List Char}
    (h : ∀ c ∈ text, isSeparator c = false) : splitWhere isSeparator text = [text] := by
  induction text with
  | nil => rfl
  | cons c text ih =>
    obtain ⟨hc, htext⟩ := List.forall_mem_cons.mp h
    rw [splitWhere, hc, ih htext]
    rfl

/-- Splitting at a character splits what stands before it and what stands after it. -/
theorem splitOn_append_cons (separator : Char) (u v : List Char) :
    splitOn separator (u ++ separator :: v) = splitOn separator u ++ splitOn separator v :=
  splitWhere_append_cons (by exact beq_self_eq_true separator) u v

theorem splitOn_of_notMem {separator : Char} {text : List Char} (h : separator ∉ text) :
    splitOn separator text = [text] :=
  splitWhere_of_forall fun _ hc => beq_eq_false_iff_ne.mpr fun heq => h (heq ▸ hc)

variable {digits : List Char}

theorem dropComma_of_notMem {text : List Char} (h : ',' ∉ text) : dropComma text = text :=
  if_neg fun hlast => h (List.mem_of_getLast? hlast)

theorem notMem_of_isDigit (h : ∀ c ∈ digits, c.isDigit) {mark : Char}
    (hmark : mark.isDigit = false) : mark ∉ digits :=
  fun hmem => absurd (h mark hmem) (by rw [hmark]; decide)

theorem isDigit_of_asciiDigit {c : Char} (h : c.isDigit) : Text.isDigit c = true := by
  obtain ⟨hmin, hmax⟩ := isDigit_iff.mp h
  have hzero : ∃ z ∈ Text.decimalZeros, decide (z ≤ c.toNat) && decide (c.toNat ≤ z + 9) :=
    ⟨0x30, List.mem_cons_self, by simpa using ⟨hmin, hmax⟩⟩
  simp only [Text.isDigit, Text.isDecimalDigit, Text.decimalDigit?, Option.isSome_map,
    List.find?_isSome.mpr hzero, Bool.true_or]

/-- Few digits are read as the number that they denote. -/
theorem readInteger?_of_isDigit (h : ∀ c ∈ digits, c.isDigit) (hne : digits ≠ [])
    (hlength : digits.length ≤ 4) : readInteger? digits = some (numberOf digits : Int) := by
  have hread := Number.readInteger?_signed (.inl rfl) h hne
  rwa [if_pos (Nat.le_trans hlength (by decide))] at hread

theorem numberOf_lt (h : ∀ c ∈ digits, c.isDigit) : numberOf digits < 10 ^ digits.length := by
  rw [numberOf, ← Number.ofDigits_eq_ofDigitChars]
  exact Number.ofDigits_lt h

/-- The year that is meant has three or four digits. -/
theorem yearMeant_mem (h : digits ∈ digitsOf 4) :
    100 ≤ yearMeant (numberOf digits) ∧ yearMeant (numberOf digits) ≤ 9999 := by
  have hlt := numberOf_lt h.2
  rw [h.1] at hlt
  rw [yearMeant]
  split
  · omega
  · split <;> omega

theorem fullYear_eq_yearMeant (written : Nat) :
    Calendar.MailDate.fullYear written = yearMeant written := by
  rw [Calendar.MailDate.fullYear, yearMeant]
  split_ifs <;> omega

/-- Numbers that are no greater than those of the calendar name a date unless there is no such day
or time. -/
theorem toDateTime_eq_ok {year month day hour minute second : Nat}
    (hfields : ∀ field ∈ [year, day, hour, minute, second], field ≤ 9999) :
    Calendar.MailDate.Numbers.toDateTime ⟨year, month, day, hour, minute, second, some 0⟩ =
      .ok (if DateTime.isValid ⟨year, month, day, hour, minute, second, some 0⟩
        then some ⟨year, month, day, hour, minute, second, some 0⟩ else none) := by
  have hforM : ([year, day, hour, minute, second].map Int.ofNat).forM
      Calendar.MailDate.checkField = .ok () := by
    cases hcheck : ([year, day, hour, minute, second].map Int.ofNat).forM
        Calendar.MailDate.checkField with
    | ok u => rfl
    | error cause =>
      obtain ⟨_, hfield, hexceeds⟩ :=
        Calendar.MailDate.exists_forM_checkField_eq_error_iff.mp ⟨cause, hcheck⟩
      obtain ⟨field, hmem, rfl⟩ := List.mem_map.mp hfield
      have hle := hfields field hmem
      simp only [Calendar.MailDate.ExceedsWord, Int.ofNat_eq_natCast] at hexceeds
      omega
  have hoffset : Calendar.MailDate.checkOffset 0 = .ok () := rfl
  simp only [List.map_cons, List.map_nil, Int.ofNat_eq_natCast] at hforM
  simp [Calendar.MailDate.Numbers.toDateTime, hforM, hoffset, bind, Except.bind, pure, Except.pure]

namespace WrittenDate.IsWritten

variable {w : WrittenDate} {month : Nat}

theorem monthName_mem (h : w.IsWritten sensitive month) :
    w.monthName ∈ oneOf sensitive monthNames := by
  obtain ⟨name, hname, hmonth⟩ := h.monthName
  have hget := (List.mk_mem_zipIdx_iff_le_and_getElem?_sub.mp hname).2
  exact ⟨name, List.mem_of_getElem? hget, hmonth⟩

/-- No text of a date is empty, and none has a blank in it. -/
theorem isGraphic_texts (h : w.IsWritten sensitive month) :
    ∀ text ∈ [w.dayName, w.day, w.monthName, w.year, w.timeChars, w.zone],
      text ≠ [] ∧ ∀ c ∈ text, IsGraphic c := by
  have hletters {text : List Char} {words : List String} (htext : text ∈ oneOf sensitive words)
      (hne : ∀ w ∈ words, w.toList ≠ []) (hwords : ∀ w ∈ words, w.toList.all fun c => IsGraphic c) :
      text ≠ [] ∧ ∀ c ∈ text, IsGraphic c := by
    have hwords := fun w hw => List.all_iff_forall_prop.mp (hwords w hw)
    refine ⟨?_,
      allChars_oneOf (fun w hw c hc d hsame => hsame.isGraphic (hwords w hw c hc)) _ htext⟩
    rintro rfl
    obtain ⟨w, hw, hu⟩ := htext
    exact hne w hw (List.forall₂_nil_right_iff.mp hu)
  have hdigits {text : List Char} {count : Nat} (htext : text ∈ digitsOf (count + 1)) :
      text ≠ [] ∧ ∀ c ∈ text, IsGraphic c :=
    ⟨List.ne_nil_of_length_eq_add_one htext.1, fun c hc => isGraphic_of_isDigit (htext.2 c hc)⟩
  have htwo {bound : Nat} := allChars_twoDigitsBelow (fun _ => isGraphic_of_isDigit) bound
  simp only [List.forall_mem_cons]
  refine ⟨hletters h.dayName (by decide) (by decide), hdigits h.day,
    hletters h.monthName_mem (by decide) (by decide), hdigits h.year, ?_,
    hletters ⟨"GMT", List.mem_singleton.mpr rfl, h.zone⟩ (by decide) (by decide), by simp⟩
  refine ⟨by simp [timeChars], ?_⟩
  simp only [timeChars, List.forall_mem_append, List.forall_mem_cons]
  exact ⟨htwo _ h.hour, by decide, htwo _ h.minute, by decide, htwo _ h.second⟩

/-- Blanks part a date into its texts. -/
theorem words_chars (h : w.IsWritten sensitive month) :
    words w.chars =
      [w.dayName ++ [','], w.day, w.monthName, w.year, w.timeChars, w.zone] := by
  have htexts := h.isGraphic_texts
  simp only [List.forall_mem_cons] at htexts
  obtain ⟨⟨-, hdayName⟩, ⟨hdayNe, hday⟩, ⟨hmonthNe, hmonth⟩, ⟨hyearNe, hyear⟩, ⟨htimeNe, htime⟩,
    ⟨hzoneNe, hzone⟩, -⟩ := htexts
  have hpart {text : List Char} (htext : ∀ c ∈ text, IsGraphic c) :
      splitWhere Text.isBlank text = [text] :=
    splitWhere_of_forall fun c hc => (htext c hc).isBlank
  have hfirst : splitWhere Text.isBlank (w.dayName ++ [',']) = [w.dayName ++ [',']] :=
    hpart (List.forall_mem_append.mpr ⟨hdayName, List.forall_mem_singleton.mpr (by decide)⟩)
  have hblank : Text.isBlank ' ' = true := by decide
  simp only [words, chars, splitWhere_append_cons hblank, hfirst, hpart hday,
    hpart hmonth, hpart hyear, hpart htime, hpart hzone]
  simp [hdayNe, hmonthNe, hyearNe, htimeNe, hzoneNe]

/-- The name of a month, in any case, gives its number. -/
theorem month?_monthName (h : w.IsWritten sensitive month) :
    Calendar.MailDate.month? w.monthName = some month := by
  have hnames : ∀ entry ∈ monthNames.zipIdx 1,
      (Calendar.MailDate.monthNames.findIdx?
        (· == String.ofList (entry.1.toList.map Char.toLower))).map (· % 12 + 1) =
        some entry.2 := by decide +kernel
  obtain ⟨name, hname, hmonth⟩ := h.monthName
  rw [Calendar.MailDate.month?, Calendar.MailDate.lowerWord, map_toLower_of_mem_word hmonth]
  exact hnames (name, month) hname

/-- A letter of the zone, in any case, has itself as its upper case. -/
private theorem upperChar_of_sameLetter {c d : Char} (hc : c ∈ ['G', 'M', 'T'])
    (h : SameLetter sensitive c d) : Text.upperChar d = [c] := by
  have hletters : ∀ c ∈ ['G', 'M', 'T'],
      Text.upperChar c = [c] ∧ Text.upperChar (Char.ofNat (c.toNat + 0x20)) = [c] :=
    List.all_iff_forall_prop.mp (by decide)
  rcases h.eq_or_capital with rfl | ⟨-, hd⟩ | ⟨hcapital, hsmall⟩
  · exact (hletters _ hc).1
  · rw [← Char.ofNat_toNat d, hd]
    exact (hletters c hc).2
  · -- These letters are capitals themselves.
    have hcapitals : ∀ c ∈ ['G', 'M', 'T'], c.toNat ≤ 0x5A :=
      List.all_iff_forall_prop.mp (by decide)
    have hmax := hcapitals c hc
    omega

/-- The zone, in any case, is that of universal time. -/
theorem zone?_zone (h : w.IsWritten sensitive month) : Calendar.MailDate.zone? w.zone = some 0 := by
  have hupper {letters zone : List Char} (hzone : zone ∈ word sensitive letters)
      (hletters : letters ⊆ ['G', 'M', 'T']) : zone.flatMap Text.upperChar = letters := by
    induction hzone with
    | nil => rfl
    | cons hsame _ ih =>
      obtain ⟨hc, hletters⟩ := List.cons_subset.mp hletters
      rw [List.flatMap_cons, upperChar_of_sameLetter hc hsame, ih hletters]
      rfl
  have hlookup : Calendar.MailDate.zones.lookup (String.ofList ['G', 'M', 'T']) = some 0 := by
    decide
  simp only [Calendar.MailDate.zone?, hupper h.zone fun _ hc => hc, hlookup]

theorem isDigit_of_mem_twoDigitsBelow {bound : Nat} {text : List Char}
    (h : text ∈ twoDigitsBelow bound) :
    (∀ c ∈ text, c.isDigit) ∧ text.length = 2 ∧ numberOf text < bound := by
  obtain ⟨a, b, ha, hb, hbound, rfl⟩ := h
  refine ⟨by simp [ha, hb], rfl, ?_⟩
  simpa [numberOf, Nat.ofDigitChars_eq_foldl] using hbound

/-- Colons part the time of day. -/
theorem timeParts?_timeChars (h : w.IsWritten sensitive month) :
    Calendar.MailDate.timeParts? w.timeChars = some (w.hour, w.minute, w.second) := by
  have hpart {text : List Char} {bound : Nat} (htext : text ∈ twoDigitsBelow bound) :
      splitOn ':' text = [text] :=
    splitOn_of_notMem (notMem_of_isDigit (isDigit_of_mem_twoDigitsBelow htext).1 (by decide))
  have hsplit : splitOn ':' w.timeChars = [w.hour, w.minute, w.second] := by
    rw [timeChars, splitOn_append_cons, splitOn_append_cons, hpart h.hour, hpart h.minute,
      hpart h.second]
    rfl
  rw [Calendar.MailDate.timeParts?, hsplit]

theorem comma_notMem_timeChars (h : w.IsWritten sensitive month) : ',' ∉ w.timeChars := by
  have hpart {text : List Char} {bound : Nat} (htext : text ∈ twoDigitsBelow bound) : ',' ∉ text :=
    notMem_of_isDigit (isDigit_of_mem_twoDigitsBelow htext).1 (by decide)
  simp [timeChars, hpart h.hour, hpart h.minute, hpart h.second]

theorem month_mem (h : w.IsWritten sensitive month) : 1 ≤ month ∧ month ≤ 12 := by
  have hmonths : ∀ entry ∈ monthNames.zipIdx 1, 1 ≤ entry.2 ∧ entry.2 ≤ 12 := by decide
  obtain ⟨name, hname, -⟩ := h.monthName
  exact hmonths (name, month) hname

/-- The numbers that are written. -/
theorem fields?_chars (h : w.IsWritten sensitive month) :
    Calendar.MailDate.fields? w.chars =
      some ⟨yearMeant (numberOf w.year), month, numberOf w.day, numberOf w.hour, numberOf w.minute,
        numberOf w.second, some 0⟩ := by
  obtain ⟨first, rest, hyear⟩ := List.exists_cons_of_length_eq_add_one h.year.1
  have hfirst : first.isDigit := h.year.2 first (hyear ▸ List.mem_cons_self)
  have hread {count : Nat} {text : List Char} (htext : text ∈ digitsOf (count + 1))
      (hcount : count ≤ 3) : readInteger? text = some (numberOf text : Int) := by
    refine readInteger?_of_isDigit htext.2 (List.ne_nil_of_length_eq_add_one htext.1) ?_
    rw [htext.1]
    exact Nat.succ_le_succ hcount
  have htwo {bound : Nat} {text : List Char} (htext : text ∈ twoDigitsBelow bound) :
      readInteger? text = some (numberOf text : Int) := by
    obtain ⟨hdigits, hlength, -⟩ := isDigit_of_mem_twoDigitsBelow htext
    exact readInteger?_of_isDigit hdigits (List.ne_nil_of_length_eq_add_one hlength)
      (by rw [hlength]; decide)
  have hwords : (separate (dropDayName (words w.chars))).take 5 =
      [w.day, w.monthName, w.year, w.timeChars, w.zone] := by
    rw [h.words_chars, dropDayName]
    simp [separate]
  simp only [Calendar.MailDate.fields?, hwords]
  have htexts := h.isGraphic_texts
  simp only [List.forall_mem_cons] at htexts
  obtain ⟨-, ⟨hdayNe, -⟩, ⟨hmonthNe, -⟩, ⟨hyearNe, -⟩, -⟩ := htexts
  have hday := dropComma_of_notMem (notMem_of_isDigit h.day.2 (by decide))
  have hyear' := dropComma_of_notMem (notMem_of_isDigit h.year.2 (by decide))
  have htime := dropComma_of_notMem h.comma_notMem_timeChars
  have hcolon : ':' ∉ w.year := notMem_of_isDigit h.year.2 (by decide)
  have hhead : w.year.head? = some first := by rw [hyear, List.head?_cons]
  have hzone : (Calendar.MailDate.zone? w.zone).map Calendar.MailDate.zoneSeconds = some 0 := by
    rw [h.zone?_zone]
    rfl
  simp [Calendar.MailDate.ofParts?, hdayNe, hmonthNe, hyearNe, h.month?_monthName, hday, hcolon,
    hyear', hhead, htime, isDigit_of_asciiDigit hfirst, h.timeParts?_timeChars, hread h.year,
    hread h.day, htwo h.hour, htwo h.minute, htwo h.second, hzone, fullYear_eq_yearMeant]

/-- Reading a date gives what is written, if the month has that day. -/
theorem read_chars (h : w.IsWritten sensitive month) :
    Calendar.MailDate.read w.chars =
      .ok (if w.NamesDay month then some (w.dateTime month) else none) := by
  obtain ⟨-, -, hhour⟩ := isDigit_of_mem_twoDigitsBelow h.hour
  obtain ⟨-, -, hminute⟩ := isDigit_of_mem_twoDigitsBelow h.minute
  obtain ⟨-, -, hsecond⟩ := isDigit_of_mem_twoDigitsBelow h.second
  obtain ⟨hmin, hmax⟩ := yearMeant_mem h.year
  obtain ⟨hfirst, hlast⟩ := h.month_mem
  have hvalid : DateTime.isValid (w.dateTime month) = true ↔ w.NamesDay month := by
    simp only [DateTime.isValid, Bool.and_eq_true, decide_eq_true_eq]
    simp only [dateTime, NamesDay]
    omega
  have hfields : ∀ field ∈ [yearMeant (numberOf w.year), numberOf w.day, numberOf w.hour,
      numberOf w.minute, numberOf w.second], field ≤ 9999 := by
    simp only [List.forall_mem_cons, List.not_mem_nil, false_implies, implies_true, and_true]
    have hday := numberOf_lt h.day.2
    rw [h.day.1] at hday
    omega
  simp only [Calendar.MailDate.read, h.fields?_chars]
  rw [toDateTime_eq_ok hfields]
  exact congrArg Except.ok (if_congr hvalid rfl rfl)

end WrittenDate.IsWritten

end Reading

end RouteTemplate.Template
