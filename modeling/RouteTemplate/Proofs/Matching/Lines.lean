/-
# What the lines of a stream say

Each record of the journal has a line of its own, in which its source stands in brackets before the
level, and what it says after it. No record breaks its line, since the texts that it names stand
there quoted, and no source has a closing bracket. So a stream says which records it got: from its
text, their sources and what they say can be read back.

## Main definitions

* `Text.IsOneLine` — a text without line breaks
* `Journal.Shows` — a text consists of the lines of sources and what they say

## Main results

* `Text.isOneLine_quoted` — quoting leaves no line breaks
* `Record.isOneLine_message` — what a record says has none
* `Journal.Shows.unique` — a text shows one list of sources and messages only
* `Journal.shows_lines` — the lines of records show where these come from and what they say
-/

import RouteTemplate.Matching.Journal

namespace RouteTemplate

/-! ## Texts without line breaks -/

namespace Text

/-- The text has no line breaks. -/
def IsOneLine (s : String) : Prop :=
  '\n' ∉ s.toList

instance (s : String) : Decidable (IsOneLine s) :=
  inferInstanceAs (Decidable ('\n' ∉ s.toList))

variable {s t : String} {parts : List String}

theorem IsOneLine.append (hs : IsOneLine s) (ht : IsOneLine t) : IsOneLine (s ++ t) := by
  rw [IsOneLine, String.toList_append, List.mem_append, not_or]
  exact ⟨hs, ht⟩

theorem isOneLine_join (h : ∀ s ∈ parts, IsOneLine s) : IsOneLine (String.join parts) := by
  rw [IsOneLine, String.toList_join, List.mem_flatMap]
  rintro ⟨s, hs, hbreak⟩
  exact h s hs hbreak

theorem isOneLine_commaSeparated (h : ∀ s ∈ parts, IsOneLine s) :
    IsOneLine (commaSeparated parts) := by
  induction parts with
  | nil => decide
  | cons s parts ih =>
    obtain ⟨hs, hparts⟩ := List.forall_mem_cons.mp h
    cases parts with
    | nil => rwa [commaSeparated, String.intercalate_singleton]
    | cons t parts =>
      rw [commaSeparated, String.intercalate_cons_cons]
      exact (hs.append (by decide)).append (ih hparts)

theorem isOneLine_toString (n : Nat) : IsOneLine (toString n) := by
  intro hbreak
  have hdigit : ('\n' : Char).isDigit = true := by
    refine Nat.isDigit_of_mem_toDigits (b := 10) (n := n) (by decide) (by decide) ?_
    rwa [← Nat.toList_repr]
  exact absurd hdigit (by decide)

private theorem lineBreak_notMem_toDigitsCore (fuel n : Nat) {digits : List Char}
    (h : '\n' ∉ digits) : '\n' ∉ Nat.toDigitsCore 16 fuel n digits := by
  have hdigit : ∀ d < 16, Nat.digitChar d ≠ '\n' := by decide
  induction fuel generalizing n digits with
  | zero => exact h
  | succ fuel ih =>
    have hcons : '\n' ∉ Nat.digitChar (n % 16) :: digits :=
      List.not_mem_cons_of_ne_of_not_mem (hdigit _ (Nat.mod_lt n (by decide))).symm h
    rw [Nat.toDigitsCore]
    split
    · exact hcons
    · exact ih _ hcons

theorem isOneLine_hexadecimal (width n : Nat) : IsOneLine (hexadecimal width n) := by
  rw [IsOneLine, hexadecimal, String.toList_ofList, List.mem_append, not_or]
  refine ⟨fun hzero => ?_, lineBreak_notMem_toDigitsCore _ _ List.not_mem_nil⟩
  exact absurd (List.eq_of_mem_replicate hzero) (by decide)

/-- Inside quotes a line break is escaped. -/
theorem isOneLine_quoteChar {mark : Char} (hmark : mark ≠ '\n') (c : Char) :
    IsOneLine (quoteChar mark c) := by
  -- A line break is one of those for which a letter stands, so it is not among those copied.
  rw [quoteChar]
  split
  · rename_i hescaped
    rcases Bool.or_eq_true _ _ |>.mp hescaped with hc | hc
    · obtain rfl := of_decide_eq_true hc
      simp [IsOneLine, hmark.symm]
    · obtain rfl := of_decide_eq_true hc
      decide
  split
  · decide
  split
  · decide
  split
  · decide
  split
  · rename_i hbreak _ _
    rw [IsOneLine, String.toList_singleton]
    simpa [eq_comm] using hbreak
  split
  · exact IsOneLine.append (by decide) (isOneLine_hexadecimal _ _)
  split
  · exact IsOneLine.append (by decide) (isOneLine_hexadecimal _ _)
  · exact IsOneLine.append (by decide) (isOneLine_hexadecimal _ _)

/-- A quoted text has no line breaks, whatever the text is. -/
theorem isOneLine_quoted (s : String) : IsOneLine (quoted s) := by
  have hmark : quoteMark s.toList ≠ '\n' := by
    rw [quoteMark]
    split <;> decide
  have hsingleton : IsOneLine (String.singleton (quoteMark s.toList)) := by
    rw [IsOneLine, String.toList_singleton]
    simpa [eq_comm] using hmark
  have hchars : IsOneLine (String.join (s.toList.map (quoteChar (quoteMark s.toList)))) :=
    isOneLine_join (List.forall_mem_map.mpr fun c _ => isOneLine_quoteChar hmark c)
  exact (hsingleton.append hchars).append hsingleton

end Text

/-! ## What records say -/

open Text

theorem Value.isOneLine_shownTuple {parts : List String} (h : ∀ s ∈ parts, IsOneLine s) :
    IsOneLine (shownTuple parts) := by
  rw [shownTuple.eq_def]
  split
  · rename_i single
    have hsingle := h single List.mem_cons_self
    exact (IsOneLine.append (by decide) hsingle).append (by decide)
  · exact (IsOneLine.append (by decide) (isOneLine_commaSeparated h)).append (by decide)

theorem Value.isOneLine_shownMapping {entries : List (String × String)}
    (h : ∀ entry ∈ entries, IsOneLine entry.2) : IsOneLine (shownMapping entries) := by
  refine (IsOneLine.append (by decide) (isOneLine_commaSeparated ?_)).append (by decide)
  refine List.forall_mem_map.mpr fun entry hentry => ?_
  exact ((isOneLine_quoted entry.1).append (by decide)).append (h entry hentry)

namespace Record

theorem isOneLine_shownErrors (errors : Fields (List String)) : IsOneLine (shownErrors errors) := by
  refine Value.isOneLine_shownMapping (List.forall_mem_map.mpr fun entry _ => ?_)
  exact Value.isOneLine_shownTuple (List.forall_mem_map.mpr fun rule _ => isOneLine_quoted rule)

/-- The texts that a record names are quoted, and the rest has no line breaks. -/
theorem isOneLine_message (r : Record) : IsOneLine r.message := by
  cases r with
  | universal template =>
    exact (IsOneLine.append (by decide) (isOneLine_quoted template)).append (by decide)
  | compiled template regex =>
    exact ((IsOneLine.append (by decide) (isOneLine_quoted template)).append (by decide)).append
      (isOneLine_quoted regex)
  | unmatched path template =>
    exact ((IsOneLine.append (by decide) (isOneLine_quoted path)).append (by decide)).append
      (isOneLine_quoted template)
  | rejected path template errors =>
    have hpath : IsOneLine ("Path " ++ Text.quoted path ++ " rejected by ") :=
      (IsOneLine.append (by decide) (isOneLine_quoted path)).append (by decide)
    exact ((hpath.append (isOneLine_quoted template)).append (by decide)).append
      (isOneLine_shownErrors errors)
  | unchanged template =>
    exact (IsOneLine.append (by decide) (isOneLine_quoted template)).append (by decide)
  | validated count =>
    exact (IsOneLine.append (by decide) (isOneLine_toString count)).append (by decide)

theorem bracket_notMem_source (r : Record) : ']' ∉ r.source.toList := by
  cases r <;> simp [source]

end Record

/-! ## Lines -/

namespace Journal

/-- The text consists of lines, one for each source and what it says: the source in brackets, the
level, and the message up to the end of the line. -/
inductive Shows : List Char → List (String × String) → Prop
  | nil : Shows [] []
  | line {source message : String} {rest : List Char} {entries : List (String × String)}
      (hsource : ']' ∉ source.toList) (hmessage : '\n' ∉ message.toList) (h : Shows rest entries) :
      Shows ('[' :: (source.toList ++ ']' :: (" - [DEBUG] - ".toList ++
        (message.toList ++ '\n' :: rest)))) ((source, message) :: entries)

/-- Before the first character of a kind there is only one text. -/
private theorem eq_of_append_cons_eq {c : Char} {cs ds rest rest' : List Char} (hc : c ∉ cs)
    (hd : c ∉ ds) (h : cs ++ c :: rest = ds ++ c :: rest') : cs = ds ∧ rest = rest' := by
  induction cs generalizing ds with
  | nil =>
    cases ds with
    | nil => exact ⟨rfl, (List.cons.inj h).2⟩
    | cons d ds =>
      obtain ⟨rfl, -⟩ := List.cons.inj h
      exact absurd List.mem_cons_self hd
  | cons c' cs ih =>
    cases ds with
    | nil =>
      obtain ⟨rfl, -⟩ := List.cons.inj h
      exact absurd List.mem_cons_self hc
    | cons d ds =>
      obtain ⟨rfl, htail⟩ := List.cons.inj h
      obtain ⟨rfl, hrest⟩ := ih (List.not_mem_of_not_mem_cons hc)
        (List.not_mem_of_not_mem_cons hd) htail
      exact ⟨rfl, hrest⟩

/-- What a text shows can be read from it. -/
theorem Shows.unique {text : List Char} {entries entries' : List (String × String)}
    (h : Shows text entries) (h' : Shows text entries') : entries = entries' := by
  generalize htext : text = text' at h'
  -- The bracket that closes a source and the end of a line are each the first of their kind.
  induction h generalizing text' entries' with
  | nil =>
    cases h' with
    | nil => rfl
    | line => exact absurd htext (by simp)
  | line hsource hmessage _ ih =>
    cases h' with
    | nil => exact absurd htext (by simp)
    | line hsource' hmessage' h' =>
      obtain ⟨hsources, htext⟩ := eq_of_append_cons_eq hsource hsource' (List.cons.inj htext).2
      obtain ⟨hmessages, htext⟩ :=
        eq_of_append_cons_eq hmessage hmessage' (List.append_cancel_left htext)
      rw [String.toList_inj.mp hsources, String.toList_inj.mp hmessages, ih _ htext h']

theorem Shows.append {text text' : List Char} {entries entries' : List (String × String)}
    (h : Shows text entries) (h' : Shows text' entries') :
    Shows (text ++ text') (entries ++ entries') := by
  induction h with
  | nil => exact h'
  | line hsource hmessage _ ih =>
    simpa only [List.cons_append, List.append_assoc] using ih.line hsource hmessage

/-- The line of a record says where it comes from and what it says. -/
theorem shows_line (r : Record) : Shows (line r).toList [(r.source, r.message)] := by
  have hline : (line r).toList = '[' :: (r.source.toList ++ ']' :: (" - [DEBUG] - ".toList ++
      (r.message.toList ++ ['\n']))) := by
    simp [line]
  rw [hline]
  exact Shows.nil.line r.bracket_notMem_source r.isOneLine_message

/-- The lines of records show these records, in order. -/
theorem shows_lines (records : List Record) :
    Shows (String.join (records.map line)).toList
      (records.map fun r => (r.source, r.message)) := by
  induction records with
  | nil => exact .nil
  | cons r records ih =>
    rw [List.map_cons, String.join_cons, String.toList_append]
    exact (shows_line r).append ih

end Journal

end RouteTemplate
