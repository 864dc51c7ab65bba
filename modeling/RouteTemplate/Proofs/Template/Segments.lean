/-
# Templates that consist of segments

A template may consist of segments, each after a slash, of which each is a literal text or one
reference. What fits such a template consists of as many segments, and each reference takes a whole
one, so a path says on its own what each reference takes.

## Main definitions

* `Segment` — a literal text or a reference
* `templateOf` — the template of segments
* `pathOf` — the path of segments, which has encodings in place of references

## Main results

* `fits_pathOf` — the path that is filled in fits the template
* `Fits.eq_takenFrom` — the references take nothing else than what was filled in for them
-/

import RouteTemplate.Proofs.Template.Fitting

namespace RouteTemplate.Template

/-- A segment of a template: a literal text without slashes and references, or a reference to the
parameter of the given name. -/
inductive Segment where
  | literal (text : List Char) (hne : text ≠ []) (hslash : '/' ∉ text)
      (hliteral : ∀ r, .reference r ∉ scan text)
  | reference (rawName : List Char) (name : String) (hrawName : IsName rawName)
      (hname : Text.percentDecode? (String.ofList rawName) = some name)

/-- The texts one after another, each after a slash. -/
def slashed (texts : List (List Char)) : List Char :=
  texts.flatMap ('/' :: ·)

namespace Segment

/-- The text of a segment in a template. -/
def chars : Segment → List Char
  | literal text _ _ _ => text
  | reference rawName _ _ _ => openBrace :: rawName ++ [closeBrace]

/-- The name of the parameter that a segment refers to, if any. -/
def names : Segment → List String
  | literal _ _ _ _ => []
  | reference _ name _ _ => [name]

/-- The text of a segment in a path, where encodings stand in place of references. -/
def fill (encoding : String → List Char) : Segment → List Char
  | literal text _ _ _ => text
  | reference _ name _ _ => encoding name

/-- What the reference of a segment takes when the segment of the path has the given text. -/
def takes (text : List Char) : Segment → Taken
  | literal _ _ _ _ => []
  | reference _ name _ _ => [(⟨name, '/', false⟩, some (String.ofList text))]

theorem slash_notMem_fill {segment : Segment} {encoding : String → List Char}
    (hencoding : ∀ name ∈ segment.names, encoding name ≠ [] ∧ '/' ∉ encoding name) :
    '/' ∉ segment.fill encoding := by
  cases segment with
  | literal text _ hslash => exact hslash
  | reference rawName name => exact (hencoding name List.mem_cons_self).2

theorem chars_ne_nil (segment : Segment) : segment.chars ≠ [] := by
  cases segment with
  | literal text hne => exact hne
  | reference rawName => exact List.cons_ne_nil _ _

theorem getLast?_chars_ne (segment : Segment) : segment.chars.getLast? ≠ some '/' := by
  cases segment with
  | literal text _ hslash =>
    intro h
    exact hslash (List.mem_of_getLast? h)
  | reference rawName =>
    rw [chars, List.getLast?_concat]
    decide

end Segment

/-! ## Texts after slashes -/

theorem slashed_cons (text : List Char) (texts : List (List Char)) :
    slashed (text :: texts) = '/' :: text ++ slashed texts :=
  List.flatMap_cons

theorem scan_slashed_cons (text : List Char) (texts : List (List Char)) :
    scan (slashed (text :: texts)) = scan ('/' :: text) ++ scan (slashed texts) := by
  cases texts with
  | nil => simp [slashed, scan, scanFrom]
  | cons next texts =>
    rw [slashed_cons, slashed_cons next]
    exact scan_append_slash ('/' :: text) _

/-- A slash follows, or nothing. -/
private def AtBoundary (rest : List Char) : Prop :=
  rest = [] ∨ rest.head? = some '/'

private theorem atBoundary_slashed (texts : List (List Char)) : AtBoundary (slashed texts) := by
  cases texts with
  | nil => exact .inl rfl
  | cons text texts => exact .inr rfl

/-- What precedes the first slash is determined by the whole text. -/
private theorem append_eq_append {u w rest rest' : List Char} (hu : '/' ∉ u) (hw : '/' ∉ w)
    (hrest : AtBoundary rest) (hrest' : AtBoundary rest') (h : u ++ rest = w ++ rest') :
    u = w ∧ rest = rest' := by
  have hnil {u w rest rest' : List Char} (hw : '/' ∉ w) (hrest : AtBoundary rest)
      {more : List Char} (hmore : w = u ++ more) (hsplit : rest = more ++ rest') : more = [] := by
    cases more with
    | nil => rfl
    | cons c more =>
      rcases hrest with hrest | hrest
      · exact absurd (hrest.symm.trans hsplit) (by simp)
      · obtain rfl : c = '/' := by simpa [hsplit] using hrest
        exact absurd (List.mem_append_right u List.mem_cons_self) (hmore ▸ hw)
  -- One of the two texts is a prefix of the other; what is more would have to begin with a slash.
  rcases List.append_eq_append_iff.mp h with ⟨more, hmore, hsplit⟩ | ⟨more, hmore, hsplit⟩
  · obtain rfl := hnil hw hrest hmore hsplit
    simp_all
  · obtain rfl := hnil hu hrest' hmore hsplit
    simp_all

/-! ## Pieces one after another -/

section Pieces

variable {language : Definition Value → Bool → Option Char → Language Char} {sensitive : Bool}
  {declarations : Declarations} {pieces more : List Piece} {taken : Taken} {u : List Char}

theorem Fits.append {taken' : Taken} {u' : List Char}
    (h : Fits language sensitive declarations pieces taken u)
    (h' : Fits language sensitive declarations more taken' u') :
    Fits language sensitive declarations (pieces ++ more) (taken ++ taken') (u ++ u') := by
  induction h with
  | nil => exact h'
  | special hletter _ ih => exact .special hletter ih
  | plain hletter _ ih => exact .plain hletter ih
  | present hrefers htext _ ih =>
    rw [List.append_assoc _ _ u']
    exact .present hrefers htext ih
  | absent hrefers hrequired _ ih => exact .absent hrefers hrequired ih

theorem Fits.exists_of_append
    (h : Fits language sensitive declarations (pieces ++ more) taken u) :
    ∃ first second v w, taken = first ++ second ∧ u = v ++ w ∧
      Fits language sensitive declarations pieces first v ∧
      Fits language sensitive declarations more second w := by
  induction pieces generalizing taken u with
  | nil => exact ⟨[], taken, [], u, rfl, rfl, .nil, h⟩
  | cons piece pieces ih =>
    cases h with
    | special hletter hrest =>
      obtain ⟨first, second, v, w, rfl, rfl, hfirst, hsecond⟩ := ih hrest
      exact ⟨first, second, _ :: v, w, rfl, rfl, .special hletter hfirst, hsecond⟩
    | plain hletter hrest =>
      obtain ⟨first, second, v, w, rfl, rfl, hfirst, hsecond⟩ := ih hrest
      exact ⟨first, second, _ :: v, w, rfl, rfl, .plain hletter hfirst, hsecond⟩
    | present hrefers htext hrest =>
      obtain ⟨first, second, v, w, rfl, rfl, hfirst, hsecond⟩ := ih hrest
      exact ⟨_ :: first, second, _, w, rfl, (List.append_assoc _ v w).symm,
        .present hrefers htext hfirst, hsecond⟩
    | absent hrefers hrequired hrest =>
      obtain ⟨first, second, v, w, rfl, rfl, hfirst, hsecond⟩ := ih hrest
      exact ⟨_ :: first, second, v, w, rfl, rfl, .absent hrefers hrequired hfirst, hsecond⟩

/-- Pieces without references are fitted by their letters alone. -/
theorem fits_iff_of_literal (hliteral : ∀ r, .reference r ∉ pieces) :
    Fits language sensitive declarations pieces taken u ↔
      taken = [] ∧ u ∈ word sensitive (pieces.flatMap Piece.chars) := by
  induction pieces generalizing taken u with
  | nil =>
    rw [List.flatMap_nil, word_nil, Language.mem_one]
    constructor
    · intro h
      cases h
      exact ⟨rfl, rfl⟩
    · rintro ⟨rfl, rfl⟩
      exact .nil
  | cons piece pieces ih =>
    have hrest (r : Reference) : .reference r ∉ pieces :=
      fun h => hliteral r (List.mem_cons_of_mem _ h)
    cases piece with
    | reference r => exact absurd List.mem_cons_self (hliteral r)
    | special c =>
      constructor
      · intro h
        cases h with
        | special hletter h =>
          obtain ⟨rfl, hword⟩ := (ih hrest).mp h
          exact ⟨rfl, .cons hletter hword⟩
      · rintro ⟨rfl, hword⟩
        cases hword with
        | cons hletter hword => exact .special hletter ((ih hrest).mpr ⟨rfl, hword⟩)
    | plain c =>
      constructor
      · intro h
        cases h with
        | plain hletter h =>
          obtain ⟨rfl, hword⟩ := (ih hrest).mp h
          exact ⟨rfl, .cons hletter hword⟩
      · rintro ⟨rfl, hword⟩
        cases hword with
        | cons hletter hword => exact .plain hletter ((ih hrest).mpr ⟨rfl, hword⟩)

end Pieces

/-! ## Segments of a path -/

variable {sensitive : Bool} {declarations : Declarations} {encoding : String → List Char}

/-- A parameter about which nothing is declared is a required string. -/
private theorem refersTo_plain {r : Reference} {name : String}
    (hname : Text.percentDecode? (String.ofList r.rawName) = some name)
    (hundeclared : declarations.describe name = .null) :
    r.RefersTo declarations name (.plain name) := by
  refine ⟨hname, ?_⟩
  rw [declaredDefinition, hundeclared]
  rfl

namespace Segment

variable {segment : Segment} {taken : Taken} {u : List Char}

/-- The segment of a path that is filled in fits the segment of the template. -/
theorem fits_fill (hundeclared : ∀ name ∈ segment.names, declarations.describe name = .null)
    (hencoding : ∀ name ∈ segment.names, encoding name ≠ [] ∧ '/' ∉ encoding name) :
    Fits (captureLanguage sensitive) sensitive declarations (scan ('/' :: segment.chars))
      (segment.takes (segment.fill encoding)) ('/' :: segment.fill encoding) := by
  cases segment with
  | literal text _ _ hliteral =>
    rw [chars, scan_slash_of_notMem hliteral]
    -- Every letter is the same as itself, whether case counts or not.
    refine .special (.inl rfl) ((fits_iff_of_literal hliteral).mpr ⟨rfl, ?_⟩)
    rw [flatMap_chars_scan]
    exact List.forall₂_same.mpr fun c _ => .inl rfl
  | reference rawName name hrawName hname =>
    obtain ⟨hne, hslash⟩ := hencoding name List.mem_cons_self
    have hrefers := @refersTo_plain declarations ⟨some '/', false, rawName⟩ name hname
      (hundeclared name List.mem_cons_self)
    have htext : encoding name ∈ captureLanguage sensitive (.plain name) false (some '/') := by
      refine ⟨hne, ?_⟩
      rintro c hc rfl
      exact hslash hc
    have hpath : '/' :: encoding name = ['/'] ++ encoding name ++ [] :=
      (List.append_nil ('/' :: encoding name)).symm
    rw [chars, scan_slash_reference hrawName, fill, hpath]
    exact .present hrefers htext .nil

/-- A text that fits a segment is a segment, of which the reference takes the whole. -/
theorem exists_of_fits (hundeclared : ∀ name ∈ segment.names, declarations.describe name = .null)
    (h : Fits (captureLanguage sensitive) sensitive declarations (scan ('/' :: segment.chars))
      taken u) :
    ∃ text, '/' ∉ text ∧ u = '/' :: text ∧ taken = segment.takes text := by
  cases segment with
  | literal text _ hslash hliteral =>
    rw [chars, scan_slash_of_notMem hliteral] at h
    cases h with
    | @special _ d _ _ v hletter hrest =>
      obtain rfl := (sameLetter_of_uncased (by decide)).mp hletter
      obtain ⟨rfl, hword⟩ := (fits_iff_of_literal hliteral).mp hrest
      rw [flatMap_chars_scan] at hword
      -- A slash has no other case, so it fits no letter of the literal text.
      refine ⟨v, fun hmem => ?_, rfl, rfl⟩
      obtain ⟨c, hc, hsame⟩ := exists_of_mem_word hword hmem
      exact hslash (sameLetter_slash hsame ▸ hc)
  | reference rawName name hrawName hname =>
    rw [chars, scan_slash_reference hrawName] at h
    have hplain := @refersTo_plain declarations ⟨some '/', false, rawName⟩ name hname
      (hundeclared name List.mem_cons_self)
    cases h with
    | present hrefers htext hrest =>
      obtain ⟨rfl, rfl⟩ := hrefers.eq hplain
      cases hrest
      obtain ⟨-, hslash⟩ := htext
      exact ⟨_, fun hmem => hslash _ hmem rfl, List.append_nil _, rfl⟩
    | absent hrefers hrequired _ =>
      obtain ⟨rfl, rfl⟩ := hrefers.eq hplain
      exact absurd hrequired (by simp [Definition.plain])

end Segment

variable {segments : List Segment}

/-- The template of segments. -/
def templateOf (segments : List Segment) : List Char :=
  slashed (segments.map Segment.chars)

/-- The path of segments, where encodings stand in place of references. -/
def pathOf (encoding : String → List Char) (segments : List Segment) : List Char :=
  slashed (segments.map (Segment.fill encoding))

/-- What the references of the segments take from the path. -/
def takenFrom (encoding : String → List Char) (segments : List Segment) : Taken :=
  segments.flatMap fun segment => segment.takes (segment.fill encoding)

/-- The path that is filled in fits the template. -/
theorem fits_pathOf
    (hundeclared : ∀ name ∈ segments.flatMap Segment.names, declarations.describe name = .null)
    (hencoding : ∀ name ∈ segments.flatMap Segment.names,
      encoding name ≠ [] ∧ '/' ∉ encoding name) :
    Fits (captureLanguage sensitive) sensitive declarations (scan (templateOf segments))
      (takenFrom encoding segments) (pathOf encoding segments) := by
  induction segments with
  | nil => exact .nil
  | cons segment segments ih =>
    rw [List.flatMap_cons, List.forall_mem_append] at hundeclared hencoding
    rw [templateOf, List.map_cons, scan_slashed_cons, pathOf, List.map_cons, slashed_cons]
    exact (Segment.fits_fill hundeclared.1 hencoding.1).append
      (ih hundeclared.2 hencoding.2)

private theorem atBoundary_of_fits
    (hundeclared : ∀ name ∈ segments.flatMap Segment.names, declarations.describe name = .null)
    {taken : Taken} {u rest : List Char}
    (h : Fits (captureLanguage sensitive) sensitive declarations (scan (templateOf segments))
      taken u) (hrest : AtBoundary rest) : AtBoundary (u ++ rest) := by
  cases segments with
  | nil =>
    cases h
    exact hrest
  | cons segment segments =>
    rw [List.flatMap_cons, List.forall_mem_append] at hundeclared
    rw [templateOf, List.map_cons, scan_slashed_cons] at h
    obtain ⟨_, _, _, _, rfl, rfl, hfirst, -⟩ := h.exists_of_append
    obtain ⟨_, -, rfl, -⟩ := Segment.exists_of_fits hundeclared.1 hfirst
    exact .inr rfl

/-- When the path begins with a text that fits the template and goes on with another segment or
ends, it is this text as a whole, and the references take what was filled in for them. -/
theorem Fits.eq_takenFrom
    (hundeclared : ∀ name ∈ segments.flatMap Segment.names, declarations.describe name = .null)
    (hencoding : ∀ name ∈ segments.flatMap Segment.names,
      encoding name ≠ [] ∧ '/' ∉ encoding name)
    {taken : Taken} {u rest : List Char}
    (h : Fits (captureLanguage sensitive) sensitive declarations (scan (templateOf segments))
      taken u) (hrest : rest = [] ∨ rest.head? = some '/')
    (hpath : pathOf encoding segments = u ++ rest) :
    rest = [] ∧ taken = takenFrom encoding segments := by
  induction segments generalizing taken u with
  | nil =>
    cases h
    exact ⟨hpath.symm, rfl⟩
  | cons segment segments ih =>
    rw [List.flatMap_cons, List.forall_mem_append] at hundeclared hencoding
    rw [templateOf, List.map_cons, scan_slashed_cons] at h
    -- The first segment ends at the first slash on both sides, then the others follow.
    obtain ⟨first, second, v, w, rfl, rfl, hfirst, hsecond⟩ := h.exists_of_append
    obtain ⟨text, htext, rfl, rfl⟩ := Segment.exists_of_fits hundeclared.1 hfirst
    have hfill := Segment.slash_notMem_fill hencoding.1
    rw [pathOf, List.map_cons, slashed_cons, List.append_assoc, List.cons_append,
      List.cons_append, List.cons.injEq] at hpath
    obtain ⟨rfl, hlater⟩ := append_eq_append hfill htext (atBoundary_slashed _)
      (atBoundary_of_fits hundeclared.2 hsecond hrest) hpath.2
    obtain ⟨hnil, rfl⟩ := ih hundeclared.2 hencoding.2 hsecond hlater
    exact ⟨hnil, rfl⟩

/-! ## The template as a whole -/

/-- A template of segments does not end with a slash. -/
theorem getLast?_templateOf_ne (segments : List Segment) :
    (templateOf segments).getLast? ≠ some '/' := by
  induction segments with
  | nil => simp [templateOf, slashed]
  | cons segment segments ih =>
    rw [templateOf, List.map_cons, slashed_cons, List.getLast?_append]
    cases h : (slashed (segments.map Segment.chars)).getLast? with
    | some c =>
      rw [templateOf, h] at ih
      exact ih
    | none =>
      rw [Option.none_or, List.getLast?_cons_of_ne_nil segment.chars_ne_nil]
      exact segment.getLast?_chars_ne

/-- All of the template of segments must match. -/
theorem bodyText_templateOf (segments : List Segment) (options : Options) :
    bodyText (templateOf segments) options = templateOf segments := by
  rw [bodyText, beq_eq_false_iff_ne.mpr (getLast?_templateOf_ne segments), Bool.and_false]
  rfl

theorem templateOf_ne_slash (segments : List Segment) : templateOf segments ≠ ['/'] := by
  intro h
  exact getLast?_templateOf_ne segments (by rw [h]; rfl)

/-- Where some text fits the pieces, the references resolve. -/
theorem Fits.exists_resolves {pieces : List Piece}
    {language : Definition Value → Bool → Option Char → Language Char} {taken : Taken}
    {u : List Char} (h : Fits language sensitive declarations pieces taken u) :
    ∃ parts slots, Resolves declarations pieces parts slots := by
  induction h with
  | nil => exact ⟨_, _, .nil⟩
  | special _ _ ih =>
    obtain ⟨_, _, h⟩ := ih
    exact ⟨_, _, .special _ h⟩
  | plain _ _ ih =>
    obtain ⟨_, _, h⟩ := ih
    exact ⟨_, _, .plain _ h⟩
  | present hrefers _ _ ih =>
    obtain ⟨_, _, h⟩ := ih
    exact ⟨_, _, .reference hrefers h⟩
  | absent hrefers _ _ ih =>
    obtain ⟨_, _, h⟩ := ih
    exact ⟨_, _, .reference hrefers h⟩

/-- What is taken, parameter by parameter. -/
theorem takenFrom_eq_map (encoding : String → List Char) (segments : List Segment) :
    takenFrom encoding segments = (segments.flatMap Segment.names).map fun name =>
      (⟨name, '/', false⟩, some (String.ofList (encoding name))) := by
  rw [takenFrom, List.map_flatMap]
  congr 1
  funext segment
  cases segment with
  | literal text => rfl
  | reference rawName name => rfl

end RouteTemplate.Template
