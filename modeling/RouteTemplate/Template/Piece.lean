/-
# Pieces of a template

A template is read from left to right as references to parameters and single characters. A
reference is a name between braces, with an optional plus sign before the name and an optional
slash or point before the braces.

## Main definitions

* `Piece` — a reference, a character that is special in a regular expression, or another one
* `scan` — the pieces of a template
* `Piece.chars` — the text that a piece was read from

## Main results

* `flatMap_chars_scan` — the texts of the pieces make up the template
-/

import RouteTemplate.Text.DecimalDigit
import RouteTemplate.Text.WordChar

namespace RouteTemplate.Template

/-- The brace that opens a reference. -/
def openBrace : Char := '\x7b'

/-- The brace that closes a reference. -/
def closeBrace : Char := '\x7d'

/-- A character with a meaning of its own in a regular expression. -/
def isSpecial (c : Char) : Bool :=
  ['.', '*', '+', '?', '=', '^', '!', ':', '$', openBrace, closeBrace, '(', ')', '|', '[', ']',
    '/', '\\'].contains c

/-- A reference to a parameter: the slash or point before it, whether it may span segments, and
its name as it is written. -/
structure Reference where
  lead : Option Char
  expand : Bool
  rawName : List Char
  deriving DecidableEq, Repr

/-- The text of a reference. -/
def Reference.chars (r : Reference) : List Char :=
  r.lead.toList ++ openBrace :: (if r.expand then ['+'] else []) ++ r.rawName ++ [closeBrace]

/-- A piece of a template. -/
inductive Piece where
  | reference (r : Reference)
  | special (c : Char)
  | plain (c : Char)
  deriving DecidableEq, Repr

/-- The text of a piece. -/
def Piece.chars : Piece → List Char
  | .reference r => r.chars
  | .special c | .plain c => [c]

/-- The longest name at the front of a text, made of word characters and percent-escapes, and what
follows it. -/
def splitName : List Char → List Char × List Char
  | [] => ([], [])
  | '%' :: a :: b :: rest =>
    if Text.isHexDigit a && Text.isHexDigit b then
      let (name, after) := splitName rest
      ('%' :: a :: b :: name, after)
    else ([], '%' :: a :: b :: rest)
  | c :: rest =>
    if Text.isWordChar c then
      let (name, after) := splitName rest
      (c :: name, after)
    else ([], c :: rest)

/-- Whether a plus sign comes first, and what follows it. -/
def splitExpand : List Char → Bool × List Char
  | '+' :: rest => (true, rest)
  | rest => (false, rest)

/-- The reference between braces of which the first comes next. -/
def readBraces? (lead : Option Char) : List Char → Option Reference
  | [] => none
  | c :: rest =>
    if c = openBrace then
      let (expand, body) := splitExpand rest
      let (name, after) := splitName body
      if !name.isEmpty && after.head? == some closeBrace then some ⟨lead, expand, name⟩ else none
    else none

/-- The reference at the front of a text. -/
def readReference? : List Char → Option Reference
  | [] => none
  | c :: rest =>
    if c = '/' || c = '.' then readBraces? (some c) rest else readBraces? none (c :: rest)

/-- The pieces of a text, of which the given number of characters belongs to a piece read
before. -/
def scanFrom : Nat → List Char → List Piece
  | _, [] => []
  | n + 1, _ :: rest => scanFrom n rest
  | 0, c :: rest =>
    match readReference? (c :: rest) with
    | some r => .reference r :: scanFrom (r.chars.length - 1) rest
    | none => (if isSpecial c then .special c else .plain c) :: scanFrom 0 rest

/-- The pieces of a template. -/
def scan (template : List Char) : List Piece :=
  scanFrom 0 template

/-- The pieces with the position at which each begins. -/
def locate : Nat → List Piece → List (Nat × Piece)
  | _, [] => []
  | start, piece :: rest => (start, piece) :: locate (start + piece.chars.length) rest

/-! ## Nothing is lost -/

/-- A name and what follows it make up the text. -/
theorem splitName_append (cs : List Char) : (splitName cs).1 ++ (splitName cs).2 = cs := by
  fun_induction splitName cs <;> simp_all

/-- A plus sign and what follows it make up the text. -/
theorem splitExpand_append (cs : List Char) :
    (if (splitExpand cs).1 then ['+'] else []) ++ (splitExpand cs).2 = cs := by
  fun_cases splitExpand cs <;> simp

/-- The reference between braces is where the text begins, after what comes before the braces. -/
theorem prefix_of_readBraces? {lead : Option Char} {cs : List Char} {r : Reference}
    (h : readBraces? lead cs = some r) : r.chars <+: lead.toList ++ cs := by
  cases cs with
  | nil => simp [readBraces?] at h
  | cons c rest =>
    by_cases hc : c = openBrace
    · subst hc
      simp only [readBraces?, ↓reduceIte, Option.ite_none_right_eq_some, Bool.and_eq_true,
        beq_iff_eq, Option.some.injEq, List.head?_eq_some_iff] at h
      obtain ⟨⟨-, tail, htail⟩, rfl⟩ := h
      have hname := splitName_append (splitExpand rest).2
      have hexpand := splitExpand_append rest
      refine ⟨tail, ?_⟩
      rw [htail] at hname
      simp only [Reference.chars, List.append_assoc, List.cons_append, List.nil_append, hname,
        hexpand]
    · simp [readBraces?, hc] at h

/-- A reference that is read is where the text begins. -/
theorem prefix_of_readReference? {cs : List Char} {r : Reference}
    (h : readReference? cs = some r) : r.chars <+: cs := by
  cases cs with
  | nil => simp [readReference?] at h
  | cons c rest =>
    by_cases hc : c = '/' ∨ c = '.'
    · have h : readBraces? (some c) rest = some r := by simpa [readReference?, hc] using h
      exact prefix_of_readBraces? h
    · have h : readBraces? none (c :: rest) = some r := by simpa [readReference?, hc] using h
      exact prefix_of_readBraces? h

/-- A reference takes at least its braces. -/
theorem length_chars_pos (r : Reference) : 0 < r.chars.length :=
  List.length_pos_of_mem (a := openBrace) (by simp [Reference.chars])

/-- The pieces hold the text from the first character that belongs to none read before. -/
theorem flatMap_chars_scanFrom (n : Nat) (cs : List Char) :
    (scanFrom n cs).flatMap Piece.chars = cs.drop n := by
  fun_induction scanFrom n cs with
  | case1 => simp
  | case2 n c rest ih => simpa using ih
  | case3 c rest r h ih =>
    obtain ⟨after, hafter⟩ := prefix_of_readReference? h
    have hrest : rest.drop (r.chars.length - 1) = after := by
      rw [← List.drop_succ_cons (a := c), Nat.sub_add_cancel (length_chars_pos r), ← hafter,
        List.drop_left]
    rw [List.flatMap_cons, ih, hrest, List.drop_zero, ← hafter, Piece.chars]
  | case4 c rest h ih => by_cases hc : isSpecial c <;> simp [hc, Piece.chars, ih]

/-- The texts of the pieces make up the template. -/
theorem flatMap_chars_scan (template : List Char) :
    (scan template).flatMap Piece.chars = template := by
  simpa [scan] using flatMap_chars_scanFrom 0 template

/-- The text with a backslash before every special character. -/
def escape (text : List Char) : List Char :=
  text.flatMap fun c => if isSpecial c then ['\\', c] else [c]

end RouteTemplate.Template
