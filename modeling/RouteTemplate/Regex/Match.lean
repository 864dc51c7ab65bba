/-
# Matching

A match is found by trying alternatives in order and going back to the latest choice whenever
the rest of the expression fails. What is still to be matched is passed along as a function, so
each clause says what one construct does at a position, whatever follows it.

## Main definitions

* `Cursor` — a position in a text, with the groups captured on the way to it
* `Regex.run` — the first way through an expression after which the continuation succeeds
* `Regex.matchStart`, `Regex.matchWhole`, `Regex.search` — where a match may begin and end
-/

import RouteTemplate.Regex.Syntax

namespace RouteTemplate.Regex

/-- The given number of characters at the front of a text. -/
structure Span where
  text : List Char
  length : Nat
  deriving DecidableEq, Repr

/-- The characters of a span. -/
def Span.chars (s : Span) : List Char :=
  s.text.take s.length

/-- A position in a text: how many characters precede it, which ones (the nearest first), which
ones follow, and what the groups have captured (the latest first). -/
structure Cursor where
  offset : Nat
  before : List Char
  after : List Char
  captures : List (Nat × Span)
  deriving DecidableEq, Repr

namespace Cursor

/-- The start of a text, before any group has captured. -/
def start (text : List Char) : Cursor :=
  ⟨0, [], text, []⟩

/-- Past the next character, when it satisfies the test. -/
def step? (test : Char → Bool) (p : Cursor) : Option Cursor :=
  match p.after with
  | [] => none
  | c :: rest =>
    if test c then some { p with offset := p.offset + 1, before := c :: p.before, after := rest }
    else none

/-- Past the given characters, each of which may differ in a way that the comparison accepts. -/
def skip? (same : Char → Char → Bool) : List Char → Cursor → Option Cursor
  | [], p => some p
  | c :: rest, p => (p.step? (same c)).bind (skip? same rest)

/-- The given number of characters back. -/
def back? : Nat → Cursor → Option Cursor
  | 0, p => some p
  | n + 1, p =>
    match p.before with
    | [] => none
    | c :: rest =>
      back? n { p with offset := p.offset - 1, before := rest, after := c :: p.after }

/-- What a group has captured last. -/
def captured? (p : Cursor) (number : Nat) : Option (List Char) :=
  (p.captures.lookup number).map Span.chars

/-- The text between an earlier position and this one becomes the group's capture. -/
def capture (p : Cursor) (number : Nat) (since : Cursor) : Cursor :=
  { p with captures := (number, ⟨since.after, p.offset - since.offset⟩) :: p.captures }

/-- The condition holds at the position. -/
def satisfies (p : Cursor) : Anchor → Bool
  | .textStart => p.before.isEmpty
  | .lineStart => p.before.isEmpty || p.before.head? == some '\n'
  | .textEnd => p.after.isEmpty
  | .lastLineEnd => p.after.isEmpty || p.after == ['\n']
  | .lineEnd => p.after.isEmpty || p.after.head? == some '\n'
  | .wordEdge asciiOnly negated =>
    let isWord (c : Option Char) : Bool := c.any (Property.word.holds asciiOnly)
    !(p.before.isEmpty && p.after.isEmpty) &&
      ((isWord p.before.head? != isWord p.after.head?) != negated)

end Cursor

/-- What is still to be matched from a position on. -/
abbrev Continuation := Cursor → Option Cursor

/-- Whether another repetition is admitted after the given number of them. -/
def admits (most : Option Nat) (count : Nat) : Bool :=
  match most with
  | none => true
  | some most => count < most

/-- Repetitions of a body, as many as the greed asks for, then what follows. Beyond the least
number a repetition that takes no character is the last one. -/
def iterate (body : Cursor → Continuation → Option Cursor) (greed : Greed) (least : Nat)
    (most : Option Nat) : Nat → Nat → Option Nat → Cursor → Continuation → Option Cursor
  | 0, _, _, _, _ => none
  | fuel + 1, count, last, p, next =>
    let more (last : Option Nat) : Option Cursor :=
      body p fun q => iterate body greed least most fuel (count + 1) last q next
    -- A repetition that began here and took nothing would begin here again without end.
    let mayRepeat := admits most count && last != some p.offset
    if count < least then
      match greed with
      | .possessive =>
        match body p some with
        | some q => iterate body greed least most fuel (count + 1) last q next
        | none => none
      | .greedy | .lazy => more last
    else match greed with
      | .greedy =>
        if mayRepeat then
          match more (some p.offset) with
          | some found => some found
          | none => next p
        else next p
      | .lazy =>
        match next p with
        | some found => some found
        | none => if mayRepeat then more (some p.offset) else none
      | .possessive =>
        if mayRepeat then
          match body p some with
          | some q => iterate body greed least most fuel (count + 1) (some p.offset) q next
          | none => next p
        else next p

/-- Enough repetitions for any match from a position: the obligatory ones, and one for each
character that follows, with one more that takes none. -/
def repetitionBound (least : Nat) (p : Cursor) : Nat :=
  least + p.after.length + 2

/-- The first way through the expression, in the order of its alternatives, after which the
continuation succeeds. -/
def run : Regex → Cursor → Continuation → Option Cursor
  | .empty, p, next => next p
  | .one cls, p, next => (p.step? cls.holds).bind next
  | .anchor a, p, next => if p.satisfies a then next p else none
  | .seq a b, p, next => a.run p fun q => b.run q next
  | .alt a b, p, next =>
    match a.run p next with
    | some found => some found
    | none => b.run p next
  | .repetition greed least most a, p, next =>
    iterate (fun q k => a.run q k) greed least most (repetitionBound least p) 0 none p next
  | .group number a, p, next => a.run p fun q => next (q.capture number p)
  | .atomic a, p, next => (a.run p some).bind next
  | .look direction negated a, p, next =>
    let found := match direction with
      | .ahead => a.run p some
      | .behind distance => (p.back? distance).bind fun q => a.run q some
    match found, negated with
    -- The position stays, but what was captured on the way is kept.
    | some q, false => next { p with captures := q.captures }
    | none, true => next p
    | _, _ => none
  | .backreference mode number, p, next =>
    match p.captured? number with
    | some text =>
      (p.skip? (fun c d => mode.fold c.toNat == mode.fold d.toNat) text).bind next
    | none => none
  | .conditional number a b, p, next =>
    if (p.captured? number).isSome then a.run p next else b.run p next

/-- The first match that begins at the start of the text. -/
def matchStart (r : Regex) (text : List Char) : Option Cursor :=
  r.run (Cursor.start text) some

/-- The first match that takes the whole text. -/
def matchWhole (r : Regex) (text : List Char) : Option Cursor :=
  r.run (Cursor.start text) fun p => if p.after.isEmpty then some p else none

/-- The first match that begins at the given position or, failing that, further on. -/
def searchFrom (r : Regex) : List Char → Cursor → Option Cursor
  | [], p => r.run p some
  | c :: rest, p =>
    match r.run p some with
    | some found => some found
    | none =>
      searchFrom r rest { p with offset := p.offset + 1, before := c :: p.before, after := rest }

/-- The first match anywhere in the text. -/
def search (r : Regex) (text : List Char) : Option Cursor :=
  searchFrom r text (Cursor.start text)

end RouteTemplate.Regex
