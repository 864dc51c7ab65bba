/-
# Reading regular expressions

The text of an expression is read token by token. The reader keeps the groups that are open, the
innermost first; each holds the alternatives read so far, and what was read last can still be
repeated.

## Main definitions

* `Reader` — the state between two constructs
* `Reader.step` — the effect of the construct that begins with a token
* `Regex.parse` — the expression that a text denotes
-/

import RouteTemplate.Number.Numeral
import RouteTemplate.Regex.Bracket
import RouteTemplate.Regex.Syntax
import RouteTemplate.Text.Digit

namespace RouteTemplate.Regex

/-- What an open group will become when it is closed. -/
inductive Opener where
  | whole
  | capturing (number : Nat)
  | plain
  | atomic
  | ahead (negated : Bool)
  /-- An assertion about the preceding text, with the limit on references around it. -/
  | behind (negated : Bool) (outerLimit : Option Nat)
  | conditional (number : Nat)
  deriving DecidableEq, Repr

/-- Whether a repetition operator may follow. -/
inductive Repeatability where
  | repeatable
  | repeated
  | position
  deriving DecidableEq, Repr

/-- A part of a sequence. -/
structure Item where
  expression : Regex
  repeatability : Repeatability
  deriving DecidableEq, Repr

/-- A group that is still open: the flags inside it, its finished alternatives and the items of
the current one, each with the latest first. -/
structure Frame where
  opener : Opener
  flags : Flags
  finished : List Regex
  items : List Item
  deriving DecidableEq, Repr

namespace Frame

/-- A group that has just been opened. -/
def opened (opener : Opener) (flags : Flags) : Frame :=
  ⟨opener, flags, [], []⟩

/-- The group with one more item. -/
def push (f : Frame) (item : Item) : Frame :=
  { f with items := item :: f.items }

/-- The current alternative. -/
def current (f : Frame) : Regex :=
  sequence (f.items.reverse.map (·.expression))

/-- The alternatives, in order. -/
def alternatives (f : Frame) : List Regex :=
  (f.current :: f.finished).reverse

/-- The group after a bar. -/
def nextAlternative (f : Frame) : Frame :=
  { f with finished := f.current :: f.finished, items := [] }

/-- Nothing has been read inside the group. -/
def isFresh (f : Frame) : Bool :=
  f.items.isEmpty && f.finished.isEmpty

end Frame

/-- Repetition counts lie below this number, and so do the widths of assertions about preceding
text. -/
def countLimit : Nat := 4294967295

/-- The state of the reader: the innermost open group and those around it; the widths of the
capture groups, absent while a group is open; the named groups; the number of groups that an
assertion about preceding text may refer to; the groups that conditions refer to; and whether
some such assertion had no fixed width. -/
structure Reader where
  frame : Frame
  outer : List Frame
  widths : List (Option Width)
  names : List (List Char × Nat)
  limit : Option Nat
  conditions : List Nat
  uneven : Bool
  deriving DecidableEq, Repr

namespace Reader

/-- Before the first token. -/
def start (flags : Flags) : Reader :=
  ⟨.opened .whole flags, [], [], [], none, [], false⟩

/-- The flags in force. -/
def flags (r : Reader) : Flags :=
  r.frame.flags

/-- One more item in the innermost group. -/
def push (r : Reader) (item : Item) : Reader :=
  { r with frame := r.frame.push item }

/-- One more item that may be repeated. -/
def pushPlain (r : Reader) (e : Regex) : Reader :=
  r.push ⟨e, .repeatable⟩

/-- One more character of a class. -/
def pushClass (r : Reader) (cls : CharClass) : Reader :=
  r.pushPlain (.one cls)

/-- One more literal character. -/
def pushCode (r : Reader) (point : Nat) : Reader :=
  r.pushClass (.code r.flags.caseMode false point)

/-- One more condition on the position. -/
def pushAnchor (r : Reader) (a : Anchor) : Reader :=
  r.push ⟨.anchor a, .position⟩

/-- A new innermost group. -/
def openGroup (r : Reader) (opener : Opener) (flags : Flags) : Reader :=
  { r with frame := .opened opener flags, outer := r.frame :: r.outer }

/-- The width of a numbered group. -/
def groupWidth (r : Reader) (number : Nat) : Width :=
  (r.widths[number - 1]?.join).getD (0, some 0)

/-- The numbered group has been opened and closed. -/
def isClosed (r : Reader) (number : Nat) : Bool :=
  0 < number && (r.widths[number - 1]?.join).isSome

/-- Inside an assertion about preceding text, references reach the groups closed before it. -/
def mayRefer (r : Reader) (number : Nat) : Bool :=
  match r.limit with
  | none => true
  | some limit => r.isClosed number && number ≤ limit

/-- A new capture group, with its name if it has one. Names are not given twice. -/
def openCapture (r : Reader) (name : Option (List Char)) : Except Malformed Reader :=
  let number := r.widths.length + 1
  let r' := { r.openGroup (.capturing number) r.flags with widths := r.widths ++ [none] }
  match name with
  | none => .ok r'
  | some name =>
    if (r.names.lookup name).isSome then .error .ungrammatical
    else .ok { r' with names := (name, number) :: r.names }

/-- A reference to a group that is closed already. -/
def refer (r : Reader) (number : Nat) : Except Malformed Reader :=
  if r.isClosed number && r.mayRefer number then
    .ok (r.pushPlain (.backreference r.flags.caseMode number))
  else .error .ungrammatical

/-- The innermost group is complete and becomes an item of the group around it. -/
def close (r : Reader) (outer : Frame) (rest : List Frame) : Reader :=
  let body := choice r.frame.alternatives
  let up := { r with frame := outer, outer := rest }
  match r.frame.opener with
  | .whole | .plain => up.pushPlain body
  | .capturing number =>
    { up with widths := r.widths.set (number - 1) (some (body.width r.groupWidth)) }.pushPlain
      (.group number body)
  | .atomic => up.pushPlain (.atomic body)
  | .ahead negated => up.pushPlain (.look .ahead negated body)
  | .behind negated outerLimit =>
    -- The text is read from a fixed distance, so the least and the greatest width must agree.
    let (least, most) := body.width r.groupWidth
    { up with
      limit := outerLimit
      uneven := r.uneven || most != some least || countLimit ≤ least }.pushPlain
        (.look (.behind least) negated body)
  | .conditional number =>
    match r.frame.alternatives with
    | [present, absent] => up.pushPlain (.conditional number present absent)
    | _ => up.pushPlain (.conditional number body .empty)

/-- The item read last, repeated. -/
def repeatLast (r : Reader) (greed : Greed) (least : Nat) (most : Option Nat) :
    Except Malformed Reader :=
  match r.frame.items with
  | ⟨e, .repeatable⟩ :: earlier =>
    .ok { r with frame := { r.frame with
      items := ⟨.repetition greed least most e, .repeated⟩ :: earlier } }
  | _ => .error .ungrammatical

/-- A repetition operator whose bounds have been read, with the sign of its greed. -/
def quantify (r : Reader) (least : Nat) (most : Option Nat) (ts : List Token) :
    Except Malformed (Reader × List Token) :=
  match skip? '?' ts, skip? '+' ts with
  | some rest, _ => do return (← r.repeatLast .lazy least most, rest)
  | _, some rest => do return (← r.repeatLast .possessive least most, rest)
  | none, none => do return (← r.repeatLast .greedy least most, ts)

/-- The bounds between braces. An opening brace that begins no bounds is a literal. -/
def readBounds (r : Reader) (ts : List Token) : Except Malformed (Reader × List Token) :=
  let literal : Except Malformed (Reader × List Token) := .ok (r.pushCode '\x7b'.toNat, ts)
  if (skip? '\x7d' ts).isSome then literal
  else
    let (least, rest) := readNumber ts
    let (most, rest) := match skip? ',' rest with
      | some rest => readNumber rest
      | none => (least, rest)
    match skip? '\x7d' rest with
    | none => literal
    | some rest =>
      if (least.any (countLimit ≤ ·)) || most.any (countLimit ≤ ·) then .error .countTooLarge
      else if most.any (· < least.getD 0) then .error .ungrammatical
      else r.quantify (least.getD 0) most rest

/-- An escape that begins with a digit other than zero: a code of three octal digits, or a
reference to a group. -/
def readNumericEscape (r : Reader) (first : Char) (ts : List Token) :
    Except Malformed (Reader × List Token) :=
  match next? Char.isDigit ts with
  | none => do return (← r.refer (numberOf 10 [first]), ts)
  | some (second, rest) =>
    match next? isOctalDigit rest with
    | some (third, rest') =>
      -- Three octal digits are a code, whatever groups there are.
      if isOctalDigit first && isOctalDigit second then
        let point := numberOf 8 [first, second, third]
        if point ≤ 0xFF then .ok (r.pushCode point, rest') else .error .ungrammatical
      else do return (← r.refer (numberOf 10 [first, second]), rest)
    | none => do return (← r.refer (numberOf 10 [first, second]), rest)

/-- An escape outside brackets. -/
def readEscape (r : Reader) (c : Char) (ts : List Token) :
    Except Malformed (Reader × List Token) :=
  let ascii := r.flags.asciiOnly
  if c = 'A' then .ok (r.pushAnchor .textStart, ts)
  else if c = 'Z' then .ok (r.pushAnchor .textEnd, ts)
  else if c = 'b' then .ok (r.pushAnchor (.wordEdge ascii false), ts)
  else if c = 'B' then .ok (r.pushAnchor (.wordEdge ascii true), ts)
  else match property? ascii c with
    | some item => .ok (r.pushClass (.set r.flags.caseMode false [item]), ts)
    | none =>
      if c = '0' then
        let (digits, rest) := takeUpTo isOctalDigit 2 ts
        .ok (r.pushCode (numberOf 8 digits), rest)
      else if c.isDigit then r.readNumericEscape c ts
      else do
        let (point, rest) ← readEscapedCode c ts
        return (r.pushCode point, rest)

/-- Flags for the whole expression stand at its very start. -/
def setGlobalFlags (r : Reader) (added : Flags) : Except Malformed Reader :=
  if r.frame.opener = .whole && r.frame.isFresh then
    .ok { r with frame := { r.frame with flags := r.flags ++ added } }
  else .error .ungrammatical

/-- The flags that a group removes, up to the colon. -/
def readRemoved (added : Flags) (r : Reader) : List Char → Flags → List Token →
    Except Malformed (Reader × List Token)
  | c :: more, removed, ts =>
    match Flag.ofChar? c with
    | none => .error .ungrammatical
    | some flag =>
      if flag.isAlphabet || flag = .template then .error .ungrammatical
      else
        let removed := removed ++ [flag]
        if more.isEmpty then
          if added.any removed.contains || (skip? ':' ts).isNone then .error .ungrammatical
          else .ok (r.openGroup .plain (r.flags.adjust added removed), ts.drop 1)
        else readRemoved added r more removed ts
  | [], _, _ => .error .ungrammatical

/-- The letters that come next. -/
def letters (ts : List Token) : List Char × List Token :=
  takeUpTo Char.isAlpha ts.length ts

/-- Flags after a question mark: for the whole expression when a parenthesis ends them, for one
group when a colon does. -/
def readFlags (r : Reader) (ts : List Token) : Except Malformed (Reader × List Token) := do
  let (added, rest) := letters ts
  let added ← match added.mapM Flag.ofChar? with
    | some added => .ok added
    | none => .error .ungrammatical
  if Flags.conflicting added then .error .ungrammatical
  else match next? (fun _ => true) rest with
    | some (')', rest) =>
      if added.isEmpty then .error .ungrammatical
      else return (← r.setGlobalFlags added, rest)
    | some (':', rest) =>
      if added.isEmpty || added.contains .template then .error .ungrammatical
      else return (r.openGroup .plain (r.flags.adjust added []), rest)
    | some ('-', rest) =>
      if added.contains .template then .error .ungrammatical
      else
        let (removed, rest) := letters rest
        readRemoved added r removed [] rest
    | _ => .error .ungrammatical

/-- The text after a comment. -/
def skipComment : List Token → Except Malformed (List Token)
  | [] => .error .ungrammatical
  | t :: rest =>
    if t = .plain ')' then .ok rest
    else if t = .loneBackslash then .error .ungrammatical
    else skipComment rest

/-- A condition on a group, given by name or by number. -/
def readCondition (r : Reader) (ts : List Token) :
    Except Malformed (Reader × List Token) := do
  let (name, rest) ← readName ')' ts
  let (number, r) ←
    if isName Text.isWordChar Text.isDigit name then
      match r.names.lookup name with
      | some number => .ok (number, r)
      | none => .error .ungrammatical
    else match Number.readInteger? name with
      | some number =>
        if 0 < number then
          .ok (number.toNat, { r with conditions := number.toNat :: r.conditions })
        else .error .ungrammatical
      | none => .error .ungrammatical
  if r.mayRefer number then return (r.openGroup (.conditional number) r.flags, rest)
  else .error .ungrammatical

/-- An assertion about preceding text begins. -/
def openBehind (r : Reader) (negated : Bool) : Reader :=
  { r.openGroup (.behind negated r.limit) r.flags with
    limit := some (r.limit.getD r.widths.length) }

/-- A named group or a reference by name. -/
def readNamed (r : Reader) (ts : List Token) : Except Malformed (Reader × List Token) :=
  match next? (fun _ => true) ts with
  | some ('<', rest) => do
    let (name, rest) ← readName '>' rest
    if isName Text.isWordChar Text.isDigit name then
      return (← r.openCapture (some name), rest)
    else .error .ungrammatical
  | some ('=', rest) => do
    let (name, rest) ← readName ')' rest
    match r.names.lookup name with
    | some number => return (← r.refer number, rest)
    | none => .error .ungrammatical
  | _ => .error .ungrammatical

/-- What a question mark after an opening parenthesis introduces. -/
def readExtension (r : Reader) (ts : List Token) :
    Except Malformed (Reader × List Token) :=
  match next? (fun _ => true) ts with
  | none => .error .ungrammatical
  | some (c, rest) =>
    if c = 'P' then r.readNamed rest
    else if c = ':' then .ok (r.openGroup .plain r.flags, rest)
    else if c = '#' then do return (r, ← skipComment rest)
    else if c = '=' then .ok (r.openGroup (.ahead false) r.flags, rest)
    else if c = '!' then .ok (r.openGroup (.ahead true) r.flags, rest)
    else if c = '<' then
      match next? (fun d => d == '=' || d == '!') rest with
      | some (d, rest) => .ok (r.openBehind (d == '!'), rest)
      | none => .error .ungrammatical
    else if c = '(' then r.readCondition rest
    else if c = '>' then .ok (r.openGroup .atomic r.flags, rest)
    else r.readFlags ts

/-- The blank characters that a verbose expression does not read. -/
def isIgnored (c : Char) : Bool :=
  Text.isAsciiBlank c

/-- The text after a line. -/
def skipLine : List Token → List Token
  | [] => []
  | t :: rest =>
    if t = .plain '\n' then rest
    else if t = .loneBackslash then t :: rest
    else skipLine rest

/-- A bar begins another alternative. A condition has two. -/
def bar (r : Reader) : Except Malformed Reader :=
  match r.frame.opener, r.frame.finished with
  | .conditional _, _ :: _ => .error .ungrammatical
  | _, _ => .ok { r with frame := r.frame.nextAlternative }

/-- A closing parenthesis needs an open one. -/
def closeLast (r : Reader) : Except Malformed Reader :=
  match r.outer with
  | outer :: rest => .ok (r.close outer rest)
  | [] => .error (if r.flags.conflicting then .conflictingAlphabets else .ungrammatical)

/-- The construct that begins with a plain character. -/
def readPlain (r : Reader) (c : Char) (ts : List Token) :
    Except Malformed (Reader × List Token) :=
  let verbose := r.flags.contains .verbose
  if c = '|' then do return (← r.bar, ts)
  else if c = ')' then do return (← r.closeLast, ts)
  else if verbose && isIgnored c then .ok (r, ts)
  else if verbose && c = '#' then .ok (r, skipLine ts)
  else if c = '[' then do
    let (cls, rest) ← readBracket r.flags ts
    return (r.pushClass cls, rest)
  else if c = '?' then r.quantify 0 (some 1) ts
  else if c = '*' then r.quantify 0 none ts
  else if c = '+' then r.quantify 1 none ts
  else if c = '\x7b' then r.readBounds ts
  else if c = '.' then .ok (r.pushClass (.any (r.flags.contains .dotAll)), ts)
  else if c = '(' then
    match skip? '?' ts with
    | some rest => r.readExtension rest
    | none => do return (← r.openCapture none, ts)
  else if c = '^' then
    .ok (r.pushAnchor (if r.flags.contains .multiline then .lineStart else .textStart), ts)
  else if c = '$' then
    .ok (r.pushAnchor (if r.flags.contains .multiline then .lineEnd else .lastLineEnd), ts)
  else .ok (r.pushCode c.toNat, ts)

/-- The construct that begins with a token, and the tokens after it. -/
def step (r : Reader) (t : Token) (ts : List Token) :
    Except Malformed (Reader × List Token) :=
  match t with
  | .plain c => r.readPlain c ts
  | .escaped c => r.readEscape c ts
  | .loneBackslash => .error .ungrammatical

/-- All tokens. Every construct takes at least one, so their number bounds the constructs. -/
def readAll : Nat → Reader → List Token → Except Malformed Reader
  | _, r, [] => .ok r
  | 0, _, _ :: _ => .error .ungrammatical
  | n + 1, r, t :: ts => do
    let (r, rest) ← r.step t ts
    readAll n r rest

/-- The expression that has been read, when every group is closed, conditions refer to groups
that exist, and assertions about preceding text have a fixed width. -/
def finish (r : Reader) : Except Malformed Regex :=
  let e := choice r.frame.alternatives
  if !r.outer.isEmpty then .error .ungrammatical
  else if r.flags.conflicting then .error .conflictingAlphabets
  else if r.uneven || r.conditions.any (r.widths.length < ·) then .error .ungrammatical
  else if r.flags.contains .template && e.hasRepetition then .error .ungrammatical
  else .ok e

end Reader

/-- The expression that a text denotes under the given flags. -/
def parse (flags : Flags) (text : String) : Except Malformed Regex := do
  let ts := tokens text.toList
  let r ← (Reader.start flags).readAll ts.length ts
  r.finish

end RouteTemplate.Regex
