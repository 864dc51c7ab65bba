/-
# Texts that denote expressions

Reading a text takes the reader on from any state to one that holds more items, whatever follows
the text; only a sign of greed would still belong to what was read last. So the texts that are put
together from texts of known expressions denote expressions that are put together likewise.

## Main definitions

* `Reader.Reads` — a text takes the reader from one state to another
* `Denotes` — a text adds a sequence of expressions to the group in which it stands
* `DenotesTerm` — a text adds one expression, which may be repeated
* `DenotesBody` — a text fills a group

## Main results

* `Denotes.append` — texts one after another denote expressions one after another
* `DenotesBody.parse_eq_ok` — the expression of a whole text
-/

import Mathlib.Data.List.Forall2
import Mathlib.Logic.Relation
import RouteTemplate.Regex.Reader

namespace RouteTemplate.Regex

/-- No sign of greed comes first. -/
def Follows (cs : List Char) : Prop :=
  cs.head? ≠ some '?' ∧ cs.head? ≠ some '+'

theorem follows_nil : Follows [] := ⟨by simp, by simp⟩

theorem Follows.append {cs rest : List Char} (h : Follows cs) (hrest : Follows rest) :
    Follows (cs ++ rest) := by
  cases cs with
  | nil => exact hrest
  | cons c cs => exact h

/-! ## Tokens -/

theorem tokens_cons_of_ne {c : Char} (h : c ≠ '\\') (rest : List Char) :
    tokens (c :: rest) = .plain c :: tokens rest := by
  rw [tokens]
  · rw [if_neg h]
  · rintro _ _ rfl
    exact absurd rfl h

/-- A plain character comes first among the tokens when it comes first in the text. -/
theorem next?_tokens {test : Char → Bool} (htest : test '\\' = false) (cs : List Char) :
    next? test (tokens cs) =
      match cs with
      | [] => none
      | c :: rest => if test c then some (c, tokens rest) else none := by
  match cs with
  | [] => rfl
  | [c] =>
    by_cases hc : c = '\\'
    · subst hc
      simp [tokens, next?, htest]
    · rw [tokens_cons_of_ne hc, next?]
  | c :: d :: rest =>
    by_cases hc : c = '\\'
    · subst hc
      simp [tokens, next?, htest]
    · rw [tokens_cons_of_ne hc, next?]

/-- What is no sign of greed is not skipped as one. -/
theorem Follows.skip?_eq_none {rest : List Char} (h : Follows rest) :
    skip? '?' (tokens rest) = none ∧ skip? '+' (tokens rest) = none := by
  rw [skip?, skip?, next?_tokens (by decide), next?_tokens (by decide)]
  cases rest with
  | nil => exact ⟨rfl, rfl⟩
  | cons c rest =>
    have hquestion : c ≠ '?' := fun hc => h.1 (congrArg some hc)
    have hplus : c ≠ '+' := fun hc => h.2 (congrArg some hc)
    simp [hquestion, hplus]

namespace Reader

/-! ## Runs of the reader -/

/-- One construct is read. No more tokens are left than follow its first. -/
def Step (s s' : Reader × List Token) : Prop :=
  ∃ t ts, s.2 = t :: ts ∧ s.1.step t ts = .ok s' ∧ s'.2.length ≤ ts.length

/-- The text takes the reader from one state to another, whatever follows. -/
def Reads (r : Reader) (cs : List Char) (r' : Reader) : Prop :=
  ∀ rest, Relation.ReflTransGen Step (r, tokens (cs ++ rest)) (r', tokens rest)

/-- The text takes the reader from one state to another, whatever follows that is no sign of
greed. -/
def ReadsUnsigned (r : Reader) (cs : List Char) (r' : Reader) : Prop :=
  ∀ rest, Follows rest → Relation.ReflTransGen Step (r, tokens (cs ++ rest)) (r', tokens rest)

/-- A run to the end of the text is what reading all tokens gives. -/
theorem readAll_eq_ok {s s' : Reader × List Token} (h : Relation.ReflTransGen Step s s')
    (hend : s'.2 = []) : ∀ n, s.2.length ≤ n → s.1.readAll n s.2 = .ok s'.1 := by
  -- From the end of the run backwards: each step needs one unit more of the bound than the rest.
  induction h using Relation.ReflTransGen.head_induction_on with
  | refl =>
    intro n _
    rw [hend, readAll]
  | @head s u hstep _ ih =>
    intro n hn
    obtain ⟨t, ts, hs, hread, hlength⟩ := hstep
    rw [hs, List.length_cons] at hn
    obtain ⟨n, rfl⟩ := Nat.exists_eq_add_of_le' (Nat.le_of_add_left_le hn)
    rw [hs, readAll, hread]
    exact ih n (Nat.le_trans hlength (Nat.le_of_succ_le_succ hn))

variable {r r' r'' : Reader} {cs ds : List Char}

theorem Reads.unsigned (h : r.Reads cs r') : r.ReadsUnsigned cs r' :=
  fun rest _ => h rest

/-- One text after another is read in the state that the first leaves. -/
theorem Reads.trans (h : r.Reads cs r') (h' : r'.Reads ds r'') : r.Reads (cs ++ ds) r'' := by
  intro rest
  rw [List.append_assoc]
  exact (h (ds ++ rest)).trans (h' rest)

theorem ReadsUnsigned.trans (h : r.ReadsUnsigned cs r') (hds : Follows ds)
    (h' : r'.ReadsUnsigned ds r'') : r.ReadsUnsigned (cs ++ ds) r'' := by
  intro rest hrest
  rw [List.append_assoc]
  exact (h (ds ++ rest) (hds.append hrest)).trans (h' rest hrest)

/-- A text that begins with no sign of greed shields the text before it. -/
theorem ReadsUnsigned.trans_cons {c : Char} (h : r.ReadsUnsigned cs r')
    (hc : Follows (c :: ds)) (h' : r'.Reads (c :: ds) r'') : r.Reads (cs ++ c :: ds) r'' := by
  intro rest
  rw [List.append_assoc]
  exact (h (c :: ds ++ rest) hc).trans (h' rest)

/-- A construct that begins with a plain character is read at once. -/
theorem step_plain {c : Char} {ts ts' : List Token}
    (hread : r.readPlain c ts = .ok (r', ts')) (hlength : ts'.length ≤ ts.length) :
    Relation.ReflTransGen Step (r, .plain c :: ts) (r', ts') :=
  .single ⟨.plain c, ts, rfl, hread, hlength⟩

/-- A plain character is a construct of its own. -/
theorem reads_char {c : Char} (hc : c ≠ '\\')
    (hread : ∀ ts, r.readPlain c ts = .ok (r', ts)) : r.Reads [c] r' := by
  intro rest
  rw [List.singleton_append, tokens_cons_of_ne hc]
  exact step_plain (hread _) (Nat.le_refl _)

/-- An escape is a construct of its own. -/
theorem reads_escape {c : Char} (hread : ∀ ts, r.readEscape c ts = .ok (r', ts)) :
    r.Reads ['\\', c] r' :=
  fun _ => .single ⟨_, _, rfl, hread _, Nat.le_refl _⟩

/-- The reader in a group, with the widths of the capture groups so far. -/
def inside (frame : Frame) (outer : List Frame) (widths : List (Option Width)) : Reader :=
  ⟨frame, outer, widths, [], none, [], false⟩

end Reader

/-! ## What texts denote -/

open Reader (inside)

/-- Under these flags the text is read as it stands, and named classes hold ASCII alone. -/
structure Flags.IsPlain (flags : Flags) : Prop where
  ascii : flags.contains .ascii = true
  multiline : flags.contains .multiline = false
  dotAll : flags.contains .dotAll = false
  verbose : flags.contains .verbose = false
  unicode : flags.contains .unicode = false
  template : flags.contains .template = false

/-- Wherever it stands, the text adds one expression, which may be repeated, and so many capture
groups. The expression depends on the number of the first of them. -/
structure DenotesTerm (flags : Flags) (cs : List Char) (count : Nat) (e : Nat → Regex) : Prop where
  ne_nil : cs ≠ []
  follows : Follows cs
  reads : ∀ frame outer widths, frame.flags = flags → ∃ widths',
    widths'.length = widths.length + count ∧
    (inside frame outer widths).Reads cs
      (inside (frame.push ⟨e (widths.length + 1), .repeatable⟩) outer widths')

/-- Wherever it stands, the text adds a sequence of expressions, and so many capture groups. The
expressions depend on the number of the first of them. -/
structure Denotes (flags : Flags) (cs : List Char) (count : Nat) (es : Nat → List Regex) :
    Prop where
  follows : Follows cs
  reads : ∀ frame outer widths, frame.flags = flags → ∃ items widths',
    widths'.length = widths.length + count ∧
    items.reverse.map Item.expression = es (widths.length + 1) ∧
    (inside frame outer widths).ReadsUnsigned cs
      (inside { frame with items := items ++ frame.items } outer widths')

/-- The text fills a group with one expression, and so many capture groups. The expression depends
on the number of the first of them. -/
structure DenotesBody (flags : Flags) (cs : List Char) (count : Nat) (e : Nat → Regex) :
    Prop where
  follows : Follows cs
  reads : ∀ opener outer widths, (∀ n, opener ≠ .conditional n) → ∃ frame widths',
    frame.opener = opener ∧ frame.flags = flags ∧ widths'.length = widths.length + count ∧
    choice frame.alternatives = e (widths.length + 1) ∧
    (inside (.opened opener flags) outer widths).ReadsUnsigned cs (inside frame outer widths')

variable {flags : Flags} {cs ds : List Char} {count count' : Nat} {e : Nat → Regex}
  {es es' : Nat → List Regex}

theorem denotes_nil (flags : Flags) : Denotes flags [] 0 fun _ => [] :=
  ⟨follows_nil, fun _ _ widths _ => ⟨[], widths, rfl, rfl, fun _ _ => .refl⟩⟩

/-- Texts one after another denote expressions one after another. -/
theorem Denotes.append (h : Denotes flags cs count es) (h' : Denotes flags ds count' es') :
    Denotes flags (cs ++ ds) (count + count') fun n => es n ++ es' (n + count) := by
  refine ⟨h.follows.append h'.follows, fun frame outer widths hflags => ?_⟩
  obtain ⟨items, widths₁, hlength, hitems, hreads⟩ := h.reads frame outer widths hflags
  obtain ⟨items', widths₂, hlength', hitems', hreads'⟩ :=
    h'.reads { frame with items := items ++ frame.items } outer widths₁ hflags
  -- Items are held in reverse, so those of the second text come first.
  refine ⟨items' ++ items, widths₂, ?_, ?_, ?_⟩
  · rw [hlength', hlength, Nat.add_assoc]
  · rw [List.reverse_append, List.map_append, hitems, hitems', hlength, Nat.add_right_comm]
  · rw [List.append_assoc]
    exact hreads.trans h'.follows hreads'

/-- One expression is a sequence. -/
theorem DenotesTerm.denotes (h : DenotesTerm flags cs count e) :
    Denotes flags cs count fun n => [e n] := by
  refine ⟨h.follows, fun frame outer widths hflags => ?_⟩
  obtain ⟨widths', hlength, hreads⟩ := h.reads frame outer widths hflags
  exact ⟨[⟨e (widths.length + 1), .repeatable⟩], widths', hlength, rfl, hreads.unsigned⟩

/-- A sequence fills a group with its only alternative. -/
theorem Denotes.body (h : Denotes flags cs count es) :
    DenotesBody flags cs count fun n => sequence (es n) := by
  refine ⟨h.follows, fun opener outer widths _ => ?_⟩
  obtain ⟨items, widths', hlength, hitems, hreads⟩ :=
    h.reads (.opened opener flags) outer widths rfl
  refine ⟨_, widths', rfl, rfl, hlength, ?_, hreads⟩
  change sequence ((items ++ []).reverse.map Item.expression) = _
  rw [List.append_nil, hitems]

/-! ## Characters -/

/-- The character has a meaning of its own. -/
def isOperator (c : Char) : Bool :=
  ['\\', '|', ')', '[', '?', '*', '+', '\x7b', '.', '(', '^', '$'].contains c

/-- A text that is read at once as one expression denotes it. -/
private theorem denotesTerm_of_reads (hne : cs ≠ []) (hfollows : Follows cs) {e : Regex}
    (hreads : ∀ frame outer widths, frame.flags = flags →
      (inside frame outer widths).Reads cs (inside (frame.push ⟨e, .repeatable⟩) outer widths)) :
    DenotesTerm flags cs 0 fun _ => e :=
  ⟨hne, hfollows, fun frame outer widths hflags =>
    ⟨widths, rfl, hreads frame outer widths hflags⟩⟩

/-- A character without a meaning of its own denotes itself. -/
theorem denotesTerm_char (hflags : flags.IsPlain) {c : Char} (hc : isOperator c = false) :
    DenotesTerm flags [c] 0 fun _ => .one (.code flags.caseMode false c.toNat) := by
  simp only [isOperator, List.contains_eq_mem, List.mem_cons, List.not_mem_nil, or_false,
    decide_eq_false_iff_not, not_or] at hc
  obtain ⟨hbackslash, hbar, hclose, hbracket, hquestion, hstar, hplus, hbrace, hdot, hopen,
    hcaret, hdollar⟩ := hc
  refine denotesTerm_of_reads (by simp) ⟨by simp [hquestion], by simp [hplus]⟩ ?_
  rintro frame outer widths rfl
  refine Reader.reads_char hbackslash fun ts => ?_
  have hverbose : (inside frame outer widths).flags.contains .verbose = false := hflags.verbose
  simp only [Reader.readPlain, hbar, hclose, hverbose, hbracket, hquestion, hstar, hplus, hbrace,
    hdot, hopen, hcaret, hdollar, Bool.false_and, Bool.false_eq_true, ↓reduceIte]
  rfl

/-- An escaped character that is neither a letter nor a digit denotes itself. -/
theorem denotesTerm_escaped {c : Char} (hc : c.isAlphanum = false) :
    DenotesTerm flags ['\\', c] 0 fun _ => .one (.code flags.caseMode false c.toNat) := by
  refine denotesTerm_of_reads (by simp) ⟨by simp, by simp⟩ ?_
  rintro frame outer widths rfl
  have hne {d : Char} (hd : d.isAlphanum = true) : c ≠ d := by
    rintro rfl
    rw [hc] at hd
    exact Bool.false_ne_true hd
  -- All escapes with a meaning of their own are letters or digits.
  have hproperty (ascii : Bool) : property? ascii c = none := by
    fun_cases property? ascii c with
    | case7 => rfl
    | _ => exact absurd hc (by decide)
  have hcontrol : controlCode? c = none := by
    fun_cases controlCode? c with
    | case7 => rfl
    | _ => exact absurd hc (by decide)
  have hdigit : c.isDigit = false := by
    rw [Char.isAlphanum, Bool.or_eq_false_iff] at hc
    exact hc.2
  refine Reader.reads_escape fun ts => ?_
  simp only [Reader.readEscape, readEscapedCode, hproperty, hcontrol, hdigit, hc,
    hne (d := 'A') rfl, hne (d := 'Z') rfl, hne (d := 'b') rfl, hne (d := 'B') rfl,
    hne (d := '0') rfl, hne (d := 'x') rfl, hne (d := 'u') rfl, hne (d := 'U') rfl,
    Bool.false_eq_true, ↓reduceIte]
  rfl

/-- The named class of the digits. -/
theorem denotesTerm_digit (hflags : flags.IsPlain) :
    DenotesTerm flags ['\\', 'd'] 0 fun _ =>
      .one (.set flags.caseMode false [.property true false .digit]) := by
  refine denotesTerm_of_reads (by simp) ⟨by simp, by simp⟩ ?_
  rintro frame outer widths rfl
  have hascii : (inside frame outer widths).flags.asciiOnly = true := hflags.ascii
  refine Reader.reads_escape fun ts => ?_
  simp only [Reader.readEscape, property?, hascii, Char.reduceEq, ↓reduceIte]
  rfl

/-- Any character but a line feed. -/
theorem denotesTerm_any (hflags : flags.IsPlain) :
    DenotesTerm flags ['.'] 0 fun _ => .one (.any false) := by
  refine denotesTerm_of_reads (by simp) ⟨by simp, by simp⟩ ?_
  rintro frame outer widths rfl
  have hverbose : (inside frame outer widths).flags.contains .verbose = false := hflags.verbose
  have hdotAll : (inside frame outer widths).flags.contains .dotAll = false := hflags.dotAll
  refine Reader.reads_char (by decide) fun ts => ?_
  simp only [Reader.readPlain, hverbose, hdotAll, Char.reduceEq, Bool.false_and,
    Bool.false_eq_true, ↓reduceIte]
  rfl

/-- A bracketed class of plain characters. -/
theorem denotesTerm_bracket (hflags : flags.IsPlain) {cls : CharClass}
    (hread : ∀ rest, readBracket flags (tokens (cs ++ rest)) = .ok (cls, tokens rest))
    (hlength : ∀ rest, (tokens rest).length ≤ (tokens (cs ++ rest)).length) :
    DenotesTerm flags ('[' :: cs) 0 fun _ => .one cls := by
  refine denotesTerm_of_reads (by simp) ⟨by simp, by simp⟩ ?_
  rintro frame outer widths rfl
  have hverbose : (inside frame outer widths).flags.contains .verbose = false := hflags.verbose
  intro rest
  have hcls : readBracket (inside frame outer widths).flags (tokens (cs ++ rest)) =
      .ok (cls, tokens rest) := hread rest
  rw [List.cons_append, tokens_cons_of_ne (by decide)]
  refine Reader.step_plain ?_ (hlength rest)
  simp only [Reader.readPlain, hverbose, hcls, Char.reduceEq, Bool.false_and,
    Bool.false_eq_true, ↓reduceIte]
  rfl

/-! ## Conditions on the position -/

private theorem denotes_of_reads (hfollows : Follows cs) (item : Item)
    (hreads : ∀ frame outer widths, frame.flags = flags →
      (inside frame outer widths).Reads cs (inside (frame.push item) outer widths)) :
    Denotes flags cs 0 fun _ => [item.expression] :=
  ⟨hfollows, fun frame outer widths hflags =>
    ⟨[item], widths, rfl, rfl, (hreads frame outer widths hflags).unsigned⟩⟩

/-- The start of the text. -/
theorem denotes_textStart (hflags : flags.IsPlain) :
    Denotes flags ['^'] 0 fun _ => [.anchor .textStart] := by
  refine denotes_of_reads ⟨by simp, by simp⟩ ⟨.anchor .textStart, .position⟩ ?_
  rintro frame outer widths rfl
  have hverbose : (inside frame outer widths).flags.contains .verbose = false := hflags.verbose
  have hmultiline : (inside frame outer widths).flags.contains .multiline = false :=
    hflags.multiline
  refine Reader.reads_char (by decide) fun ts => ?_
  simp only [Reader.readPlain, hverbose, hmultiline, Char.reduceEq, Bool.false_and,
    Bool.false_eq_true, ↓reduceIte]
  rfl

/-- The end of the text. -/
theorem denotes_textEnd : Denotes flags ['\\', 'Z'] 0 fun _ => [.anchor .textEnd] := by
  refine denotes_of_reads ⟨by simp, by simp⟩ ⟨.anchor .textEnd, .position⟩ ?_
  rintro frame outer widths -
  refine Reader.reads_escape fun ts => ?_
  simp only [Reader.readEscape, Char.reduceEq, ↓reduceIte]
  rfl

/-! ## Repetitions -/

/-- A sign of repetition after one expression repeats it. -/
private theorem DenotesTerm.repeated (hflags : flags.IsPlain) (h : DenotesTerm flags cs count e)
    {greed : Greed} {least : Nat} {most : Option Nat}
    (hreads : ∀ (frame : Frame) outer widths body, frame.flags.contains .verbose = false →
      (inside (frame.push ⟨body, .repeatable⟩) outer widths).ReadsUnsigned ds
        (inside (frame.push ⟨.repetition greed least most body, .repeated⟩) outer widths)) :
    Denotes flags (cs ++ ds) count fun n => [.repetition greed least most (e n)] := by
  refine ⟨?_, fun frame outer widths hframe => ?_⟩
  · -- The first character is that of the term, which is not empty.
    obtain ⟨c, cs, rfl⟩ := List.exists_cons_of_ne_nil h.ne_nil
    exact h.follows
  · obtain ⟨widths', hlength, hterm⟩ := h.reads frame outer widths hframe
    have hverbose : frame.flags.contains .verbose = false := by
      rw [hframe]
      exact hflags.verbose
    refine ⟨[⟨.repetition greed least most (e (widths.length + 1)), .repeated⟩], widths', hlength,
      rfl, fun rest hrest => ?_⟩
    rw [List.append_assoc]
    exact (hterm (ds ++ rest)).trans (hreads _ _ _ _ hverbose rest hrest)

/-- Without a sign of greed, as many repetitions as possible are made. -/
private theorem quantify_greedy {frame : Frame} {outer : List Frame} {widths : List (Option Width)}
    {body : Regex} {least : Nat} {most : Option Nat} {rest : List Char} (hrest : Follows rest) :
    (inside (frame.push ⟨body, .repeatable⟩) outer widths).quantify least most (tokens rest) =
      .ok (inside (frame.push ⟨.repetition .greedy least most body, .repeated⟩) outer widths,
        tokens rest) := by
  obtain ⟨hquestion, hplus⟩ := hrest.skip?_eq_none
  simp only [Reader.quantify, hquestion, hplus]
  rfl

/-- A single sign of repetition without a sign of greed. -/
private theorem DenotesTerm.greedy (hflags : flags.IsPlain) (h : DenotesTerm flags cs count e)
    {c : Char} (hc : c ≠ '\\') {least : Nat} {most : Option Nat}
    (hread : ∀ (r : Reader) ts, r.flags.contains .verbose = false →
      r.readPlain c ts = r.quantify least most ts) :
    Denotes flags (cs ++ [c]) count fun n => [.repetition .greedy least most (e n)] := by
  refine h.repeated hflags fun frame outer widths body hverbose rest hrest => ?_
  have hverbose : (inside (frame.push ⟨body, .repeatable⟩) outer widths).flags.contains .verbose =
      false := hverbose
  rw [List.singleton_append, tokens_cons_of_ne hc]
  refine Reader.step_plain ?_ (Nat.le_refl _)
  rw [hread _ _ hverbose, quantify_greedy hrest]

theorem DenotesTerm.optional (hflags : flags.IsPlain) (h : DenotesTerm flags cs count e) :
    Denotes flags (cs ++ ['?']) count fun n => [.repetition .greedy 0 (some 1) (e n)] := by
  refine h.greedy hflags (by decide) fun r ts hverbose => ?_
  simp only [Reader.readPlain, hverbose, Char.reduceEq, Bool.false_and, Bool.false_eq_true,
    ↓reduceIte]

theorem DenotesTerm.plus (hflags : flags.IsPlain) (h : DenotesTerm flags cs count e) :
    Denotes flags (cs ++ ['+']) count fun n => [.repetition .greedy 1 none (e n)] := by
  refine h.greedy hflags (by decide) fun r ts hverbose => ?_
  simp only [Reader.readPlain, hverbose, Char.reduceEq, Bool.false_and, Bool.false_eq_true,
    ↓reduceIte]

/-- A question mark after a sign of repetition asks for as few repetitions as possible. -/
theorem DenotesTerm.lazyPlus (hflags : flags.IsPlain) (h : DenotesTerm flags cs count e) :
    Denotes flags (cs ++ ['+', '?']) count fun n => [.repetition .lazy 1 none (e n)] := by
  refine h.repeated hflags fun frame outer widths body hverbose rest _ => ?_
  have hverbose : (inside (frame.push ⟨body, .repeatable⟩) outer widths).flags.contains .verbose =
      false := hverbose
  rw [List.cons_append, tokens_cons_of_ne (by decide), List.singleton_append,
    tokens_cons_of_ne (by decide)]
  refine Reader.step_plain ?_ (Nat.le_succ _)
  simp only [Reader.readPlain, hverbose, Char.reduceEq, Bool.false_and, Bool.false_eq_true,
    ↓reduceIte]
  rfl

/-- A number between braces, of one digit, is the number of repetitions. -/
theorem DenotesTerm.times (hflags : flags.IsPlain) (h : DenotesTerm flags cs count e) {d : Char}
    (hd : d.isDigit = true) {times : Nat} (htimes : numberOf 10 [d] = times)
    (hlimit : times < countLimit) :
    Denotes flags (cs ++ ['\x7b', d, '\x7d']) count fun n =>
      [.repetition .greedy times (some times) (e n)] := by
  refine h.repeated hflags fun frame outer widths body hverbose rest hrest => ?_
  have hverbose : (inside (frame.push ⟨body, .repeatable⟩) outer widths).flags.contains .verbose =
      false := hverbose
  have hbackslash : d ≠ '\\' := by
    rintro rfl
    exact absurd hd (by decide)
  have hbrace : d ≠ '\x7d' := by
    rintro rfl
    exact absurd hd (by decide)
  have hnumber : readNumber (.plain d :: .plain '\x7d' :: tokens rest) =
      (.some times, .plain '\x7d' :: tokens rest) := by
    simp [readNumber, takeUpTo, next?, hd, htimes]
  rw [List.cons_append, tokens_cons_of_ne (by decide), List.cons_append,
    tokens_cons_of_ne hbackslash, List.cons_append, tokens_cons_of_ne (by decide),
    List.nil_append]
  refine Reader.step_plain ?_ (Nat.le_add_right _ 2)
  simp only [Reader.readPlain, Reader.readBounds, hverbose, hnumber, quantify_greedy hrest,
    skip?, next?, hbrace, hlimit, beq_iff_eq, Option.any_some, Char.reduceEq, Char.reduceBEq,
    Bool.false_and, Bool.false_eq_true, ↓reduceIte, Option.map_none, Option.map_some,
    Option.isSome_none, Nat.not_le.mpr, decide_false, Bool.or_self, Option.getD_some,
    Nat.lt_irrefl]

/-! ## Groups -/

/-- Alternatives after those that are finished. -/
private theorem readsUnsigned_alternatives {opener : Opener}
    (hopener : ∀ n, opener ≠ .conditional n) (outer : List Frame) (widths : List (Option Width))
    {texts : List (List Char)} {bodies : List (List Regex)} (hne : texts ≠ [])
    (h : List.Forall₂ (fun cs es => Denotes flags cs 0 fun _ => es) texts bodies)
    (finished : List Regex) :
    ∃ frame widths', frame.opener = opener ∧ frame.flags = flags ∧
      widths'.length = widths.length ∧
      frame.alternatives = finished.reverse ++ bodies.map sequence ∧
      (inside ⟨opener, flags, finished, []⟩ outer widths).ReadsUnsigned (['|'].intercalate texts)
        (inside frame outer widths') := by
  -- What the induction carries is the list of the alternatives that are finished.
  induction h generalizing finished widths with
  | nil => exact absurd rfl hne
  | @cons cs es texts bodies hcs htexts ih =>
    obtain ⟨items, widths', hlength, hitems, hreads⟩ :=
      hcs.reads ⟨opener, flags, finished, []⟩ outer widths rfl
    rw [List.append_nil] at hreads
    have hcurrent : Frame.current ⟨opener, flags, finished, items⟩ = sequence es := by
      rw [Frame.current, hitems]
    cases htexts with
    | nil =>
      refine ⟨⟨opener, flags, finished, items⟩, widths', rfl, rfl, hlength, ?_, ?_⟩
      · rw [Frame.alternatives, hcurrent, List.reverse_cons]
        rfl
      · simpa [List.intercalate] using hreads
    | @cons ds es' texts bodies hds htexts =>
      obtain ⟨frame, widths'', hframe, hflags', hlength', halternatives, hrest⟩ :=
        ih widths' (List.cons_ne_nil _ _) (sequence es :: finished)
      refine ⟨frame, widths'', hframe, hflags', hlength'.trans hlength, ?_, ?_⟩
      · rw [halternatives, List.reverse_cons, List.append_assoc]
        rfl
      · -- The bar finishes one alternative and opens the next.
        have hbar : (inside ⟨opener, flags, finished, items⟩ outer widths').Reads ['|']
            (inside ⟨opener, flags, sequence es :: finished, []⟩ outer widths') := by
          refine Reader.reads_char (by decide) fun ts => ?_
          have hnext : (inside ⟨opener, flags, finished, items⟩ outer widths').bar =
              .ok (inside ⟨opener, flags, sequence es :: finished, []⟩ outer widths') := by
            rw [← hcurrent, Reader.bar]
            split
            · rename_i n _ _ hconditional _
              exact absurd hconditional (hopener n)
            · rfl
          simp only [Reader.readPlain, hnext, ↓reduceIte]
          rfl
        have hfollows : Follows (['|'].intercalate (ds :: texts)) := by
          cases texts with
          | nil => simpa [List.intercalate] using hds.follows
          | cons t texts => simpa [List.intercalate] using hds.follows.append ⟨by simp, by simp⟩
        have hcs : (['|'].intercalate (cs :: ds :: texts)) =
            cs ++ (['|'] ++ ['|'].intercalate (ds :: texts)) := by
          simp [List.intercalate]
        rw [hcs]
        exact hreads.trans ⟨by simp, by simp⟩ (hbar.unsigned.trans hfollows hrest)

/-- Texts with bars between them fill a group with alternatives. -/
theorem denotesBody_alternatives {texts : List (List Char)} {bodies : List (List Regex)}
    (h : List.Forall₂ (fun cs es => Denotes flags cs 0 fun _ => es) texts bodies) :
    DenotesBody flags (['|'].intercalate texts) 0 fun _ => choice (bodies.map sequence) := by
  cases h with
  | nil => exact (denotes_nil flags).body
  | @cons cs es texts bodies hcs htexts =>
    refine ⟨?_, fun opener outer widths hopener => ?_⟩
    · cases texts with
      | nil => simpa [List.intercalate] using hcs.follows
      | cons t texts => simpa [List.intercalate] using hcs.follows.append ⟨by simp, by simp⟩
    · obtain ⟨frame, widths', hframe, hflags, hlength, halternatives, hreads⟩ :=
        readsUnsigned_alternatives hopener outer widths (List.cons_ne_nil _ _)
          (.cons hcs htexts) []
      refine ⟨frame, widths', hframe, hflags, hlength, ?_, hreads⟩
      rw [halternatives]
      rfl

/-- A closing parenthesis completes the innermost group. -/
private theorem reads_close {frame outer : Frame} {rest : List Frame}
    {widths : List (Option Width)} :
    (inside frame (outer :: rest) widths).Reads [')']
      ((inside frame (outer :: rest) widths).close outer rest) := by
  refine Reader.reads_char (by decide) fun ts => ?_
  simp only [Reader.readPlain, Reader.closeLast, inside, Char.reduceEq, ↓reduceIte]
  rfl

/-- A group whose opening has been read takes what fills it. -/
private theorem DenotesBody.reads_close (h : DenotesBody flags cs count e) (opener : Opener)
    (hopener : ∀ n, opener ≠ .conditional n) (frame : Frame) (outer : List Frame)
    (widths : List (Option Width)) :
    ∃ filled widths', filled.opener = opener ∧ widths'.length = widths.length + count ∧
      choice filled.alternatives = e (widths.length + 1) ∧
      (inside (.opened opener flags) (frame :: outer) widths).Reads (cs ++ [')'])
        ((inside filled (frame :: outer) widths').close frame outer) := by
  obtain ⟨filled, widths', hfilled, -, hlength, hbody, hreads⟩ :=
    h.reads opener (frame :: outer) widths hopener
  exact ⟨filled, widths', hfilled, hlength, hbody,
    hreads.trans_cons ⟨by simp, by simp⟩ Regex.reads_close⟩

/-- An opening parenthesis with a question mark opens a group that does not capture. -/
private theorem reads_extension (hflags : flags.IsPlain) {frame : Frame}
    (hframe : frame.flags = flags) (outer : List Frame) (widths : List (Option Width)) {c : Char}
    (hc : c ≠ '\\') (opener : Opener)
    (hread : ∀ ts, (inside frame outer widths).readExtension (.plain c :: ts) =
      .ok ((inside frame outer widths).openGroup opener flags, ts)) :
    (inside frame outer widths).Reads ['(', '?', c]
      (inside (.opened opener flags) (frame :: outer) widths) := by
  intro rest
  have hverbose : (inside frame outer widths).flags.contains .verbose = false := by
    subst hframe
    exact hflags.verbose
  rw [List.cons_append, tokens_cons_of_ne (by decide), List.cons_append,
    tokens_cons_of_ne (by decide), List.singleton_append, tokens_cons_of_ne hc]
  refine Reader.step_plain ?_ (Nat.le_add_right _ 2)
  simp only [Reader.readPlain, hverbose, skip?, next?, hread, Char.reduceEq, Bool.false_and,
    Bool.false_eq_true, beq_self_eq_true, Option.map_some, ↓reduceIte]
  rfl

/-- A group that does not capture denotes what fills it. -/
theorem DenotesBody.group (hflags : flags.IsPlain) (h : DenotesBody flags cs count e) :
    DenotesTerm flags (['(', '?', ':'] ++ (cs ++ [')'])) count e := by
  refine ⟨by simp, ⟨by simp, by simp⟩, fun frame outer widths hframe => ?_⟩
  obtain ⟨filled, widths', hfilled, hlength, hbody, hreads⟩ :=
    h.reads_close .plain (by simp) frame outer widths
  refine ⟨widths', hlength, ?_⟩
  have hopen := reads_extension hflags hframe outer widths (c := ':') (by decide) .plain
    fun ts => by
      simp only [Reader.readExtension, next?, Char.reduceEq, ↓reduceIte]
      subst hframe
      rfl
  have hclose : (inside filled (frame :: outer) widths').close frame outer =
      inside (frame.push ⟨e (widths.length + 1), .repeatable⟩) outer widths' := by
    simp only [Reader.close, inside, hfilled, hbody]
    rfl
  rw [hclose] at hreads
  exact hopen.trans hreads

/-- An assertion about what follows. -/
theorem DenotesBody.ahead (hflags : flags.IsPlain) (h : DenotesBody flags cs count e) :
    DenotesTerm flags (['(', '?', '='] ++ (cs ++ [')'])) count fun n =>
      .look .ahead false (e n) := by
  refine ⟨by simp, ⟨by simp, by simp⟩, fun frame outer widths hframe => ?_⟩
  obtain ⟨filled, widths', hfilled, hlength, hbody, hreads⟩ :=
    h.reads_close (.ahead false) (by simp) frame outer widths
  refine ⟨widths', hlength, ?_⟩
  have hopen := reads_extension hflags hframe outer widths (c := '=') (by decide) (.ahead false)
    fun ts => by
      simp only [Reader.readExtension, next?, Char.reduceEq, ↓reduceIte]
      subst hframe
      rfl
  have hclose : (inside filled (frame :: outer) widths').close frame outer =
      inside (frame.push ⟨.look .ahead false (e (widths.length + 1)), .repeatable⟩) outer
        widths' := by
    simp only [Reader.close, inside, hfilled, hbody]
    rfl
  rw [hclose] at hreads
  exact hopen.trans hreads

/-- A capture group takes the next number. -/
theorem DenotesBody.capture (hflags : flags.IsPlain) (h : DenotesBody flags cs count e) :
    DenotesTerm flags (['('] ++ (cs ++ [')'])) (count + 1) fun n => .group n (e (n + 1)) := by
  refine ⟨by simp, ⟨by simp, by simp⟩, fun frame outer widths hframe => ?_⟩
  -- The group has its number before it has a width, so the groups inside are numbered after it.
  obtain ⟨filled, widths', hfilled, hlength, hbody, hreads⟩ :=
    h.reads_close (.capturing (widths.length + 1)) (by simp) frame outer (widths ++ [none])
  rw [List.length_append, List.length_singleton] at hlength hbody
  have hclose : (inside filled (frame :: outer) widths').close frame outer =
      inside (frame.push ⟨.group (widths.length + 1) (e (widths.length + 1 + 1)), .repeatable⟩)
        outer (widths'.set widths.length (some ((e (widths.length + 1 + 1)).width
          (inside filled (frame :: outer) widths').groupWidth))) := by
    simp only [Reader.close, inside, hfilled, hbody]
    rfl
  rw [hclose] at hreads
  refine ⟨_, ?_, fun rest => .trans ?_ (hreads rest)⟩
  · rw [List.length_set, hlength]
    omega
  · have hverbose : (inside frame outer widths).flags.contains .verbose = false := by
      subst hframe
      exact hflags.verbose
    have hnone : skip? '?' (tokens (cs ++ [')'] ++ rest)) = none := by
      rw [List.append_assoc]
      exact (h.follows.append ⟨by simp, by simp⟩).skip?_eq_none.1
    rw [List.append_assoc, List.singleton_append, tokens_cons_of_ne (by decide)]
    refine Reader.step_plain ?_ (Nat.le_refl _)
    simp only [Reader.readPlain, hverbose, hnone, Char.reduceEq, Bool.false_and,
      Bool.false_eq_true, ↓reduceIte]
    subst hframe
    rfl

/-! ## Whole texts -/

/-- The expression that fills the outermost group is that of the whole text. -/
theorem DenotesBody.parse_eq_ok (hflags : flags.IsPlain) (h : DenotesBody flags cs count e) :
    parse flags (String.ofList cs) = .ok (e 1) := by
  obtain ⟨frame, widths, hopener, hframe, hlength, hbody, hreads⟩ :=
    h.reads .whole [] [] (by simp)
  -- Nothing follows a whole text, so no sign of greed does.
  have hrun := hreads [] follows_nil
  rw [List.append_nil] at hrun
  have hall := Reader.readAll_eq_ok hrun rfl (tokens cs).length (Nat.le_refl _)
  have hfinish : (inside frame [] widths).finish = .ok (e 1) := by
    have hconflicting : (inside frame [] widths).flags.conflicting = false := by
      change frame.flags.conflicting = false
      rw [hframe, Flags.conflicting, hflags.unicode, Bool.and_false]
    have htemplate : (inside frame [] widths).flags.contains .template = false := by
      change frame.flags.contains .template = false
      rw [hframe]
      exact hflags.template
    have hbody : choice (inside frame [] widths).frame.alternatives = e 1 := hbody
    simp only [Reader.finish, hconflicting, htemplate, hbody, Bool.false_and,
      Bool.false_eq_true, ↓reduceIte]
    rfl
  rw [parse, String.toList_ofList]
  change (Reader.readAll _ _ _ >>= _) = _
  have hall : (Reader.start flags).readAll (tokens cs).length (tokens cs) =
      .ok (inside frame [] widths) := hall
  rw [hall]
  exact hfinish

end RouteTemplate.Regex
