/-
# The outcomes of an expression

A search for a match tries the ways through an expression one after another. Listing all of them,
in the order in which they are tried, says what an expression does without saying what follows it:
the search goes through the list until the rest of the match succeeds.

## Main definitions

* `Regex.outcomes` — the positions to which an expression leads, the preferred one first

## Main results

* `Regex.run_eq_findSome?` — the search takes the first outcome from which the rest succeeds
* `Regex.matchStart_eq_head?` — a match at the start of a text is the first outcome
-/

import RouteTemplate.Regex.Match

namespace RouteTemplate.Regex

/-- The positions to which repetitions of a body lead, given those to which the body leads. -/
def repeats (body : Cursor → List Cursor) (greed : Greed) (least : Nat) (most : Option Nat) :
    Nat → Nat → Option Nat → Cursor → List Cursor
  | 0, _, _, _ => []
  | fuel + 1, count, last, p =>
    let more (last : Option Nat) (starts : List Cursor) : List Cursor :=
      starts.flatMap (repeats body greed least most fuel (count + 1) last)
    let mayRepeat := admits most count && last != some p.offset
    if count < least then more last (if greed = .possessive then (body p).take 1 else body p)
    else if !mayRepeat then [p]
    else match greed with
      | .greedy => more (some p.offset) (body p) ++ [p]
      | .lazy => p :: more (some p.offset) (body p)
      | .possessive =>
        match body p with
        | [] => [p]
        | q :: _ => more (some p.offset) [q]

/-- The positions to which an expression leads, in the order in which they are tried. -/
def outcomes : Regex → Cursor → List Cursor
  | .empty, p => [p]
  | .one cls, p => (p.step? cls.holds).toList
  | .anchor a, p => if p.satisfies a then [p] else []
  | .seq a b, p => (a.outcomes p).flatMap b.outcomes
  | .alt a b, p => a.outcomes p ++ b.outcomes p
  | .repetition greed least most a, p =>
    repeats a.outcomes greed least most (repetitionBound least p) 0 none p
  | .group number a, p => (a.outcomes p).map (·.capture number p)
  | .atomic a, p => (a.outcomes p).take 1
  | .look direction negated a, p =>
    let found := match direction with
      | .ahead => a.outcomes p
      | .behind distance => (p.back? distance).toList.flatMap a.outcomes
    match found, negated with
    | q :: _, false => [{ p with captures := q.captures }]
    | [], true => [p]
    | _, _ => []
  | .backreference mode number, p =>
    match p.captured? number with
    | some text => (p.skip? (fun c d => mode.fold c.toNat == mode.fold d.toNat) text).toList
    | none => []
  | .conditional number a b, p =>
    if (p.captured? number).isSome then a.outcomes p else b.outcomes p

/-! ## The search goes through the outcomes -/

private theorem findSome?_flatMap {α β γ : Type} (l : List α) (f : α → List β)
    (g : β → Option γ) : (l.flatMap f).findSome? g = l.findSome? fun a => (f a).findSome? g := by
  induction l with
  | nil => rfl
  | cons a l ih =>
    rw [List.flatMap_cons, List.findSome?_append, ih, List.findSome?_cons]
    cases (f a).findSome? g <;> rfl

private theorem findSome?_some {α : Type} (l : List α) : l.findSome? some = l.head? := by
  cases l <;> rfl

private theorem findSome?_take_one {α β : Type} (l : List α) (g : α → Option β) :
    (l.take 1).findSome? g = l.head?.bind g := by
  cases l with
  | nil => rfl
  | cons a l => cases h : g a <;> simp [h]

private theorem findSome?_toList {α β : Type} (o : Option α) (g : α → Option β) :
    o.toList.findSome? g = o.bind g := by
  cases o with
  | none => rfl
  | some a => cases h : g a <;> simp [h]

/-- Repetitions of a body whose search goes through outcomes go through theirs. -/
theorem iterate_eq_findSome? {body : Cursor → Continuation → Option Cursor}
    {ends : Cursor → List Cursor}
    (hbody : ∀ p next, body p next = (ends p).findSome? next) (greed : Greed) (least : Nat)
    (most : Option Nat) (fuel count : Nat) (last : Option Nat) (p : Cursor)
    (next : Continuation) :
    iterate body greed least most fuel count last p next =
      (repeats ends greed least most fuel count last p).findSome? next := by
  induction fuel generalizing count last p with
  | zero => cases greed <;> rfl
  | succ fuel ih =>
    -- Going on: the search through the rest is the search through what the rest leads to.
    have hmore (last : Option Nat) : (body p fun q =>
        iterate body greed least most fuel (count + 1) last q next) =
        ((ends p).flatMap (repeats ends greed least most fuel (count + 1) last)).findSome?
          next := by
      rw [hbody, findSome?_flatMap]
      exact congrArg (List.findSome? · (ends p)) (funext fun q => ih (count + 1) last q)
    have hfirst : body p some = (ends p).head? := by rw [hbody, findSome?_some]
    have hstop : [p].findSome? next = next p := by cases h : next p <;> simp [h]
    -- Obligatory repetitions come first; after them the greed decides what is tried first.
    by_cases hcount : count < least
    · cases greed with
      | greedy => simp [iterate, repeats, hcount, hmore]
      | lazy => simp [iterate, repeats, hcount, hmore]
      | possessive => cases hends : ends p <;> simp [iterate, repeats, hcount, hfirst, hends, ih]
    · by_cases hrepeat : (admits most count && last != some p.offset) = true
      · cases greed with
        | greedy =>
          simp only [iterate, repeats, hcount, hrepeat, hmore, hstop, ↓reduceIte, Bool.not_true,
            Bool.false_eq_true, List.findSome?_append]
          cases ((ends p).flatMap
            (repeats ends .greedy least most fuel (count + 1) (some p.offset))).findSome? next <;>
            rfl
        | lazy =>
          simp only [iterate, repeats, hcount, hrepeat, hmore, ↓reduceIte, Bool.not_true,
            Bool.false_eq_true, List.findSome?_cons]
          cases next p <;> rfl
        | possessive =>
          -- Only the first outcome of the body counts, and it is not given up later.
          cases hends : ends p with
          | nil => simp only [iterate, repeats, hcount, hrepeat, hfirst, hends, hstop, ↓reduceIte,
              Bool.not_true, Bool.false_eq_true, List.head?_nil]
          | cons q rest => simp [iterate, repeats, hcount, hrepeat, hfirst, hends, ih]
      · -- The repetition took nothing, or has been made as often as it may be.
        cases h : next p <;> cases greed <;> simp [iterate, repeats, hcount, hrepeat, h]

/-- An assertion asks only for the first outcome of its body. -/
private theorem look_eq_findSome? (p : Cursor) (ends : List Cursor) (negated : Bool)
    (next : Continuation) :
    (match ends.head?, negated with
      | some q, false => next { p with captures := q.captures }
      | none, true => next p
      | _, _ => none) =
    (match ends, negated with
      | q :: _, false => [{ p with captures := q.captures }]
      | [], true => [p]
      | _, _ => []).findSome? next := by
  have hstop (q : Cursor) : [q].findSome? next = next q := by cases h : next q <;> simp [h]
  cases ends <;> cases negated
  · rfl
  · exact (hstop p).symm
  · exact (hstop _).symm
  · rfl

/-- The search takes the first outcome from which the rest of the match succeeds. -/
theorem run_eq_findSome? (r : Regex) (p : Cursor) (next : Continuation) :
    r.run p next = (r.outcomes p).findSome? next := by
  induction r generalizing p next with
  | empty => cases h : next p <;> simp [run, outcomes, h]
  | one cls => rw [run, outcomes, findSome?_toList]
  | anchor a =>
    rw [run, outcomes]
    split
    · cases h : next p <;> simp [h]
    · rfl
  | seq a b iha ihb =>
    rw [run, outcomes, iha, findSome?_flatMap]
    exact congrArg (List.findSome? · (a.outcomes p)) (funext fun q => ihb q next)
  | alt a b iha ihb =>
    rw [run, outcomes, iha, ihb, List.findSome?_append]
    cases (a.outcomes p).findSome? next <;> rfl
  | repetition greed least most a ih =>
    rw [run, outcomes]
    exact iterate_eq_findSome? ih greed least most _ 0 none p next
  | group number a ih => rw [run, outcomes, ih, List.findSome?_map]; rfl
  | atomic a ih => rw [run, outcomes, ih, findSome?_some, findSome?_take_one]
  | look direction negated a ih =>
    cases direction with
    | ahead =>
      simp only [run, outcomes, ih, findSome?_some]
      exact look_eq_findSome? p (a.outcomes p) negated next
    | behind distance =>
      -- Going back may fail, and then nothing is found.
      have hfound : ((p.back? distance).bind fun q => a.run q some) =
          ((p.back? distance).toList.flatMap a.outcomes).head? := by
        cases Cursor.back? distance p with
        | none => rfl
        | some q => simp [ih, findSome?_some]
      simp only [run, outcomes, hfound]
      exact look_eq_findSome? p _ negated next
  | backreference mode number =>
    rw [run, outcomes]
    cases p.captured? number with
    | none => rfl
    | some text => exact (findSome?_toList _ _).symm
  | conditional number a b iha ihb =>
    rw [run, outcomes]
    split
    · exact iha p next
    · exact ihb p next

/-- When nothing follows, the search takes the first outcome. -/
theorem run_some_eq_head? (r : Regex) (p : Cursor) : r.run p some = (r.outcomes p).head? := by
  rw [run_eq_findSome?, findSome?_some]

/-- A match at the start of a text is the first outcome there. -/
theorem matchStart_eq_head? (r : Regex) (text : List Char) :
    r.matchStart text = (r.outcomes (Cursor.start text)).head? :=
  r.run_some_eq_head? (Cursor.start text)

/-- A match at the start of a text is one of the outcomes there. -/
theorem mem_outcomes_of_matchStart {r : Regex} {text : List Char} {q : Cursor}
    (h : r.matchStart text = some q) : q ∈ r.outcomes (Cursor.start text) := by
  rw [matchStart_eq_head?] at h
  exact List.mem_of_head? h

/-- There is a match at the start of a text when there is an outcome there. -/
theorem isSome_matchStart_iff {r : Regex} {text : List Char} :
    (r.matchStart text).isSome ↔ ∃ q, q ∈ r.outcomes (Cursor.start text) := by
  rw [matchStart_eq_head?, List.isSome_head?]
  constructor
  · exact List.exists_mem_of_ne_nil _
  · rintro ⟨q, hq⟩
    exact List.ne_nil_of_mem hq

end RouteTemplate.Regex
