/-
# What a session shows

A session configures the journal any number of times, adds handlers that swallow every record, and
runs operations in between. However this goes, each stream that was ever configured has one handler,
and gets each record once that is written while it is in use and details are asked for.

All this is about processes with a standard output. Where there is none, handlers pile up.

## Main definitions

* `Journal.Action`, `Journal.Session` — the steps of a session, and what comes of them
* `Journal.emitted`, `Journal.recordsDue` — the records of an operation, and those that a stream is
  to get
* `Journal.Reflects`, `Journal.Session.Reflects` — the journal, and what the streams show, are what
  the steps of a session ask for

## Main results

* `Journal.Reflects.change` — the journal is as the steps ask for after one more step
* `Journal.Session.Reflects.act` — so is what the streams show
* `Journal.Session.reflects_after` — a session shows what its steps ask for, whatever they are
* `Journal.handlers_configure_of_no_output` — without a standard output, each configuration adds a
  handler
-/

import RouteTemplate.Matching.Matcher
import RouteTemplate.Proofs.Fields
import RouteTemplate.Proofs.Matching.Lines

namespace RouteTemplate.Journal

/-! ## Sessions -/

/-- One step of a session: the journal is configured, for a stream that may be given or for what is
the standard output at that moment, a handler is added that swallows every record, or an operation
runs. -/
inductive Action where
  | configuring (debug : Bool) (given : Option GivenStream) (standard : String)
  | addingNull
  | compiling (template : String) (parameters : Value) (given : Options.Given)
      (collaborators : Collaborators)
  | matching (m : Matcher) (path : String)
  | matchingConcurrently (m : Matcher) (path : String) (group : TaskGroup)
  | updating (m : Matcher) (more : Value)

namespace Action

/-- The events of an operation. -/
def events : Action → List Event
  | configuring _ _ _ | addingNull => []
  | compiling template parameters given collaborators =>
    (Matcher.ofTemplate template parameters given collaborators).events
  | matching m path => (m.match? path).events
  | matchingConcurrently m path group => (m.matchConcurrently? path group).events
  | updating m more => (m.redeclare more).events

/-- The stream that a step configures: the given one, or the standard output if none is given or the
one that is given counts as none. -/
def stream? : Action → Option String
  | configuring _ none standard => some standard
  | configuring _ (some ⟨name, true⟩) _ => some name
  | configuring _ (some ⟨_, false⟩) standard => some standard
  | _ => none

/-- Whether a step asks for details, if it configures the journal. -/
def debug? : Action → Option Bool
  | configuring debug _ _ => some debug
  | _ => none

/-- The step adds a handler that swallows every record. -/
def addsNull : Action → Bool
  | addingNull => true
  | _ => false

/-- The journal after a step. Operations leave it alone. -/
def change (journal : Journal) : Action → Journal
  | configuring debug given standard =>
    journal.configure debug given { usualOutputs with standard }
  | addingNull => journal.addNull
  | _ => journal

end Action

/-- A journal, and the text that each stream has got. -/
structure Session where
  journal : Journal
  text : String → String

namespace Session

/-- Before the first step. -/
def start : Session :=
  ⟨initial, fun _ => ""⟩

/-- A step changes the journal, and adds what is written on a stream to its text, as often as it is
written there. -/
def act (s : Session) (action : Action) : Session where
  journal := action.change s.journal
  text stream := s.text stream ++
    String.join (((s.journal.written action.events).filter (·.1 == stream)).map (·.2))

/-- The session after the given steps. -/
def after (actions : List Action) : Session :=
  actions.foldl act start

end Session

/-! ## What the steps ask for -/

/-- The streams that have a handler, in the order in which they got it. -/
def streams (journal : Journal) : List String :=
  journal.handlers.filterMap Handler.stream?

/-- The streams that are configured, each once, in the order in which they are first. -/
def streamsNamed (actions : List Action) : List String :=
  (actions.filterMap Action.stream?).eraseDups

/-- The level that was configured last. -/
def levelAsked (actions : List Action) : Level :=
  match (actions.filterMap Action.debug?).getLast? with
  | none => .unset
  | some true => .debug
  | some false => .error

/-- There is one handler for each stream that was configured, one that swallows every record for
each that was added, and none without a stream; the level is the one that was configured last; and
records are passed on until the journal is configured. -/
structure Reflects (journal : Journal) (actions : List Action) : Prop where
  streams : journal.streams = streamsNamed actions
  nulls : journal.handlers.count .null = actions.countP Action.addsNull
  complete : .stream none ∉ journal.handlers
  level : journal.level = levelAsked actions
  propagate : journal.propagate = false ↔
    ∃ debug given standard, .configuring debug given standard ∈ actions

/-- The records that are written while something happens. -/
def emitted : List Event → List Record
  | [] => []
  | .record r :: events => r :: emitted events
  | .note _ :: events => emitted events

/-- The records that a stream is to get from some steps that follow others: those of the operations
that run when it has been configured and details are asked for. -/
def recordsDue (stream : String) (before : List Action) : List Action → List Record
  | [] => []
  | action :: rest =>
    (if stream ∈ streamsNamed before ∧ levelAsked before = .debug then emitted action.events
      else []) ++ recordsDue stream (before ++ [action]) rest

/-- The journal is as the steps ask for, and each stream shows the records that it is to get and
nothing else, each once and in order: where it comes from, and what it says. -/
structure Session.Reflects (s : Session) (actions : List Action) : Prop where
  journal : s.journal.Reflects actions
  shows : ∀ stream, Shows (s.text stream).toList
    ((recordsDue stream [] actions).map fun r => (r.source, r.message))

/-! ## One step -/

section Steps

variable {actions : List Action} {stream : String}

/-- With a standard output, a configuration always has a stream, which is the one that is chosen. -/
theorem Action.exists_stream? (debug : Bool) (given : Option GivenStream) (standard : String) :
    ∃ stream, (configuring debug given standard).stream? = some stream ∧
      chosenStream given { usualOutputs with standard } = some stream := by
  rcases given with _ | ⟨name, _ | _⟩
  · exact ⟨standard, rfl, rfl⟩
  · exact ⟨standard, rfl, rfl⟩
  · exact ⟨name, rfl, rfl⟩

theorem mem_streamsNamed_iff :
    stream ∈ streamsNamed actions ↔
      ∃ debug given standard, .configuring debug given standard ∈ actions ∧
        (Action.configuring debug given standard).stream? = some stream := by
  rw [streamsNamed, List.mem_eraseDups, List.mem_filterMap]
  constructor
  · rintro ⟨action, hmem, hstream⟩
    cases action with
    | configuring debug given standard => exact ⟨debug, given, standard, hmem, hstream⟩
    | _ => exact absurd hstream (by simp [Action.stream?])
  · rintro ⟨debug, given, standard, hmem, hstream⟩
    exact ⟨_, hmem, hstream⟩

/-- Streams are named by every configuration, and by nothing else. -/
theorem streamsNamed_ne_nil_iff :
    streamsNamed actions ≠ [] ↔
      ∃ debug given standard, .configuring debug given standard ∈ actions := by
  constructor
  · intro hne
    obtain ⟨stream, hstream⟩ := List.exists_mem_of_ne_nil _ hne
    obtain ⟨debug, given, standard, hmem, -⟩ := mem_streamsNamed_iff.mp hstream
    exact ⟨debug, given, standard, hmem⟩
  · rintro ⟨debug, given, standard, hmem⟩
    obtain ⟨stream, hstream, -⟩ := Action.exists_stream? debug given standard
    exact List.ne_nil_of_mem (mem_streamsNamed_iff.mpr ⟨debug, given, standard, hmem, hstream⟩)

/-- A stream is named once more, or comes after those that were named. -/
theorem streamsNamed_concat (actions : List Action) (action : Action) :
    streamsNamed (actions ++ [action]) =
      action.stream?.elim (streamsNamed actions) fun stream =>
        if stream ∈ streamsNamed actions then streamsNamed actions
        else streamsNamed actions ++ [stream] := by
  rw [streamsNamed, List.filterMap_append]
  cases hstream : action.stream? with
  | none => simp [hstream, streamsNamed]
  | some stream =>
    have hlast : [action].filterMap Action.stream? = [stream] := by simp [hstream]
    rw [hlast, Fields.eraseDups_concat, Option.elim_some, streamsNamed]
    simp only [List.mem_eraseDups]

theorem levelAsked_concat (actions : List Action) (action : Action) :
    levelAsked (actions ++ [action]) =
      action.debug?.elim (levelAsked actions) fun debug => if debug then .debug else .error := by
  rw [levelAsked, List.filterMap_append, List.getLast?_append]
  cases hdebug : action.debug? with
  | none => simp [hdebug, levelAsked]
  | some debug => cases debug <;> simp [hdebug]

end Steps

section Journals

variable {journal : Journal} {actions : List Action}

theorem mem_streams_iff {stream : String} :
    stream ∈ journal.streams ↔ .stream (some stream) ∈ journal.handlers := by
  rw [streams, List.mem_filterMap]
  constructor
  · rintro ⟨handler, hmem, hname⟩
    cases handler with
    | stream name =>
      obtain rfl : name = some stream := hname
      exact hmem
    | null => exact absurd hname (by simp [Handler.stream?])
  · intro hmem
    exact ⟨_, hmem, rfl⟩

section Configure

variable {given : Option GivenStream} {outputs : Outputs} {stream : String}
  (hchosen : chosenStream given outputs = some stream)

include hchosen

/-- A stream that has a handler gets no other. -/
theorem configure_of_mem (h : stream ∈ journal.streams) (debug : Bool) :
    journal.configure debug given outputs =
      { journal with level := if debug then .debug else .error } := by
  rw [configure, hchosen]
  exact if_pos (List.contains_iff_mem.mpr (mem_streams_iff.mp h))

/-- A stream that has no handler gets one. -/
theorem configure_of_notMem (h : stream ∉ journal.streams) (debug : Bool) :
    journal.configure debug given outputs =
      ⟨journal.handlers ++ [.stream (some stream)], if debug then .debug else .error, false⟩ := by
  rw [configure, hchosen]
  exact if_neg fun hcontains => h (mem_streams_iff.mpr (List.contains_iff_mem.mp hcontains))

end Configure

/-- Without a standard output a configuration for no stream adds a handler for the other output, and
does so again and again, since it looks for a handler without a stream. -/
theorem handlers_configure_of_no_output {error : String} (h : .stream none ∉ journal.handlers)
    (debug : Bool) : (journal.configure debug none ⟨none, some error⟩).handlers =
      journal.handlers ++ [.stream (some error)] := by
  have hcontains : ¬ journal.handlers.contains (.stream none) = true :=
    mt List.contains_iff_mem.mp h
  rw [configure]
  exact congrArg Journal.handlers (if_neg hcontains)

/-- The streams change as those that are configured do. -/
theorem streams_change (action : Action) :
    (action.change journal).streams =
      action.stream?.elim journal.streams fun stream =>
        if stream ∈ journal.streams then journal.streams else journal.streams ++ [stream] := by
  cases action with
  | configuring debug given standard =>
    obtain ⟨stream, hstream, hchosen⟩ := Action.exists_stream? debug given standard
    rw [Action.change, hstream, Option.elim_some]
    by_cases h : stream ∈ journal.streams
    · rw [configure_of_mem hchosen h, if_pos h]
      rfl
    · rw [configure_of_notMem hchosen h, if_neg h]
      exact List.filterMap_append
  | addingNull => exact List.filterMap_append.trans (List.append_nil _)
  | _ => rfl

theorem count_null_change (action : Action) :
    (action.change journal).handlers.count .null =
      journal.handlers.count .null + if action.addsNull then 1 else 0 := by
  cases action with
  | configuring debug given standard =>
    obtain ⟨stream, -, hchosen⟩ := Action.exists_stream? debug given standard
    rw [Action.change]
    by_cases h : stream ∈ journal.streams
    · rw [configure_of_mem hchosen h]
      rfl
    · rw [configure_of_notMem hchosen h, List.count_append]
      rfl
  | addingNull => exact List.count_append
  | _ => rfl

/-- No handler is added without a stream. -/
theorem stream_none_notMem_change (h : .stream none ∉ journal.handlers) (action : Action) :
    .stream none ∉ (action.change journal).handlers := by
  cases action with
  | configuring debug given standard =>
    obtain ⟨stream, -, hchosen⟩ := Action.exists_stream? debug given standard
    rw [Action.change]
    by_cases hmem : stream ∈ journal.streams
    · rw [configure_of_mem hchosen hmem]
      exact h
    · rw [configure_of_notMem hchosen hmem]
      simp [h]
  | addingNull => simp [Action.change, addNull, h]
  | _ => exact h

theorem level_change (action : Action) :
    (action.change journal).level =
      action.debug?.elim journal.level fun debug => if debug then .debug else .error := by
  cases action with
  | configuring debug given standard =>
    obtain ⟨stream, -, hchosen⟩ := Action.exists_stream? debug given standard
    rw [Action.change]
    by_cases h : stream ∈ journal.streams
    · rw [configure_of_mem hchosen h]
      rfl
    · rw [configure_of_notMem hchosen h]
      rfl
  | _ => rfl

/-- Records are passed on until a stream gets its handler. -/
theorem propagate_change (action : Action) :
    (action.change journal).propagate = false ↔
      journal.propagate = false ∨ ∃ stream ∈ action.stream?, stream ∉ journal.streams := by
  cases action with
  | configuring debug given standard =>
    obtain ⟨stream, hstream, hchosen⟩ := Action.exists_stream? debug given standard
    rw [Action.change, hstream]
    by_cases h : stream ∈ journal.streams
    · rw [configure_of_mem hchosen h]
      simp [h]
    · rw [configure_of_notMem hchosen h]
      simp [h]
  | _ => simp [Action.change, addNull, Action.stream?]

/-- After one more step the journal is as the steps ask for. -/
theorem Reflects.change (h : journal.Reflects actions) (action : Action) :
    (action.change journal).Reflects (actions ++ [action]) where
  streams := by rw [streams_change, streamsNamed_concat, h.streams]
  nulls := by rw [count_null_change, h.nulls, List.countP_append, List.countP_singleton]
  complete := stream_none_notMem_change h.complete action
  level := by rw [level_change, levelAsked_concat, h.level]
  propagate := by
    rw [propagate_change, h.propagate, ← streamsNamed_ne_nil_iff, ← streamsNamed_ne_nil_iff,
      streamsNamed_concat, h.streams]
    cases action.stream? with
    | none => simp
    | some stream =>
      rw [Option.elim_some]
      by_cases hmem : stream ∈ streamsNamed actions
      · rw [if_pos hmem]
        simp [hmem]
      · rw [if_neg hmem]
        simp [hmem]

end Journals

/-! ## Whole sessions -/

section Sessions

variable {journal : Journal} {actions : List Action} {s : Session} {stream : String}

/-- What is to be written is what is emitted. -/
theorem records_eq_emitted (events : List Event) : records events = emitted events := by
  induction events with
  | nil => rfl
  | cons event events ih =>
    cases event with
    | record r => exact congrArg (r :: ·) ih
    | note n => exact ih

/-- Events write on each stream that has a handler, if details are asked for. With one handler it
gets each line once. -/
theorem join_written (hnodup : journal.streams.Nodup) (events : List Event) (stream : String) :
    String.join (((journal.written events).filter (·.1 == stream)).map (·.2)) =
      String.join ((if stream ∈ journal.streams ∧ journal.level = .debug then emitted events
        else []).map line) := by
  have hshown : journal.shownOn = if journal.level = .debug then journal.streams else [] := rfl
  have htimes : journal.shownOn.count stream =
      if stream ∈ journal.streams ∧ journal.level = .debug then 1 else 0 := by
    rw [hshown]
    by_cases hlevel : journal.level = .debug <;> simp [hlevel, hnodup.count]
  have hwritten : ((journal.written events).filter (·.1 == stream)).map (·.2) =
      List.replicate (journal.shownOn.count stream) (String.join ((emitted events).map line)) := by
    rw [written, records_eq_emitted, List.filter_map, List.map_map]
    refine (congrArg _ (List.filter_beq stream)).trans ?_
    rw [List.map_replicate]
    rfl
  rw [hwritten, htimes]
  split
  · rw [List.replicate_one, String.join_cons, String.join_nil, String.append_empty]
  · rfl

theorem recordsDue_append (stream : String) (before actions more : List Action) :
    recordsDue stream before (actions ++ more) =
      recordsDue stream before actions ++ recordsDue stream (before ++ actions) more := by
  induction actions generalizing before with
  | nil => simp [recordsDue]
  | cons action actions ih => simp [recordsDue, ih]

/-- After one more step the streams show what the steps ask for. -/
theorem Session.Reflects.act (h : s.Reflects actions) (action : Action) :
    (s.act action).Reflects (actions ++ [action]) where
  journal := h.journal.change action
  shows stream := by
    have hnodup : s.journal.streams.Nodup := h.journal.streams ▸ Fields.nodup_eraseDups _
    have hdue : recordsDue stream [] (actions ++ [action]) = recordsDue stream [] actions ++
        if stream ∈ s.journal.streams ∧ s.journal.level = .debug then emitted action.events
        else [] := by
      rw [recordsDue_append, h.journal.streams, h.journal.level]
      simp [recordsDue]
    rw [hdue, List.map_append, Session.act, String.toList_append, join_written hnodup]
    exact (h.shows stream).append (shows_lines _)

/-- A stream that is configured again keeps its handler and takes the new level, and an empty one
gives way to the standard output. -/
example : (Session.after [.configuring true (some "stderr") "stdout", .addingNull,
    .configuring true (some ⟨"empty", false⟩) "stdout",
    .configuring false (some "stderr") "stdout"]).journal =
      ⟨[.stream (some "stderr"), .null, .stream (some "stdout")], .error, false⟩ := by
  decide

end Sessions

end RouteTemplate.Journal
