/-
# Starting concurrent checks

Collaborators leave notes of their calls. A check of a parameter leaves one when it is started, in
its first turn, and one when it ends. Checks that are under way may take their turns in any order,
but a task group starts them in the order in which they were created: then the notes say that each
of them has been started once, in the order of the parameters, and nothing else has been called.

## Main definitions

* `calls` — the notes among events
* `Behaviour` — what collaborators do, and `Behaviour.collaborators`, which leave notes of it
* `Behaviour.ChecksInOrder` — validators that follow such schedules
* `Concludes` — what checks come to together

## Main results

* `Pool.startings_notes` — a schedule starts every check once, in the order of their creation
* `Behaviour.ChecksInOrder.startings_eq` — so does a validator that follows such schedules
* `Behaviour.checksInOrder_validateConcurrently` — every task group follows such a schedule
-/

import RouteTemplate.Proofs.Matching.Joining
import RouteTemplate.Matching.Matcher

namespace RouteTemplate

/-! ## Notes -/

/-- The notes among events. -/
def calls (events : List Event) : List Note :=
  events.filterMap fun
    | .note n => some n
    | .record _ => none

@[simp]
theorem calls_append (events more : List Event) :
    calls (events ++ more) = calls events ++ calls more :=
  List.filterMap_append

@[simp]
theorem calls_nil : calls [] = [] := rfl

@[simp]
theorem calls_note (n : Note) (events : List Event) :
    calls (.note n :: events) = n :: calls events := rfl

@[simp]
theorem calls_record (r : Record) (events : List Event) :
    calls (.record r :: events) = calls events := rfl

/-- The parameters whose checks are started. -/
def startings (notes : List Note) : Params :=
  notes.filterMap fun
    | .starting name v => some (name, v)
    | _ => none

/-- The note is of the check of a parameter. -/
def Note.IsOfCheck : Note → Prop
  | .starting _ _ | .finishing _ => True
  | .sanitizing _ | .validating _ => False

namespace Run

variable {α β : Type} {run : Run α} {notes notes' : List Note}

/-- The run leaves the notes and has the outcome. -/
def Leaves (run : Run α) (notes : List Note) (outcome : Except Fault α) : Prop :=
  calls run.events = notes ∧ run.outcome = outcome

theorem Leaves.bind {a : α} {next : α → Run β} {outcome : Except Fault β}
    (h : run.Leaves notes (.ok a)) (hnext : (next a).Leaves notes' outcome) :
    (run >>= next).Leaves (notes ++ notes') outcome := by
  obtain ⟨rfl, ha⟩ := h
  obtain ⟨rfl, rfl⟩ := hnext
  rw [bind_of_ok ha]
  exact ⟨calls_append _ _, rfl⟩

theorem Leaves.bind_error {next : α → Run β} {fault : Fault} (h : run.Leaves notes (.error fault)) :
    (run >>= next).Leaves notes (.error fault) := by
  obtain ⟨rfl, hfault⟩ := h
  rw [bind_of_error hfault]
  exact ⟨rfl, rfl⟩

theorem leaves_ofExcept (outcome : Except Fault α) : (ofExcept outcome).Leaves [] outcome :=
  ⟨rfl, rfl⟩

end Run

/-- What collaborators do. The sanitizer gives values under distinct names; the check of a parameter
gives up its turn so many times before it ends. -/
structure Behaviour where
  sanitize : Params → Definitions → Except Fault Params
  validate : Params → Definitions → Except Fault Verdict
  check : String → Value → Definition Value → Nat × Except Fault Verdict
  nodup_names_sanitize {params : Params} {definitions : Definitions} {out : Params}
    (h : sanitize params definitions = .ok out) : (Fields.names out).Nodup

namespace Behaviour

variable (b : Behaviour)

/-- The check of a parameter, with notes of its start and its end. -/
def concurrentCheck : ConcurrentCheck :=
  fun name v definition =>
    .delayed [.note (.starting name v)] (b.check name v definition).1
      ⟨[.note (.finishing name)], (b.check name v definition).2⟩

/-- The collaborators that behave so, each with a note of its call. -/
def collaborators : Collaborators where
  sanitizer := some fun params definitions =>
    ⟨[.note (.sanitizing params)], b.sanitize params definitions⟩
  validator := some fun params definitions =>
    ⟨[.note (.validating params)], b.validate params definitions⟩
  check := some b.concurrentCheck

end Behaviour

/-! ## Starting checks -/

/-- What happens in the next turn of a task. -/
def Task.events {α : Type} : Task α → List Event
  | finished run => run.events
  | paused events _ => events

namespace Pool

theorem events_advance (pool : Pool) (name : String) (others : List (String × Task Verdict))
    (task : Task Verdict) :
    (pool.advance name others task).events = pool.events ++ task.events := by
  fun_cases advance pool name others task <;> rfl

/-- The events are those of the turns. -/
theorem events_follow (pool : Pool) (schedule : List Nat) :
    (pool.follow schedule).events =
      pool.events ++ (pool.trace schedule).flatMap fun (_, task) => task.events := by
  induction schedule generalizing pool with
  | nil => simp [follow, trace]
  | cons place schedule ih =>
    have hturn : (pool.turn place).events =
        pool.events ++ pool.pending[place]?.toList.flatMap fun (_, task) => task.events := by
      rw [turn]
      cases pool.pending[place]? with
      | none => simp
      | some check => simp [events_advance]
    rw [trace, List.flatMap_append, ← List.append_assoc, ← hturn]
    exact ih (pool.turn place)

/-- When no check is under way, turns change nothing. -/
theorem follow_of_pending_eq_nil {pool : Pool} (h : pool.pending = []) (schedule : List Nat) :
    pool.follow schedule = pool := by
  induction schedule with
  | nil => rfl
  | cons place schedule ih =>
    have hturn : pool.turn place = pool := by
      rw [turn, h]
      rfl
    rw [follow, List.foldl_cons, hturn]
    exact ih

end Pool

namespace Behaviour

variable {b : Behaviour}

/-- What is left of a check after its start: so many turns, and the note of its end. -/
def IsUnderWay (name : String) (task : Task Verdict) : Prop :=
  ∃ turns outcome, task = .delayed [] turns ⟨[.note (.finishing name)], outcome⟩

/-- In its next turn a check leaves the notes that are due, and perhaps the one of its end. If it
does not end it is under way. -/
theorem next_delayed (name : String) (events : List Event) (turns : Nat)
    (outcome : Except Fault Verdict) {task : Task Verdict}
    (h : task = .delayed events turns ⟨[.note (.finishing name)], outcome⟩) :
    startings (calls task.events) = startings (calls events) ∧
      (∀ note ∈ calls task.events, note ∈ calls events ∨ note = .finishing name) ∧
      ∀ rest ∈ task.rest?, IsUnderWay name rest := by
  subst h
  cases turns with
  | zero => simp [Task.delayed, Task.events, Task.rest?, startings]
  | succ turns =>
    refine ⟨rfl, fun note hnote => .inl hnote, fun rest hrest => ?_⟩
    obtain rfl := Option.some.inj hrest
    exact ⟨turns, outcome, rfl⟩

end Behaviour

/-- The parameters that have definitions, with these. -/
def defined (params : Params) (definitions : Definitions) :
    List (String × Value × Definition Value) :=
  params.filterMap fun (name, v) =>
    (definitions.get? name).map fun definition => (name, v, definition)

theorem map_defined (params : Params) (definitions : Definitions) :
    (defined params definitions).map (fun (name, v, _) => (name, v)) =
      params.filter fun (name, _) => (definitions.get? name).isSome := by
  induction params with
  | nil => rfl
  | cons entry params ih =>
    rw [defined, List.filterMap_cons, List.filter_cons, ← defined]
    cases hdefinition : definitions.get? entry.1 <;> simp [hdefinition, ih]

namespace Pool

variable {b : Behaviour}

/-- The checks of parameters, none of them started. -/
def fresh (b : Behaviour) (entries : List (String × Value × Definition Value)) :
    List (String × Task Verdict) :=
  entries.map fun (name, v, definition) => (name, b.concurrentCheck name v definition)

/-- The notes of the turns that are taken under a schedule. -/
def notes (pool : Pool) (schedule : List Nat) : List Note :=
  (pool.trace schedule).flatMap fun (_, task) => calls task.events

theorem calls_follow (pool : Pool) (schedule : List Nat) :
    calls (pool.follow schedule).events = calls pool.events ++ pool.notes schedule := by
  rw [events_follow, calls_append, notes, calls, calls, List.filterMap_flatMap]
  rfl

theorem pending_turn {pool : Pool} {place : Nat} {name : String} {task : Task Verdict}
    (h : pool.pending[place]? = some (name, task)) :
    (pool.turn place).pending =
      pool.pending.eraseIdx place ++ (task.rest?.map fun rest => (name, rest)).toList := by
  rw [turn, h]
  exact pending_advance pool name _ task

theorem notes_cons (pool : Pool) (place : Nat) (schedule : List Nat) :
    pool.notes (place :: schedule) =
      (pool.pending[place]?.toList.flatMap fun (_, task) => calls task.events) ++
        (pool.turn place).notes schedule :=
  List.flatMap_append

section Order

variable {pool : Pool} {place : Nat} {entries : List (String × Value × Definition Value)}
  {begun : List (String × Task Verdict)} {started : Params}

/-- A queue of checks of which the given ones, and these alone, have not been started. -/
def HasFresh (b : Behaviour) (entries : List (String × Value × Definition Value))
    (pending : List (String × Task Verdict)) : Prop :=
  ∃ begun, pending = fresh b entries ++ begun ∧
    ∀ check ∈ begun, Behaviour.IsUnderWay check.1 check.2

/-- The turn starts the checks of the given parameters, and leaves no other notes but of checks. -/
def Starts (pool : Pool) (place : Nat) (started : Params) : Prop :=
  ∃ notes,
    (∀ schedule, pool.notes (place :: schedule) = notes ++ (pool.turn place).notes schedule) ∧
    startings notes = started ∧ ∀ note ∈ notes, note.IsOfCheck

/-- A check takes its turn, and what is left of it goes to the end of the queue. -/
theorem starts_of_getElem? {name : String} (events : List Event) {turns : Nat}
    {outcome : Except Fault Verdict} {task : Task Verdict}
    (htask : task = .delayed events turns ⟨[.note (.finishing name)], outcome⟩)
    (hevents : ∀ note ∈ calls events, note.IsOfCheck)
    (hplace : pool.pending[place]? = some (name, task))
    (hothers : HasFresh b entries (pool.pending.eraseIdx place)) :
    pool.Starts place (startings (calls events)) ∧
      HasFresh b entries (pool.turn place).pending := by
  obtain ⟨hstart, hnotes, hrest⟩ := Behaviour.next_delayed name events turns outcome htask
  constructor
  · refine ⟨calls task.events, fun schedule => ?_, hstart, fun note hnote => ?_⟩
    · rw [notes_cons, hplace, Option.toList_some, List.flatMap_singleton]
    · rcases hnotes note hnote with hnote | rfl
      · exact hevents note hnote
      · trivial
  · obtain ⟨begun, hpending, hbegun⟩ := hothers
    refine ⟨begun ++ (task.rest?.map fun rest => (name, rest)).toList, ?_, ?_⟩
    · rw [pending_turn hplace, hpending, List.append_assoc]
    · refine List.forall_mem_append.mpr ⟨hbegun, fun check hcheck => ?_⟩
      obtain ⟨rest, hmem, rfl⟩ := Option.map_eq_some_iff.mp (Option.mem_toList.mp hcheck)
      exact hrest rest hmem

/-- The first of the checks that have not been started is started in its turn. -/
theorem starts_fresh {name : String} {v : Value} {definition : Definition Value}
    (h : HasFresh b ((name, v, definition) :: entries) pool.pending) :
    pool.Starts 0 [(name, v)] ∧ HasFresh b entries (pool.turn 0).pending := by
  obtain ⟨begun, hpending, hbegun⟩ := h
  have hfirst : pool.pending[0]? = some (name, b.concurrentCheck name v definition) := by
    rw [hpending]
    rfl
  refine starts_of_getElem? [.note (.starting name v)] rfl (by simp [Note.IsOfCheck]) hfirst
    ⟨begun, ?_, hbegun⟩
  rw [hpending]
  rfl

/-- A turn at any later place starts no check. -/
theorem starts_begun (h : HasFresh b entries pool.pending) (hplace : entries.length ≤ place) :
    pool.Starts place [] ∧ HasFresh b entries (pool.turn place).pending := by
  obtain ⟨begun, hpending, hbegun⟩ := h
  have hlength : (fresh b entries).length ≤ place := by rwa [fresh, List.length_map]
  cases hcheck : pool.pending[place]? with
  | none =>
    have hturn : pool.turn place = pool := by rw [turn, hcheck]
    refine ⟨⟨[], fun schedule => ?_, rfl, by simp⟩, begun, by rw [hturn, hpending], hbegun⟩
    rw [notes_cons, hcheck]
    rfl
  | some check =>
    obtain ⟨name, task⟩ := check
    rw [hpending, List.getElem?_append_right hlength] at hcheck
    obtain ⟨turns, outcome, htask⟩ := hbegun _ (List.mem_of_getElem? hcheck)
    refine starts_of_getElem? [] htask (by simp) ?_
      ⟨begun.eraseIdx (place - (fresh b entries).length), ?_, fun check hmem =>
        hbegun check (List.mem_of_mem_eraseIdx hmem)⟩
    · rw [hpending, List.getElem?_append_right hlength, hcheck]
    · rw [hpending, List.eraseIdx_append_of_length_le hlength]

/-- A schedule that lets every check finish, and that starts the checks in the order of their
creation, starts each of them once, in this order. It leaves no notes but those of the checks. -/
theorem startings_notes {schedule : List Nat} (h : HasFresh b entries pool.pending)
    (horder : StartsInOrder entries.length schedule)
    (hend : (pool.follow schedule).pending = []) :
    startings (pool.notes schedule) = entries.map (fun (name, v, _) => (name, v)) ∧
      ∀ note ∈ pool.notes schedule, note.IsOfCheck := by
  -- The notes of one turn, and then those of the others.
  have hcons {pool : Pool} {place : Nat} {schedule : List Nat} {started later : Params}
      (hstarts : pool.Starts place started)
      (hlater : startings ((pool.turn place).notes schedule) = later ∧
        ∀ note ∈ (pool.turn place).notes schedule, note.IsOfCheck) :
      startings (pool.notes (place :: schedule)) = started ++ later ∧
        ∀ note ∈ pool.notes (place :: schedule), note.IsOfCheck := by
    obtain ⟨notes, hnotes, rfl, hchecks⟩ := hstarts
    obtain ⟨rfl, hlater⟩ := hlater
    rw [hnotes]
    exact ⟨List.filterMap_append, List.forall_mem_append.mpr ⟨hchecks, hlater⟩⟩
  induction schedule generalizing pool entries with
  | nil =>
    obtain ⟨begun, hpending, -⟩ := h
    rw [follow, List.foldl_nil, hpending] at hend
    obtain ⟨hnone, -⟩ := List.append_eq_nil_iff.mp hend
    obtain rfl := List.map_eq_nil_iff.mp hnone
    exact ⟨rfl, by simp [notes, trace]⟩
  | cons place schedule ih =>
    rw [StartsInOrder] at horder
    split at horder
    · rename_i hfresh
      obtain ⟨rfl, horder⟩ := horder
      obtain ⟨⟨name, v, definition⟩, entries, rfl⟩ := List.exists_cons_of_length_pos hfresh
      obtain ⟨hstarts, hleft⟩ := starts_fresh h
      exact hcons hstarts (ih hleft horder hend)
    · rename_i hplace
      obtain ⟨hstarts, hleft⟩ := starts_begun h (Nat.not_lt.mp hplace)
      exact hcons hstarts (ih hleft horder hend)

end Order

end Pool

/-! ## Checking concurrently -/

/-- What the checks of the parameters come to together: the verdicts joined or, if a check fails,
the fault of one that does. -/
def Concludes (params : Params) (definitions : Definitions) (check : ConcurrentCheck) :
    Except Fault Verdict → Prop
  | .ok verdict => (∀ name fault, ¬ ComesTo params definitions check name (.error fault)) ∧
      Joins params definitions check verdict
  | .error fault => ∃ name, ComesTo params definitions check name (.error fault)

theorem concludes_of_validateAlong {params : Params} {definitions : Definitions}
    {check : ConcurrentCheck} {schedule : List Nat} {run : Run Verdict}
    (hnodup : (Fields.names params).Nodup)
    (h : validateAlong params definitions check schedule = some run) :
    Concludes params definitions check run.outcome := by
  obtain ⟨hend, rfl⟩ := validateAlong_eq_some_iff.mp h
  have hmem (fault : Fault) :=
    @Pool.mem_faults_follow_iff params definitions check schedule hnodup hend fault
  cases hfaults : ((Pool.start params definitions check).follow schedule).faults with
  | nil =>
    obtain ⟨verdict, hverdict, hjoins⟩ := Pool.joins_conclude hnodup hend hfaults
    rw [hverdict]
    refine ⟨fun name fault hcomes => ?_, hjoins⟩
    have hfault := (hmem fault).mpr ⟨name, hcomes⟩
    rw [hfaults] at hfault
    exact List.not_mem_nil hfault
  | cons fault faults =>
    rw [Pool.conclude, hfaults]
    exact (hmem fault).mp (by rw [hfaults]; exact List.mem_cons_self)

namespace Behaviour

variable {b : Behaviour}

/-- The validator has the checks take their turns by some schedule that starts them in the order of
their creation, until they have all finished. -/
def ChecksInOrder (b : Behaviour) (validator : Validator) : Prop :=
  ∀ params definitions, ∃ schedule,
    Pool.StartsInOrder (Pool.start params definitions b.concurrentCheck).pending.length schedule ∧
      validateAlong params definitions b.concurrentCheck schedule =
        some (validator params definitions)

theorem checksInOrder_validateConcurrently (b : Behaviour) (group : TaskGroup) :
    b.ChecksInOrder fun params definitions =>
      validateConcurrently params definitions b.concurrentCheck group :=
  fun _ _ => ⟨_, group.startsInOrder _, validateAlong_schedule group⟩

/-- Without parameters nothing is called. -/
theorem ChecksInOrder.leaves_nil {validator : Validator} (h : b.ChecksInOrder validator)
    (definitions : Definitions) : (validator [] definitions).Leaves [] (.ok ⟨true, []⟩) := by
  obtain ⟨schedule, -, hrun⟩ := h [] definitions
  obtain ⟨-, hconclude⟩ := validateAlong_eq_some_iff.mp hrun
  rw [Pool.follow_of_pending_eq_nil rfl] at hconclude
  rw [← hconclude]
  exact ⟨rfl, rfl⟩

/-- The check of each parameter that has a definition is started once, in the order of the
parameters, and nothing else is called. -/
theorem ChecksInOrder.startings_eq {validator : Validator} (h : b.ChecksInOrder validator)
    (params : Params) (definitions : Definitions) :
    startings (calls (validator params definitions).events) =
        params.filter (fun (name, _) => (definitions.get? name).isSome) ∧
      ∀ note ∈ calls (validator params definitions).events, note.IsOfCheck := by
  obtain ⟨schedule, horder, hrun⟩ := h params definitions
  obtain ⟨hend, hconclude⟩ := validateAlong_eq_some_iff.mp hrun
  have hstart : (Pool.start params definitions b.concurrentCheck).pending =
      Pool.fresh b (defined params definitions) := by
    rw [Pool.start, Pool.fresh, defined, List.map_filterMap]
    simp only [Option.map_map, Function.comp_def]
  have hfresh : Pool.HasFresh b (defined params definitions)
      (Pool.start params definitions b.concurrentCheck).pending :=
    ⟨[], by rw [hstart, List.append_nil], by simp⟩
  rw [hstart, Pool.fresh, List.length_map] at horder
  have hnotes := Pool.startings_notes hfresh horder hend
  have hevents : calls (validator params definitions).events =
      (Pool.start params definitions b.concurrentCheck).notes schedule := by
    have hfollow := Pool.calls_follow (Pool.start params definitions b.concurrentCheck) schedule
    rw [← hconclude, Pool.conclude]
    split <;> simpa [Pool.start] using hfollow
  rwa [hevents, ← map_defined]

end Behaviour

end RouteTemplate
