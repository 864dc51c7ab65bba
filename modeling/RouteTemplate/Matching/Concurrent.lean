/-
# Checking parameters concurrently

Each parameter is handed to a check of its own, which may give up its turn any number of times
before it finishes. The checks form a task group: it starts them in the order of their creation and
is left when every one of them has finished; then the verdicts are joined. In which order checks
that have been started take their turns is up to the task group. In the fair one each check that is
not finished goes to the end of the queue.

## Main definitions

* `Task` — what is left of a check
* `Pool` — the checks that are under way and what the others have found
* `Pool.turn` — one check is given its turn
* `Pool.conclude` — the verdicts, joined
* `TaskGroup` — an order of turns for every pool, and `TaskGroup.fair`, the fair one
* `validateConcurrently` — the checks of all parameters, in a task group

## Main results

* `Pool.turnsLeft_turn` — every turn is one of a finite number
* `Pool.pending_follow_fairSchedule` — in the fair order every check is finished
-/

import RouteTemplate.Matching.Event

namespace RouteTemplate

/-- What is left of a computation that gives up its turn a finite number of times. -/
inductive Task (α : Type) where
  | finished (run : Run α)
  | paused (events : List Event) (rest : Task α)

namespace Task

/-- The number of turns until a task is finished. -/
def turns {α : Type} : Task α → Nat
  | finished _ => 1
  | paused _ rest => rest.turns + 1

/-- A task takes at least one turn. -/
theorem turns_pos {α : Type} (task : Task α) : 0 < task.turns := by
  cases task <;> simp [turns]

/-- A task that gives up its turn so many times after the given events. -/
def delayed {α : Type} (events : List Event) : Nat → Run α → Task α
  | 0, run => finished ⟨events ++ run.events, run.outcome⟩
  | n + 1, run => paused events (delayed [] n run)

end Task

/-- A check of one parameter. -/
abbrev ConcurrentCheck := String → Value → Definition Value → Task Verdict

/-- The standard check of one parameter. -/
def standardCheck : ConcurrentCheck :=
  fun name v definition => .finished (.ofExcept (Verdict.ofParam name v definition))

/-- A check of all parameters at once. -/
abbrev Validator := Params → Definitions → Run Verdict

/-- A check of all parameters at once serves for one of them. -/
def Validator.toConcurrentCheck (validator : Validator) : ConcurrentCheck :=
  fun name v definition => .finished (validator [(name, v)] [(name, definition)])

/-- Checks that are under way, in the order of their next turns, and what has come of the others:
verdicts and faults in the order in which the checks finished, and all events. -/
structure Pool where
  pending : List (String × Task Verdict)
  verdicts : Fields Verdict
  faults : List Fault
  events : List Event

namespace Pool

/-- Every parameter that has a definition is handed to the check. -/
def start (params : Params) (definitions : Definitions) (check : ConcurrentCheck) : Pool :=
  { pending := params.filterMap fun (name, v) =>
      (definitions.get? name).map fun definition => (name, check name v definition)
    verdicts := []
    faults := []
    events := [] }

/-- What a check that takes its turn leaves, the others being as given. -/
def advance (pool : Pool) (name : String) (others : List (String × Task Verdict)) :
    Task Verdict → Pool
  | .paused events rest =>
    { pool with pending := others ++ [(name, rest)], events := pool.events ++ events }
  | .finished ⟨events, .ok verdict⟩ =>
    { pool with
      pending := others
      verdicts := pool.verdicts.put name verdict
      events := pool.events ++ events }
  | .finished ⟨events, .error fault⟩ =>
    { pool with
      pending := others
      faults := pool.faults ++ [fault]
      events := pool.events ++ events }

/-- The check at a place in the queue takes its turn. -/
def turn (pool : Pool) (place : Nat) : Pool :=
  match pool.pending[place]? with
  -- No check waits at this place.
  | none => pool
  | some (name, task) => pool.advance name (pool.pending.eraseIdx place) task

/-- The number of turns until every check of a queue is finished. -/
def turnsIn : List (String × Task Verdict) → Nat
  | [] => 0
  | (_, task) :: others => task.turns + turnsIn others

/-- The number of turns until every check is finished. -/
def turnsLeft (pool : Pool) : Nat :=
  turnsIn pool.pending

/-- Turns in the given order. -/
def follow (pool : Pool) (schedule : List Nat) : Pool :=
  schedule.foldl turn pool

/-- The fair order: always the check that has waited longest. -/
def fairSchedule (pool : Pool) : List Nat :=
  List.replicate pool.turnsLeft 0

/-- A schedule for a queue of which so many checks, the first ones, have not been started: it starts
them in their order. -/
def StartsInOrder : Nat → List Nat → Prop
  | _, [] => True
  | fresh, place :: schedule =>
    if place < fresh then place = 0 ∧ StartsInOrder (fresh - 1) schedule
    else StartsInOrder fresh schedule

@[simp]
theorem turnsIn_append (queue more : List (String × Task Verdict)) :
    turnsIn (queue ++ more) = turnsIn queue + turnsIn more := by
  induction queue with
  | nil => simp [turnsIn]
  | cons check others ih => simp [turnsIn, ih, Nat.add_assoc]

/-- What a check has left after its turn is one turn less. -/
theorem turnsLeft_advance (pool : Pool) (name : String) (others : List (String × Task Verdict))
    (task : Task Verdict) :
    (pool.advance name others task).turnsLeft + 1 = turnsIn others + task.turns := by
  fun_cases advance pool name others task <;> simp [turnsLeft, turnsIn, Task.turns]
  omega

/-- Every turn of a check that is under way is one of those that are left. -/
theorem turnsLeft_turn (pool : Pool) (place : Nat) (h : place < pool.pending.length) :
    (pool.turn place).turnsLeft + 1 = pool.turnsLeft := by
  have hsplit : pool.pending.take place ++ pool.pending[place] :: pool.pending.drop (place + 1) =
      pool.pending := by
    rw [List.getElem_cons_drop, List.take_append_drop]
  rw [turn, List.getElem?_eq_getElem h, turnsLeft_advance, List.eraseIdx_eq_take_drop_succ,
    turnsLeft]
  conv => rhs; rw [← hsplit]
  simp only [turnsIn_append, turnsIn]
  omega

/-- When no turns are left, no check is under way. -/
theorem turnsLeft_eq_zero_iff (pool : Pool) : pool.turnsLeft = 0 ↔ pool.pending = [] := by
  cases h : pool.pending with
  | nil => simp [turnsLeft, turnsIn, h]
  | cons check others =>
    have := check.2.turns_pos
    simp [turnsLeft, turnsIn, h]
    omega

/-- As many turns as are left, each of the check that has waited longest, leave none. -/
theorem turnsLeft_follow_replicate (turns : Nat) (pool : Pool) (h : pool.turnsLeft = turns) :
    (pool.follow (List.replicate turns 0)).turnsLeft = 0 := by
  induction turns generalizing pool with
  | zero => simpa [follow] using h
  | succ turns ih =>
    have hpending : 0 < pool.pending.length := by
      rw [List.length_pos_iff, Ne, ← turnsLeft_eq_zero_iff, h]
      simp
    have hturn := turnsLeft_turn pool 0 hpending
    exact ih (pool.turn 0) (by omega)

/-- In the fair order every check is finished. -/
theorem pending_follow_fairSchedule (pool : Pool) :
    (pool.follow pool.fairSchedule).pending = [] :=
  (turnsLeft_eq_zero_iff _).mp (turnsLeft_follow_replicate _ pool rfl)

/-- The fair order starts checks in the order of their creation. -/
theorem startsInOrder_replicate (turns fresh : Nat) :
    StartsInOrder fresh (List.replicate turns 0) := by
  induction turns generalizing fresh with
  | zero => trivial
  | succ turns ih =>
    rw [List.replicate_succ, StartsInOrder]
    split
    · exact ⟨rfl, ih _⟩
    · exact ih _

/-- The rules that a verdict says are broken under a name, or that it was rejected. -/
def rejection (name : String) (verdict : Verdict) : List String :=
  match verdict.errors.get? name with
  | some (rule :: rules) => rule :: rules
  | _ => ["rejected"]

/-- The errors of the verdicts that do not conform. -/
def errors (pool : Pool) : Fields (List String) :=
  pool.verdicts.filterMap fun (name, verdict) =>
    if verdict.conforms then none else some (name, rejection name verdict)

/-- The verdicts joined or, if a check failed, the fault of the one that failed first. -/
def conclude (pool : Pool) : Run Verdict :=
  match pool.faults with
  | fault :: _ => ⟨pool.events, .error fault⟩
  | [] =>
    ⟨pool.events ++ [.record (.validated pool.verdicts.length)], .ok (.ofErrors pool.errors)⟩

end Pool

/-- A task group has the checks of a pool take turns. It starts them in the order of their creation,
and it is left when all of them have finished. -/
structure TaskGroup where
  schedule : Pool → List Nat
  startsInOrder (pool : Pool) : Pool.StartsInOrder pool.pending.length (schedule pool)
  finishes (pool : Pool) : (pool.follow (schedule pool)).pending = []

/-- The task group in which it is always the turn of the check that has waited longest. -/
def TaskGroup.fair : TaskGroup where
  schedule := Pool.fairSchedule
  startsInOrder _ := Pool.startsInOrder_replicate _ _
  finishes := Pool.pending_follow_fairSchedule

/-- What a task group leaves of a pool. -/
def Pool.settle (pool : Pool) (group : TaskGroup) : Pool :=
  pool.follow (group.schedule pool)

/-- Checks every parameter that has a definition, concurrently in a task group. -/
def validateConcurrently (params : Params) (definitions : Definitions)
    (check : ConcurrentCheck) (group : TaskGroup := .fair) : Run Verdict :=
  ((Pool.start params definitions check).settle group).conclude

end RouteTemplate
