/-
# Checking in turn

Checks that never give up their turn finish in the order in which they are started, which in a task
group is the order of their creation. Checking concurrently is then the same as checking one
parameter after another, except that the checks after one that fails are run as well; the fault is
that of the first one that fails.

## Main definitions

* `verdictsInTurn` — the verdicts on the parameters, one after another and up to the first fault
* `Verdict.join` — the verdicts on single parameters, joined

## Main results

* `Pool.trace_of_allFinish` — checks that finish at once take their turns as they were created
* `outcome_validateAlong_of_finished`, `outcome_validateConcurrently_of_finished` — checks that
  finish at once are checked in turn
* `validateConcurrently_eq_ofParams` — the standard check, concurrently, is the standard validator
-/

import RouteTemplate.Matching.Matcher
import RouteTemplate.Proofs.Matching.Joining

namespace RouteTemplate

variable {params : Params} {definitions : Definitions} {check : ConcurrentCheck}

/-- The verdicts of a check on the parameters that have definitions, one after another and up to the
first fault. -/
def verdictsInTurn (definitions : Definitions) (check : ConcurrentCheck) :
    Params → Except Fault (Fields Verdict)
  | [] => .ok []
  | (name, v) :: rest =>
    match definitions.get? name with
    | some definition => do
      let verdict ← (check name v definition).result.outcome
      return (name, verdict) :: (← verdictsInTurn definitions check rest)
    | none => verdictsInTurn definitions check rest

/-- The verdicts on single parameters, joined: the errors of those that do not conform. -/
def Verdict.join (verdicts : Fields Verdict) : Verdict :=
  .ofErrors (verdicts.filterMap fun (name, verdict) =>
    if verdict.conforms then none else some (name, Pool.rejection name verdict))

/-- A check gives its verdict in its first turn. -/
def ConcurrentCheck.FinishesAtOnce (check : ConcurrentCheck) : Prop :=
  ∀ name v definition, ∃ run, check name v definition = .finished run

namespace Pool

/-- The joined verdict or, if a check failed, the fault of the one that failed first. -/
theorem outcome_conclude (pool : Pool) :
    pool.conclude.outcome =
      match pool.faults with
      | fault :: _ => .error fault
      | [] => .ok (.join pool.verdicts) := by
  rw [conclude]
  cases pool.faults with
  | nil => rfl
  | cons fault faults => rfl

/-! ## Checks that finish at once -/

/-- The checks that wait finish in their next turns. -/
def AllFinish (pool : Pool) : Prop :=
  ∀ waiting ∈ pool.pending, ∃ run, waiting.2 = .finished run

/-- When the check that has waited longest finishes in its turn, the others wait as before. -/
theorem pending_turn_zero {pool : Pool} {name : String} {run : Run Verdict}
    {others : List (String × Task Verdict)} (h : pool.pending = (name, .finished run) :: others) :
    (pool.turn 0).pending = others := by
  rw [turn, h]
  simp only [List.getElem?_cons_zero, List.eraseIdx_cons_zero, pending_advance, Task.rest?,
    Option.map_none, Option.toList_none, List.append_nil]

/-- Checks that finish at once take their turns as they wait, if they are started in this order and
all of them finish. -/
theorem trace_of_allFinish {pool : Pool} (h : pool.AllFinish) {schedule : List Nat}
    (horder : StartsInOrder pool.pending.length schedule)
    (hend : (pool.follow schedule).pending = []) : pool.trace schedule = pool.pending := by
  -- A turn takes the first check away, or it is one at a place where no check waits. No check comes
  -- back to the queue, so all that wait are such as have not been started.
  induction schedule generalizing pool with
  | nil => exact hend.symm
  | cons place schedule ih =>
    rw [StartsInOrder] at horder
    rw [trace]
    split at horder
    · rename_i hplace
      obtain ⟨rfl, horder⟩ := horder
      obtain ⟨⟨name, task⟩, others, hpending⟩ := List.exists_cons_of_length_pos hplace
      rw [AllFinish, hpending, List.forall_mem_cons] at h
      obtain ⟨⟨run, rfl⟩, hothers⟩ := h
      have hturn := pending_turn_zero hpending
      have hlength : (pool.turn 0).pending.length = pool.pending.length - 1 := by
        rw [hturn, hpending]
        rfl
      have hrest : (pool.turn 0).AllFinish := by rwa [AllFinish, hturn]
      rw [ih hrest (by rwa [hlength]) hend, hturn, hpending]
      rfl
    · rename_i hplace
      have hnone : pool.pending[place]? = none := List.getElem?_eq_none (Nat.not_lt.mp hplace)
      have hturn : pool.turn place = pool := by rw [turn, hnone]
      rw [hturn, hnone]
      rw [follow, List.foldl_cons, hturn] at hend
      exact ih h horder hend

theorem allFinish_start (hcheck : check.FinishesAtOnce) :
    (start params definitions check).AllFinish := by
  intro waiting hmem
  obtain ⟨⟨name, v⟩, -, hwaiting⟩ := List.mem_filterMap.mp hmem
  obtain ⟨definition, -, rfl⟩ := Option.map_eq_some_iff.mp hwaiting
  exact hcheck name v definition

/-- What the checks that wait at the start come to: the first fault or, if there is none, the
verdicts. -/
theorem verdictsInTurn_eq (hcheck : check.FinishesAtOnce) :
    verdictsInTurn definitions check params =
      match (start params definitions check).pending.filterMap raised? with
      | fault :: _ => .error fault
      | [] => .ok ((start params definitions check).pending.filterMap accepted?) := by
  simp only [start]
  induction params with
  | nil => rfl
  | cons entry params ih =>
    obtain ⟨name, v⟩ := entry
    rw [verdictsInTurn, List.filterMap_cons]
    cases hdefinition : definitions.get? name with
    | none => simpa only [hdefinition, Option.map_none] using ih
    | some definition =>
      obtain ⟨⟨events, outcome⟩, hrun⟩ := hcheck name v definition
      simp only [Option.map_some, hrun, Task.result, List.filterMap_cons]
      cases outcome with
      | error fault => rfl
      | ok verdict =>
        simp only [raised?, accepted?, ih]
        -- Whether there is a result is up to the checks that follow.
        cases List.filterMap raised? _ with
        | nil => rfl
        | cons fault faults => rfl

/-- No name stands twice among the verdicts of the checks that wait at the start. -/
theorem nodup_names_accepted (hnodup : (Fields.names params).Nodup) :
    (Fields.names ((start params definitions check).pending.filterMap accepted?)).Nodup := by
  have hnames (turn : String × Task Verdict) : accepted? turn =
      ((accepted? turn).map (·.2)).map fun verdict => (turn.1, verdict) := by
    cases haccepted : accepted? turn with
    | none => rfl
    | some own =>
      obtain ⟨events, rfl⟩ := accepted?_eq_some_iff.mp haccepted
      rfl
  rw [funext hnames]
  exact Fields.nodup_names_filterMap (nodup_names_start hnodup) fun name task =>
    (accepted? (name, task)).map (·.2)

end Pool

/-- Checks that finish at once, started in the order of their creation, come to what they come to
one after another. -/
theorem outcome_validateAlong_of_finished (hnodup : (Fields.names params).Nodup)
    (hcheck : check.FinishesAtOnce) {schedule : List Nat} {run : Run Verdict}
    (horder : Pool.StartsInOrder (Pool.start params definitions check).pending.length schedule)
    (hrun : validateAlong params definitions check schedule = some run) :
    run.outcome = (verdictsInTurn definitions check params).map Verdict.join := by
  obtain ⟨hend, rfl⟩ := validateAlong_eq_some_iff.mp hrun
  let pool := Pool.start params definitions check
  have htrace : pool.trace schedule = pool.pending :=
    Pool.trace_of_allFinish (Pool.allFinish_start hcheck) horder hend
  have hfaults : (pool.follow schedule).faults = pool.pending.filterMap Pool.raised? := by
    rw [Pool.faults_follow, htrace]
    rfl
  have hverdicts : (pool.follow schedule).verdicts =
      Fields.ofList (pool.pending.filterMap Pool.accepted?) := by
    rw [Pool.verdicts_follow, htrace]
    rfl
  -- Each parameter has one check, so no verdict takes the place of another.
  rw [Pool.outcome_conclude, hfaults, hverdicts,
    Fields.ofList_eq_self (Pool.nodup_names_accepted hnodup), Pool.verdictsInTurn_eq hcheck]
  cases pool.pending.filterMap Pool.raised? with
  | nil => rfl
  | cons fault faults => rfl

/-- So they do in every task group. -/
theorem outcome_validateConcurrently_of_finished (hnodup : (Fields.names params).Nodup)
    (hcheck : check.FinishesAtOnce) (group : TaskGroup) :
    (validateConcurrently params definitions check group).outcome =
      (verdictsInTurn definitions check params).map Verdict.join :=
  outcome_validateAlong_of_finished hnodup hcheck (group.startsInOrder _)
    (validateAlong_schedule group)

/-! ## The standard check -/

theorem Verdict.ofErrors_singleton (name : String) (rules : List String) :
    Verdict.ofErrors [(name, rules)] =
      if rules.isEmpty then ⟨true, []⟩ else ⟨false, [(name, rules)]⟩ := by
  cases rules <;> rfl

/-- Joining the verdicts on single parameters gives the verdict on all their errors. -/
theorem Verdict.join_ofErrors (errors : Fields (List String)) :
    Verdict.join (errors.map fun (name, rules) => (name, .ofErrors [(name, rules)])) =
      .ofErrors errors := by
  have hjoin : (errors.map fun (name, rules) => (name, Verdict.ofErrors [(name, rules)])).filterMap
      (fun (name, verdict) =>
        if verdict.conforms then none else some (name, Pool.rejection name verdict)) =
      errors.filter fun (_, rules) => !rules.isEmpty := by
    rw [List.filterMap_map]
    induction errors with
    | nil => rfl
    | cons entry errors ih =>
      obtain ⟨name, rules⟩ := entry
      rw [List.filterMap_cons, List.filter_cons, ih]
      cases rules with
      | nil => rfl
      | cons rule rules =>
        simp [Verdict.ofErrors_singleton, Pool.rejection, Fields.get?_cons]
  rw [Verdict.join, hjoin, Verdict.ofErrors, Verdict.ofErrors, List.filter_filter]
  simp only [Bool.and_self]

/-- The standard check comes to the rules that each parameter breaks, up to the first fault. -/
theorem verdictsInTurn_standardCheck (definitions : Definitions) (params : Params) :
    verdictsInTurn definitions standardCheck params =
      (collectErrors definitions params).map fun errors =>
        errors.map fun (name, rules) => (name, .ofErrors [(name, rules)]) := by
  induction params with
  | nil => rfl
  | cons entry params ih =>
    obtain ⟨name, v⟩ := entry
    rw [verdictsInTurn, collectErrors]
    cases definitions.get? name with
    | none => exact ih
    | some definition =>
      have hresult : (standardCheck name v definition).result.outcome =
          (definition.rulesNamedBy v).map fun rules => .ofErrors [(name, rules)] := rfl
      simp only [hresult, ih]
      cases definition.rulesNamedBy v with
      | error fault => rfl
      | ok rules =>
        cases collectErrors definitions params with
        | error fault => rfl
        | ok errors => rfl

/-- The standard validator checks a single parameter as the standard check does. -/
theorem toConcurrentCheck_standardValidator :
    Validator.toConcurrentCheck standardValidator = standardCheck := by
  funext name v definition
  have hcollect : collectErrors [(name, definition)] [(name, v)] =
      (definition.rulesNamedBy v).map fun rules => [(name, rules)] := by
    rw [collectErrors, Fields.get?_cons, if_pos rfl]
    dsimp only
    cases definition.rulesNamedBy v <;> rfl
  rw [Validator.toConcurrentCheck, standardCheck, standardValidator, Verdict.ofParams, hcollect,
    Verdict.ofParam]
  cases definition.rulesNamedBy v <;> rfl

theorem finishesAtOnce_standardCheck : standardCheck.FinishesAtOnce :=
  fun _ _ _ => ⟨_, rfl⟩

/-- One parameter after another, the standard check comes to what the standard validator comes
to. -/
theorem join_verdictsInTurn_standardCheck (params : Params) (definitions : Definitions) :
    (verdictsInTurn definitions standardCheck params).map Verdict.join =
      Verdict.ofParams params definitions := by
  rw [verdictsInTurn_standardCheck, Verdict.ofParams]
  cases collectErrors definitions params with
  | error fault => rfl
  | ok errors => exact congrArg Except.ok (Verdict.join_ofErrors errors)

/-- In every task group, the standard check comes to what the standard validator comes to. -/
theorem outcome_validateConcurrently_standardCheck (hnodup : (Fields.names params).Nodup)
    (group : TaskGroup) :
    (validateConcurrently params definitions standardCheck group).outcome =
      Verdict.ofParams params definitions := by
  rw [outcome_validateConcurrently_of_finished hnodup finishesAtOnce_standardCheck,
    join_verdictsInTurn_standardCheck]

/-! ## Other orders -/

/-- Verdicts that join the same verdicts conform alike and name the same errors. -/
theorem Joins.eq {verdict verdict' : Verdict} (h : Joins params definitions check verdict)
    (h' : Joins params definitions check verdict') :
    verdict.conforms = verdict'.conforms ∧
      ∀ name, verdict.errors.get? name = verdict'.errors.get? name := by
  constructor
  · rw [Bool.eq_iff_iff, h.conforms_iff, h'.conforms_iff]
  · intro name
    ext rules
    rw [h.errors_iff, h'.errors_iff]

/-- Checking every parameter concurrently by the standard check, or by the standard validator for
one parameter at a time, comes in every task group to what the standard validator comes to: the same
verdict or the fault of the first parameter at which it fails. So it does under every schedule that
starts the checks in the order of their creation. Under any other schedule the verdict is the same
as a map, and there is one if and only if the validator comes to one. -/
theorem validateConcurrently_eq_ofParams (hnodup : (Fields.names params).Nodup) :
    (∀ group, (validateConcurrently params definitions standardCheck group).outcome =
        Verdict.ofParams params definitions) ∧
      (∀ group, (validateConcurrently params definitions
        (Validator.toConcurrentCheck standardValidator) group).outcome =
        Verdict.ofParams params definitions) ∧
      ∀ schedule run, validateAlong params definitions standardCheck schedule = some run →
        (Pool.StartsInOrder (Pool.start params definitions standardCheck).pending.length schedule →
          run.outcome = Verdict.ofParams params definitions) ∧
        match Verdict.ofParams params definitions with
        | .ok verdict => ∃ verdict', run.outcome = .ok verdict' ∧
          verdict'.conforms = verdict.conforms ∧
          ∀ name, verdict'.errors.get? name = verdict.errors.get? name
        | .error _ => ∃ fault, run.outcome = .error fault := by
  have hgroup := @outcome_validateConcurrently_standardCheck params definitions hnodup
  refine ⟨hgroup, by simpa only [toConcurrentCheck_standardValidator] using hgroup,
    fun schedule run hrun => ⟨fun horder => ?_, ?_⟩⟩
  · rw [outcome_validateAlong_of_finished hnodup finishesAtOnce_standardCheck horder hrun,
      join_verdictsInTurn_standardCheck]
  obtain ⟨hend, rfl⟩ := validateAlong_eq_some_iff.mp hrun
  let pool := Pool.start params definitions standardCheck
  have hsettled : (pool.settle .fair).pending = [] := TaskGroup.fair.finishes pool
  have hfair : (pool.settle .fair).conclude.outcome = Verdict.ofParams params definitions :=
    hgroup .fair
  -- The faults to which checks come do not depend on the order, so there are some in both or none.
  have hfaults : (pool.follow schedule).faults = [] ↔ (pool.settle .fair).faults = [] := by
    rw [List.eq_nil_iff_forall_not_mem, List.eq_nil_iff_forall_not_mem]
    exact forall_congr' fun fault => not_congr ((Pool.mem_faults_follow_iff hnodup hend).trans
      (Pool.mem_faults_follow_iff hnodup hsettled).symm)
  cases hverdict : Verdict.ofParams params definitions with
  | ok verdict =>
    rw [hverdict] at hfair
    have hnone : (pool.settle .fair).faults = [] := by
      rw [Pool.outcome_conclude] at hfair
      cases h : (pool.settle .fair).faults with
      | nil => rfl
      | cons fault faults =>
        rw [h] at hfair
        exact absurd hfair (by simp)
    obtain ⟨own, hown, hjoins⟩ := Pool.joins_conclude hnodup hsettled hnone
    obtain ⟨verdict', hverdict', hjoins'⟩ := Pool.joins_conclude hnodup hend (hfaults.mpr hnone)
    obtain rfl : own = verdict := Except.ok.inj (hown.symm.trans hfair)
    exact ⟨verdict', hverdict', hjoins'.eq hjoins⟩
  | error fault =>
    rw [hverdict] at hfair
    have hsome : (pool.settle .fair).faults ≠ [] := by
      intro hnone
      rw [Pool.outcome_conclude, hnone] at hfair
      exact absurd hfair (by simp)
    obtain ⟨first, -, hfirst⟩ := Pool.outcome_conclude_of_faults (mt hfaults.mp hsome)
    exact ⟨first, hfirst⟩

/-- Of two checks that fail, the validator never comes to the second one. Concurrently both are run,
and the fault is that of the first one again; when the second one has its turn before the first one,
there is a fault as well. -/
theorem validateConcurrently_two_faults :
    (validateConcurrently [("a", .text "x"), ("b", .text "y")]
        [("a", ⟨"a", .string, true, { Constraints.none with minLength := some (.text "1") }⟩),
          ("b", ⟨"b", .string, true, { Constraints.none with pattern := some (.int 1) }⟩)]
        standardCheck).outcome = .error (.notComparable "<" "int" "str") ∧
      (validateConcurrently [("a", .text "x"), ("b", .text "y")]
        [("a", ⟨"a", .string, true, { Constraints.none with minLength := some (.text "1") }⟩),
          ("b", ⟨"b", .string, true, { Constraints.none with pattern := some (.int 1) }⟩)]
        (Validator.toConcurrentCheck standardValidator)).outcome =
          .error (.notComparable "<" "int" "str") ∧
      ∃ run fault, validateAlong [("a", .text "x"), ("b", .text "y")]
        [("a", ⟨"a", .string, true, { Constraints.none with minLength := some (.text "1") }⟩),
          ("b", ⟨"b", .string, true, { Constraints.none with pattern := some (.int 1) }⟩)]
        standardCheck [1, 0] = some run ∧ run.outcome = .error fault := by
  obtain ⟨hcheck, hvalidator, hany⟩ := @validateConcurrently_eq_ofParams
    [("a", .text "x"), ("b", .text "y")]
    [("a", ⟨"a", .string, true, { Constraints.none with minLength := some (.text "1") }⟩),
      ("b", ⟨"b", .string, true, { Constraints.none with pattern := some (.int 1) }⟩)] (by decide)
  obtain ⟨-, fault, hfault⟩ := hany [1, 0] _ rfl
  exact ⟨hcheck .fair, hvalidator .fair, _, fault, rfl, hfault⟩

end RouteTemplate
