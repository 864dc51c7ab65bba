/-
# Joining concurrent checks

Checks that are under way take their turns in any order. Whatever the order, every check goes
through all its stages before there is a result; the verdicts are joined name by name, so the order
does not matter, and only which of several faults is reported depends on it.

## Main definitions

* `Pool.trace` — the turns that are taken under a schedule
* `validateAlong` — the result under a schedule, once every check has finished
* `ComesTo` — what the check of a parameter comes to in the end

## Main results

* `Pool.stagesLeft_trace` — a check goes through its stages, one in each of its turns
* `validateAlong_schedule` — checking concurrently follows the schedule of the task group
* `validateAlong_eq_some` — what the result is, and that only the first fault depends on the order
-/

import Mathlib.Data.List.Nodup
import RouteTemplate.Matching.Concurrent
import RouteTemplate.Proofs.Fields

namespace RouteTemplate

namespace Task

variable {α : Type}

/-- A task as it stands before each of its turns. -/
def stages : Task α → List (Task α)
  | finished run => [finished run]
  | paused events rest => paused events rest :: rest.stages

/-- What is left of a task after its next turn. -/
def rest? : Task α → Option (Task α)
  | finished _ => none
  | paused _ rest => some rest

theorem stages_eq (task : Task α) : task.stages = task :: (task.rest?.map stages).getD [] := by
  cases task with
  | finished run => rfl
  | paused events rest => rfl

/-- What a task comes to in the end. -/
def result : Task α → Run α
  | finished run => run
  | paused _ rest => rest.result

/-- A task that is delayed comes to the same outcome as without the delay. -/
theorem outcome_result_delayed (events : List Event) (turns : Nat) (run : Run α) :
    (delayed events turns run).result.outcome = run.outcome := by
  induction turns generalizing events with
  | zero => rfl
  | succ turns ih => exact ih []

/-- The last stage of a task is the one with its result. -/
theorem finished_mem_stages_iff {task : Task α} {run : Run α} :
    finished run ∈ task.stages ↔ run = task.result := by
  induction task with
  | finished _ => simp [stages, result]
  | paused _ _ ih => simp [stages, result, ih]

end Task

namespace Pool

/-- The turns that are taken under a schedule: the names of the checks, each with its task as it
stands before the turn. -/
def trace (pool : Pool) : List Nat → List (String × Task Verdict)
  | [] => []
  | place :: schedule => pool.pending[place]?.toList ++ (pool.turn place).trace schedule

/-- The verdict with which a check finishes in its turn. -/
def accepted? : String × Task Verdict → Option (String × Verdict)
  | (name, .finished ⟨_, .ok verdict⟩) => some (name, verdict)
  | _ => none

/-- The fault with which a check finishes in its turn. -/
def raised? : String × Task Verdict → Option Fault
  | (_, .finished ⟨_, .error fault⟩) => some fault
  | _ => none

/-- The stages that the check under a name has still to go through. -/
def stagesLeft (pool : Pool) (name : String) : List (Task Verdict) :=
  ((Fields.get? pool.pending name).map Task.stages).getD []

/-! ## One turn -/

theorem pending_advance (pool : Pool) (name : String) (others : List (String × Task Verdict))
    (task : Task Verdict) :
    (pool.advance name others task).pending =
      others ++ (task.rest?.map fun rest => (name, rest)).toList := by
  fun_cases advance pool name others task <;> simp [Task.rest?]

theorem faults_advance (pool : Pool) (name : String) (others : List (String × Task Verdict))
    (task : Task Verdict) :
    (pool.advance name others task).faults = pool.faults ++ (raised? (name, task)).toList := by
  fun_cases advance pool name others task <;> simp [raised?]

theorem verdicts_advance (pool : Pool) (name : String) (others : List (String × Task Verdict))
    (task : Task Verdict) :
    (pool.advance name others task).verdicts =
      Fields.merge pool.verdicts (accepted? (name, task)).toList := by
  fun_cases advance pool name others task <;> rfl

theorem accepted?_eq_some_iff {turn : String × Task Verdict} {name : String}
    {verdict : Verdict} :
    accepted? turn = some (name, verdict) ↔
      ∃ events, turn = (name, .finished ⟨events, .ok verdict⟩) := by
  fun_cases accepted? turn with
  | case1 name' events verdict' =>
    simp only [Option.some.injEq, Prod.mk.injEq, Task.finished.injEq, Run.mk.injEq,
      Except.ok.injEq]
    constructor
    · rintro ⟨rfl, rfl⟩
      exact ⟨events, rfl, rfl, rfl⟩
    · rintro ⟨_, rfl, -, rfl⟩
      exact ⟨rfl, rfl⟩
  | case2 turn hnot =>
    refine ⟨fun h => absurd h (by simp), ?_⟩
    rintro ⟨events, rfl⟩
    exact (hnot name events verdict rfl).elim

theorem raised?_eq_some_iff {turn : String × Task Verdict} {fault : Fault} :
    raised? turn = some fault ↔
      ∃ name events, turn = (name, .finished ⟨events, .error fault⟩) := by
  fun_cases raised? turn with
  | case1 name' events fault' =>
    simp only [Option.some.injEq, Prod.mk.injEq, Task.finished.injEq, Run.mk.injEq,
      Except.error.injEq]
    constructor
    · rintro rfl
      exact ⟨name', events, rfl, rfl, rfl⟩
    · rintro ⟨_, _, -, -, rfl⟩
      rfl
  | case2 turn hnot =>
    refine ⟨fun h => absurd h (by simp), ?_⟩
    rintro ⟨name, events, rfl⟩
    exact (hnot name events fault rfl).elim

/-- The check that takes its turn stands between the others. -/
private theorem exists_split {pending : List (String × Task Verdict)} {place : Nat}
    {check : String × Task Verdict} (h : pending[place]? = some check) :
    ∃ before after, pending = before ++ check :: after ∧
      pending.eraseIdx place = before ++ after := by
  obtain ⟨hplace, rfl⟩ := List.getElem?_eq_some_iff.mp h
  refine ⟨pending.take place, pending.drop (place + 1), ?_, List.eraseIdx_eq_take_drop_succ ..⟩
  rw [List.getElem_cons_drop, List.take_append_drop]

/-- A turn brings the check that takes it to its next stage, and leaves the others where they
are. -/
theorem stagesLeft_turn {pool : Pool} (hnodup : (Fields.names pool.pending).Nodup) (place : Nat) :
    (Fields.names (pool.turn place).pending).Nodup ∧
      ∀ name, pool.stagesLeft name =
        (pool.pending[place]?.toList.filter (·.1 == name)).map (·.2) ++
          (pool.turn place).stagesLeft name := by
  rw [turn]
  cases hplace : pool.pending[place]? with
  | none => exact ⟨hnodup, fun name => rfl⟩
  | some check =>
    obtain ⟨name, task⟩ := check
    -- The check that takes its turn goes to the end of the queue, unless it finishes.
    obtain ⟨before, after, hpending, hothers⟩ := exists_split hplace
    have hadvance := pending_advance pool name (before ++ after) task
    rw [hpending, Fields.names, List.map_append, List.map_cons] at hnodup
    obtain ⟨hname, hnodup⟩ := List.nodup_cons.mp (List.nodup_middle.mp hnodup)
    rw [List.mem_append, not_or] at hname
    have hlast (other : String) :
        Fields.get? (task.rest?.map fun rest => (name, rest)).toList other =
          if other = name then task.rest? else none := by
      cases task.rest? with
      | none => simp
      | some rest => simp [Fields.get?_cons]
    simp only [hothers, stagesLeft, hadvance]
    constructor
    · rw [Fields.names, List.map_append, List.map_append]
      cases task.rest? with
      | none => simpa using hnodup
      | some rest =>
        refine List.nodup_append.mpr ⟨hnodup, by simp, ?_⟩
        rintro key hkey _ hrest rfl
        obtain rfl : key = name := by simpa using hrest
        rw [List.mem_append] at hkey
        exact hkey.elim hname.1 hname.2
    · intro other
      rw [hpending, Fields.get?_append, Fields.get?_append, Fields.get?_append, Fields.get?_cons,
        hlast]
      -- No other check stands under its name, so what is found under another name is the same.
      by_cases hother : other = name
      · subst hother
        have hbefore : Fields.get? before other = none :=
          (Fields.get?_eq_none_iff before other).mpr hname.1
        have hafter : Fields.get? after other = none :=
          (Fields.get?_eq_none_iff after other).mpr hname.2
        simp [hbefore, hafter, Task.stages_eq task]
      · have hne : (name == other) = false := beq_eq_false_iff_ne.mpr (Ne.symm hother)
        simp [hother, hne]

/-! ## Whole schedules -/

/-- Under a schedule every check goes on from stage to stage, one in each of its turns. -/
theorem stagesLeft_trace {pool : Pool} (hnodup : (Fields.names pool.pending).Nodup)
    (schedule : List Nat) (name : String) :
    pool.stagesLeft name = ((pool.trace schedule).filter (·.1 == name)).map (·.2) ++
      (pool.follow schedule).stagesLeft name := by
  -- That no name stands twice among the checks under way is what every turn preserves.
  induction schedule generalizing pool with
  | nil => rfl
  | cons place schedule ih =>
    obtain ⟨hnodup', hturn⟩ := stagesLeft_turn hnodup place
    rw [trace, List.filter_append, List.map_append, List.append_assoc, hturn name, ih hnodup']
    rfl

/-- The faults are those of the checks that finish, in the order of their last turns. -/
theorem faults_follow (pool : Pool) (schedule : List Nat) :
    (pool.follow schedule).faults = pool.faults ++ (pool.trace schedule).filterMap raised? := by
  induction schedule generalizing pool with
  | nil => simp [follow, trace]
  | cons place schedule ih =>
    have hturn : (pool.turn place).faults =
        pool.faults ++ pool.pending[place]?.toList.filterMap raised? := by
      rw [turn]
      cases pool.pending[place]? with
      | none => simp
      | some check =>
        rw [faults_advance]
        cases h : raised? check <;> simp [h]
    rw [trace, List.filterMap_append, ← List.append_assoc, ← hturn]
    exact ih (pool.turn place)

/-- The verdicts are those of the checks that finish, put together name by name. -/
theorem verdicts_follow (pool : Pool) (schedule : List Nat) :
    (pool.follow schedule).verdicts =
      Fields.merge pool.verdicts ((pool.trace schedule).filterMap accepted?) := by
  induction schedule generalizing pool with
  | nil => rfl
  | cons place schedule ih =>
    have hturn : (pool.turn place).verdicts =
        Fields.merge pool.verdicts (pool.pending[place]?.toList.filterMap accepted?) := by
      rw [turn]
      cases pool.pending[place]? with
      | none => rfl
      | some check =>
        rw [verdicts_advance]
        cases h : accepted? check <;> simp [h]
    rw [trace, List.filterMap_append, Fields.merge_append, ← hturn]
    exact ih (pool.turn place)

end Pool

/-! ## What the checks come to -/

/-- The check of the parameter of the given name, which has a value and a definition, comes to the
given outcome in the end. -/
def ComesTo (params : Params) (definitions : Definitions) (check : ConcurrentCheck) (name : String)
    (outcome : Except Fault Verdict) : Prop :=
  ∃ v definition, params.get? name = some v ∧ definitions.get? name = some definition ∧
    (check name v definition).result.outcome = outcome

/-- The stages of the check of a parameter that has a definition, none for any other name. -/
def stagesOf (params : Params) (definitions : Definitions) (check : ConcurrentCheck)
    (name : String) : List (Task Verdict) :=
  match params.get? name, definitions.get? name with
  | some v, some definition => (check name v definition).stages
  | _, _ => []

variable {params : Params} {definitions : Definitions} {check : ConcurrentCheck} {name : String}

/-- A parameter has one check, which comes to one outcome. -/
theorem ComesTo.eq {outcome outcome' : Except Fault Verdict}
    (h : ComesTo params definitions check name outcome)
    (h' : ComesTo params definitions check name outcome') : outcome = outcome' := by
  obtain ⟨v, definition, hv, hdefinition, rfl⟩ := h
  obtain ⟨v', definition', hv', hdefinition', rfl⟩ := h'
  obtain rfl := Option.some.inj (hv.symm.trans hv')
  obtain rfl := Option.some.inj (hdefinition.symm.trans hdefinition')
  rfl

theorem exists_finished_mem_stagesOf_iff {outcome : Except Fault Verdict} :
    (∃ events, .finished ⟨events, outcome⟩ ∈ stagesOf params definitions check name) ↔
      ComesTo params definitions check name outcome := by
  rw [ComesTo, stagesOf]
  cases hv : params.get? name with
  | none => simp
  | some v =>
    cases hdefinition : definitions.get? name with
    | none => simp
    | some definition =>
      simp only [Task.finished_mem_stages_iff, Option.some.injEq]
      constructor
      · rintro ⟨events, hresult⟩
        exact ⟨v, definition, rfl, rfl, by rw [← hresult]⟩
      · rintro ⟨_, _, rfl, rfl, rfl⟩
        exact ⟨_, rfl⟩

/-- A verdict joins those to which the checks come: it conforms if they all do, and otherwise
names the parameters whose verdicts do not, each with its broken rules or as rejected. -/
structure Joins (params : Params) (definitions : Definitions) (check : ConcurrentCheck)
    (verdict : Verdict) : Prop where
  conforms_iff : verdict.conforms = true ↔
    ∀ name own, ComesTo params definitions check name (.ok own) → own.conforms = true
  errors_iff : ∀ name rules, verdict.errors.get? name = some rules ↔
    ∃ own, ComesTo params definitions check name (.ok own) ∧ own.conforms = false ∧
      rules = ((own.errors.get? name).filter fun rules => !rules.isEmpty).getD ["rejected"]
  nodup_names : (Fields.names verdict.errors).Nodup

namespace Pool

/-- At the start the checks of the parameters that have definitions wait for their first turns, one
under each name. -/
theorem stagesLeft_start (hnodup : (Fields.names params).Nodup) (name : String) :
    (start params definitions check).stagesLeft name = stagesOf params definitions check name := by
  have hget : Fields.get? (start params definitions check).pending name =
      (params.get? name).bind fun v => (definitions.get? name).map fun definition =>
        check name v definition := by
    rw [← Fields.get?_filterMap hnodup fun name v =>
      (definitions.get? name).map fun definition => check name v definition]
    simp only [start, Option.map_map, Function.comp_def]
  rw [stagesLeft, hget, stagesOf]
  cases params.get? name with
  | none => rfl
  | some v => cases definitions.get? name <;> rfl

theorem nodup_names_start (hnodup : (Fields.names params).Nodup) :
    (Fields.names (start params definitions check).pending).Nodup := by
  have h := Fields.nodup_names_filterMap hnodup fun name v =>
    (definitions.get? name).map fun definition => check name v definition
  simpa only [start, Option.map_map, Function.comp_def] using h

theorem nodup_names_verdicts_follow {schedule : List Nat} :
    (Fields.names ((start params definitions check).follow schedule).verdicts).Nodup := by
  rw [verdicts_follow]
  exact Fields.nodup_names_ofList _

/-! ## The joined verdict -/

/-- What is reported for a rejected parameter: the rules that are named under it, if any. -/
theorem rejection_eq (name : String) (verdict : Verdict) :
    rejection name verdict =
      ((verdict.errors.get? name).filter fun rules => !rules.isEmpty).getD ["rejected"] := by
  fun_cases rejection name verdict with
  | case1 rule rules h => simp [h, Option.filter]
  | case2 hnot =>
    cases h : verdict.errors.get? name with
    | none => rfl
    | some rules =>
      cases rules with
      | nil => rfl
      | cons rule rules => exact (hnot rule rules h).elim

theorem rejection_ne_nil (name : String) (verdict : Verdict) : rejection name verdict ≠ [] := by
  fun_cases rejection name verdict <;> simp

private theorem errors_eq (pool : Pool) :
    pool.errors = pool.verdicts.filterMap fun (name, verdict) =>
      (if verdict.conforms then none else some (rejection name verdict)).map fun rules =>
        (name, rules) := by
  rw [errors]
  congr 1
  funext ⟨name, verdict⟩
  by_cases h : verdict.conforms = true <;> simp [h]

/-- Errors are reported under the names of the verdicts that do not conform. -/
theorem get?_errors {pool : Pool} (hnodup : (Fields.names pool.verdicts).Nodup) (name : String) :
    pool.errors.get? name = (pool.verdicts.get? name).bind fun verdict =>
      if verdict.conforms then none else some (rejection name verdict) := by
  rw [errors_eq]
  exact Fields.get?_filterMap hnodup fun name verdict =>
    if verdict.conforms then none else some (rejection name verdict)

/-- The errors are those of the verdicts that do not conform. -/
theorem get?_errors_eq_some_iff {pool : Pool} (hnodup : (Fields.names pool.verdicts).Nodup)
    {name : String} {rules : List String} :
    pool.errors.get? name = some rules ↔
      ∃ own, pool.verdicts.get? name = some own ∧ own.conforms = false ∧
        rules = rejection name own := by
  rw [get?_errors hnodup, Option.bind_eq_some_iff]
  constructor
  · rintro ⟨own, hown, hrules⟩
    split at hrules
    · exact absurd hrules (by simp)
    · rename_i hconforms
      exact ⟨own, hown, Bool.eq_false_iff.mpr hconforms, (Option.some.inj hrules).symm⟩
  · rintro ⟨own, hown, hconforms, rfl⟩
    exact ⟨own, hown, by simp [hconforms]⟩

theorem nodup_names_errors {pool : Pool} (hnodup : (Fields.names pool.verdicts).Nodup) :
    (Fields.names pool.errors).Nodup := by
  rw [errors_eq]
  exact Fields.nodup_names_filterMap hnodup fun name verdict =>
    if verdict.conforms then none else some (rejection name verdict)

/-- No error is reported without a rule, so the verdict on the errors holds them all. -/
theorem ofErrors_errors (pool : Pool) :
    Verdict.ofErrors pool.errors = ⟨pool.errors.isEmpty, pool.errors⟩ := by
  have hrules : ∀ entry ∈ pool.errors, (!entry.2.isEmpty) = true := by
    intro entry hentry
    obtain ⟨⟨name, verdict⟩, -, heq⟩ := List.mem_filterMap.mp hentry
    simp only at heq
    split at heq
    · exact absurd heq (by simp)
    · obtain rfl := Option.some.inj heq
      simpa using rejection_ne_nil name verdict
  exact congrArg (fun errors => Verdict.mk errors.isEmpty errors) (List.filter_eq_self.mpr hrules)

/-- The errors of a pool that holds the verdicts of all checks join these verdicts. -/
theorem joins_errors {pool : Pool} (hnodup : (Fields.names pool.verdicts).Nodup)
    (hverdict : ∀ name own, pool.verdicts.get? name = some own ↔
      ComesTo params definitions check name (.ok own)) :
    Joins params definitions check ⟨pool.errors.isEmpty, pool.errors⟩ := by
  refine ⟨?_, ?_, nodup_names_errors hnodup⟩
  · rw [List.isEmpty_iff, List.eq_nil_iff_forall_not_mem]
    constructor
    · intro hnone name own hcomes
      rw [← Bool.not_eq_false]
      intro hconforms
      have hrejected := (get?_errors_eq_some_iff hnodup).mpr
        ⟨own, (hverdict name own).mpr hcomes, hconforms, rfl⟩
      exact hnone _ (Fields.mem_of_get?_eq_some hrejected)
    · rintro hall ⟨name, rules⟩ hmem
      have hget := (Fields.get?_eq_some_iff_mem (nodup_names_errors hnodup)).mpr hmem
      obtain ⟨own, hown, hconforms, -⟩ := (get?_errors_eq_some_iff hnodup).mp hget
      have hconforms' := hall name own ((hverdict name own).mp hown)
      exact Bool.false_ne_true (hconforms.symm.trans hconforms')
  · intro name rules
    simp only [get?_errors_eq_some_iff hnodup, hverdict, rejection_eq]

/-! ## Schedules under which every check finishes -/

section Finished

variable {schedule : List Nat} (hnodup : (Fields.names params).Nodup)
  (hend : ((start params definitions check).follow schedule).pending = [])

include hnodup hend

/-- When every check has finished, each has gone through all its stages, one in each of its
turns. -/
theorem filter_trace_start (name : String) :
    (((start params definitions check).trace schedule).filter (·.1 == name)).map (·.2) =
      stagesOf params definitions check name := by
  have htrace := @stagesLeft_trace (start params definitions check) (nodup_names_start hnodup)
    schedule name
  -- Nothing is left of any check, so what its turns went through is everything.
  have hnone : ((start params definitions check).follow schedule).stagesLeft name = [] := by
    rw [stagesLeft, hend]
    rfl
  rw [stagesLeft_start hnodup, hnone, List.append_nil] at htrace
  exact htrace.symm

private theorem mem_trace_start_iff {task : Task Verdict} :
    (name, task) ∈ (start params definitions check).trace schedule ↔
      task ∈ stagesOf params definitions check name := by
  rw [← filter_trace_start hnodup hend name, List.mem_map]
  constructor
  · intro h
    exact ⟨(name, task), List.mem_filter.mpr ⟨h, beq_self_eq_true name⟩, rfl⟩
  · rintro ⟨⟨other, task⟩, hmem, rfl⟩
    obtain ⟨hturn, hname⟩ := List.mem_filter.mp hmem
    have hname : other = name := beq_iff_eq.mp hname
    subst hname
    exact hturn

/-- The faults are those to which checks come. -/
theorem mem_faults_follow_iff {fault : Fault} :
    fault ∈ ((start params definitions check).follow schedule).faults ↔
      ∃ name, ComesTo params definitions check name (.error fault) := by
  rw [faults_follow]
  simp only [start, List.nil_append, List.mem_filterMap, raised?_eq_some_iff]
  constructor
  · rintro ⟨_, hturn, name, events, rfl⟩
    exact ⟨name, exists_finished_mem_stagesOf_iff.mp
      ⟨events, (mem_trace_start_iff hnodup hend).mp hturn⟩⟩
  · rintro ⟨name, h⟩
    obtain ⟨events, hstage⟩ := exists_finished_mem_stagesOf_iff.mpr h
    exact ⟨_, (mem_trace_start_iff hnodup hend).mpr hstage, name, events, rfl⟩

/-- The verdict under a name is the one to which the check of the parameter comes. -/
theorem get?_verdicts_follow_iff {verdict : Verdict} :
    ((start params definitions check).follow schedule).verdicts.get? name = some verdict ↔
      ComesTo params definitions check name (.ok verdict) := by
  have hmem (name : String) (verdict : Verdict) :
      (name, verdict) ∈ ((start params definitions check).trace schedule).filterMap accepted? ↔
        ComesTo params definitions check name (.ok verdict) := by
    simp only [List.mem_filterMap, accepted?_eq_some_iff, ← exists_finished_mem_stagesOf_iff,
      ← mem_trace_start_iff hnodup hend]
    constructor
    · rintro ⟨_, hturn, events, rfl⟩
      exact ⟨events, hturn⟩
    · rintro ⟨events, hturn⟩
      exact ⟨_, hturn, events, rfl⟩
  rw [verdicts_follow, ← hmem]
  -- A check comes to one outcome, so the order in which verdicts are put together is no matter.
  refine Fields.get?_ofList_eq_some_iff fun name verdict verdict' h h' => ?_
  exact Except.ok.inj (((hmem name verdict).mp h).eq ((hmem name verdict').mp h'))

/-- Without faults the pool concludes with the verdicts joined. -/
theorem joins_conclude
    (hfaults : ((start params definitions check).follow schedule).faults = []) :
    ∃ verdict, ((start params definitions check).follow schedule).conclude.outcome = .ok verdict ∧
      Joins params definitions check verdict := by
  refine ⟨_, ?_, joins_errors nodup_names_verdicts_follow fun name own =>
    get?_verdicts_follow_iff hnodup hend⟩
  rw [conclude, hfaults]
  exact congrArg Except.ok (ofErrors_errors _)

end Finished

/-- With a fault the pool concludes with the first one. -/
theorem outcome_conclude_of_faults {schedule : List Nat}
    (hfaults : ((start params definitions check).follow schedule).faults ≠ []) :
    ∃ first, ((start params definitions check).trace schedule).findSome? raised? = some first ∧
      ((start params definitions check).follow schedule).conclude.outcome = .error first := by
  have hfirst : ((start params definitions check).follow schedule).faults.head? =
      ((start params definitions check).trace schedule).findSome? raised? := by
    rw [faults_follow, ← List.head?_filterMap]
    rfl
  rw [← hfirst, conclude]
  cases h : ((start params definitions check).follow schedule).faults with
  | nil => exact (hfaults h).elim
  | cons fault faults => exact ⟨fault, rfl, rfl⟩

end Pool

/-- When every check comes to a verdict that conforms, so does the result. -/
theorem exists_conforms_validateConcurrently (hnodup : (Fields.names params).Nodup)
    (hall : ∀ name outcome, ComesTo params definitions check name outcome →
      ∃ own, outcome = .ok own ∧ own.conforms = true) (group : TaskGroup) :
    ∃ verdict, (validateConcurrently params definitions check group).outcome = .ok verdict ∧
      verdict.conforms = true := by
  have hend := group.finishes (Pool.start params definitions check)
  have hfaults : ((Pool.start params definitions check).settle group).faults = [] := by
    refine List.eq_nil_iff_forall_not_mem.mpr fun fault hfault => ?_
    obtain ⟨name, hcomes⟩ := (Pool.mem_faults_follow_iff hnodup hend).mp hfault
    obtain ⟨own, hown, -⟩ := hall name _ hcomes
    cases hown
  obtain ⟨verdict, hverdict, hjoins⟩ := Pool.joins_conclude hnodup hend hfaults
  refine ⟨verdict, hverdict, hjoins.conforms_iff.mpr fun name own hcomes => ?_⟩
  obtain ⟨_, hown, hconforms⟩ := hall name _ hcomes
  cases hown
  exact hconforms

/-! ## Any order of turns -/

/-- The result under a schedule. There is none before every check has finished. -/
def validateAlong (params : Params) (definitions : Definitions) (check : ConcurrentCheck)
    (schedule : List Nat) : Option (Run Verdict) :=
  let pool := (Pool.start params definitions check).follow schedule
  if pool.pending.isEmpty then some pool.conclude else none

theorem validateAlong_eq_some_iff {schedule : List Nat} {run : Run Verdict} :
    validateAlong params definitions check schedule = some run ↔
      ((Pool.start params definitions check).follow schedule).pending = [] ∧
        ((Pool.start params definitions check).follow schedule).conclude = run := by
  simp [validateAlong]

/-- Checking concurrently follows the schedule of the task group. -/
theorem validateAlong_schedule (group : TaskGroup) :
    validateAlong params definitions check
        (group.schedule (Pool.start params definitions check)) =
      some (validateConcurrently params definitions check group) :=
  validateAlong_eq_some_iff.mpr ⟨group.finishes _, rfl⟩

/-- Every schedule goes on to a result. -/
theorem exists_validateAlong_append (schedule : List Nat) :
    ∃ more run, validateAlong params definitions check (schedule ++ more) = some run := by
  let pool := (Pool.start params definitions check).follow schedule
  refine ⟨pool.fairSchedule, _, validateAlong_eq_some_iff.mpr ⟨?_, rfl⟩⟩
  rw [Pool.follow, List.foldl_append]
  exact Pool.pending_follow_fairSchedule pool

/-- There is a result under the schedule of every task group, every schedule goes on to one, and
wherever there is one, each parameter with a definition has been checked once and to the end. The
result joins the verdicts, in the same way under all schedules, unless a check fails; then it is the
first fault of the schedule. -/
theorem validateAlong_eq_some (hnodup : (Fields.names params).Nodup) :
    (∀ group : TaskGroup, ∃ schedule, validateAlong params definitions check schedule =
        some (validateConcurrently params definitions check group)) ∧
      (∀ schedule, ∃ more run,
        validateAlong params definitions check (schedule ++ more) = some run) ∧
      ∀ schedule run, validateAlong params definitions check schedule = some run →
        (∀ name, (((Pool.start params definitions check).trace schedule).filter
          (·.1 == name)).map (·.2) = stagesOf params definitions check name) ∧
        ((∀ name fault, ¬ ComesTo params definitions check name (.error fault)) →
          ∃ verdict, run.outcome = .ok verdict ∧ Joins params definitions check verdict) ∧
        ((∃ name fault, ComesTo params definitions check name (.error fault)) →
          ∃ first, ((Pool.start params definitions check).trace schedule).findSome? Pool.raised? =
              some first ∧ run.outcome = .error first) := by
  refine ⟨fun group => ⟨_, validateAlong_schedule group⟩, exists_validateAlong_append,
    fun schedule run hrun => ?_⟩
  obtain ⟨hend, rfl⟩ := validateAlong_eq_some_iff.mp hrun
  have hfaults (fault : Fault) := @Pool.mem_faults_follow_iff params definitions check schedule
    hnodup hend fault
  refine ⟨Pool.filter_trace_start hnodup hend, ?_, ?_⟩
  · intro hnone
    refine Pool.joins_conclude hnodup hend (List.eq_nil_iff_forall_not_mem.mpr ?_)
    intro fault hfault
    obtain ⟨name, hcomes⟩ := (hfaults fault).mp hfault
    exact hnone name fault hcomes
  · rintro ⟨name, fault, hcomes⟩
    exact Pool.outcome_conclude_of_faults
      (List.ne_nil_of_mem ((hfaults fault).mpr ⟨name, hcomes⟩))

/-- Two verdicts that do not conform are joined whichever comes first, and of two faults the one
that comes first is reported. -/
theorem validateAlong_two_checks :
    (∃ run, validateAlong [("a", .text "x"), ("b", .text "y")]
        [("a", .plain "a"), ("b", .plain "b")]
        (fun name _ _ => .delayed [] name.length (.ofExcept (.ok ⟨false, []⟩))) [0, 1, 0, 0] =
          some run ∧
      ∃ verdict, run.outcome = .ok verdict ∧
        Joins [("a", .text "x"), ("b", .text "y")] [("a", .plain "a"), ("b", .plain "b")]
          (fun name _ _ => .delayed [] name.length (.ofExcept (.ok ⟨false, []⟩))) verdict) ∧
    ∃ run, validateAlong [("a", .text "x"), ("b", .text "y")]
        [("a", .plain "a"), ("b", .plain "b")]
        (fun name _ _ => .finished (.fail (.collaborator name "failed"))) [1, 0] = some run ∧
      ∃ first, (Pool.trace (Pool.start [("a", .text "x"), ("b", .text "y")]
          [("a", .plain "a"), ("b", .plain "b")]
          (fun name _ _ => .finished (.fail (.collaborator name "failed")))) [1, 0]).findSome?
            Pool.raised? = some first ∧ run.outcome = .error first := by
  constructor
  · obtain ⟨-, -, h⟩ := @validateAlong_eq_some [("a", .text "x"), ("b", .text "y")]
      [("a", .plain "a"), ("b", .plain "b")]
      (fun name _ _ => .delayed [] name.length (.ofExcept (.ok ⟨false, []⟩))) (by decide)
    refine ⟨_, rfl, (h [0, 1, 0, 0] _ rfl).2.1 ?_⟩
    rintro name fault ⟨_, _, -, -, hcomes⟩
    rw [Task.outcome_result_delayed] at hcomes
    cases hcomes
  · obtain ⟨-, -, h⟩ := @validateAlong_eq_some [("a", .text "x"), ("b", .text "y")]
      [("a", .plain "a"), ("b", .plain "b")]
      (fun name _ _ => .finished (.fail (.collaborator name "failed"))) (by decide)
    exact ⟨_, rfl, (h [1, 0] _ rfl).2.2 ⟨"a", _, _, _, rfl, rfl, rfl⟩⟩

end RouteTemplate
