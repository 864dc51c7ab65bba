/-
# Fields as finite maps

Fields in which no name stands twice are finite maps: what is found under a name is what they
hold. Fields that are put together one by one never give a name twice.

## Main definitions

* `Fields.Rel` — the same names, with values that are related

## Main results

* `Fields.get?_eq_some_iff_mem` — without repeated names, what is found is what is held
* `Fields.ofList_eq_self`, `Fields.get?_ofList_eq_some_iff` — putting values that agree on each name
  together loses none
* `Fields.names_ofList`, `Fields.get?_ofList` — names stand where they are first given, and have the
  value that is given last
* `Fields.get?_merge` — further values come before those that stood under their names
* `Fields.get?_filterMap` — changing or leaving out values works name by name
-/

import Mathlib.Data.List.Induction
import RouteTemplate.Fields

namespace RouteTemplate.Fields

variable {α β : Type} {fields : Fields α} {name : String} {v : α}

theorem mem_of_get?_eq_some (h : fields.get? name = some v) : (name, v) ∈ fields := by
  induction fields with
  | nil => simp at h
  | cons entry rest ih =>
    obtain ⟨key, value⟩ := entry
    rw [get?_cons] at h
    by_cases hname : name = key
    · rw [if_pos hname] at h
      rw [hname, Option.some.inj h]
      exact List.mem_cons_self
    · rw [if_neg hname] at h
      exact List.mem_cons_of_mem _ (ih h)

/-- Without repeated names, what is found under a name is what the fields hold under it. -/
theorem get?_eq_some_iff_mem (hnodup : (names fields).Nodup) :
    fields.get? name = some v ↔ (name, v) ∈ fields := by
  refine ⟨mem_of_get?_eq_some, fun h => ?_⟩
  induction fields with
  | nil => exact absurd h List.not_mem_nil
  | cons entry rest ih =>
    obtain ⟨key, value⟩ := entry
    obtain ⟨hkey, hnodup⟩ := List.nodup_cons.mp hnodup
    rw [get?_cons]
    rcases List.mem_cons.mp h with heq | hmem
    · obtain ⟨rfl, rfl⟩ := Prod.mk.inj heq
      rw [if_pos rfl]
    · have hname : name ≠ key := by
        rintro rfl
        exact hkey (List.mem_map.mpr ⟨(name, v), hmem, rfl⟩)
      rw [if_neg hname]
      exact ih hnodup hmem

theorem get?_append (fields more : Fields α) (name : String) :
    get? (fields ++ more) name = (fields.get? name).or (get? more name) := by
  induction fields with
  | nil => rfl
  | cons entry rest ih =>
    rw [List.cons_append, get?_cons, get?_cons, ih]
    split
    · rfl
    · rfl

/-! ## Lists without repetitions -/

/-- What is known stays in its place, and what is new comes last. -/
theorem eraseDups_concat [DecidableEq α] (items : List α) (item : α) :
    (items ++ [item]).eraseDups =
      if item ∈ items then items.eraseDups else items.eraseDups ++ [item] := by
  rw [List.eraseDups_append]
  by_cases h : item ∈ items <;> simp [List.removeAll, h, List.eraseDups_cons]

theorem nodup_eraseDups [DecidableEq α] (items : List α) : items.eraseDups.Nodup := by
  induction items using List.reverseRecOn with
  | nil => exact List.nodup_nil
  | append_singleton items item ih =>
    rw [eraseDups_concat]
    split
    · exact ih
    · rename_i hnew
      refine List.nodup_append.mpr ⟨ih, List.pairwise_singleton _ item, ?_⟩
      rintro _ hmem _ hitem rfl
      exact hnew (List.mem_singleton.mp hitem ▸ List.mem_eraseDups.mp hmem)

/-! ## Putting fields together -/

/-- A new name comes last. -/
theorem put_of_notMem (h : name ∉ names fields) : fields.put name v = fields ++ [(name, v)] := by
  induction fields with
  | nil => rfl
  | cons entry rest ih =>
    obtain ⟨key, value⟩ := entry
    obtain ⟨hkey, hrest⟩ := not_or.mp (fun hname => h (List.mem_cons.mpr hname))
    rw [put, if_neg (Ne.symm hkey), ih hrest]
    rfl

theorem merge_append (fields more further : Fields α) :
    merge fields (more ++ further) = merge (merge fields more) further :=
  List.foldl_append

theorem ofList_concat (entries : List (String × α)) (key : String) (value : α) :
    ofList (entries ++ [(key, value)]) = put (ofList entries) key value :=
  merge_append [] entries [(key, value)]

theorem nodup_names_ofList (entries : List (String × α)) : (names (ofList entries)).Nodup := by
  have hmerge (fields more : Fields α) (h : (names fields).Nodup) :
      (names (merge fields more)).Nodup := by
    induction more generalizing fields with
    | nil => exact h
    | cons entry rest ih => exact ih _ (nodup_names_put h entry.1 entry.2)
  exact hmerge [] entries List.nodup_nil

/-- Fields in which no name stands twice are put together as they are. -/
theorem ofList_eq_self (hnodup : (names fields).Nodup) : ofList fields = fields := by
  induction fields using List.reverseRecOn with
  | nil => rfl
  | append_singleton fields entry ih =>
    rw [names, List.map_append, List.nodup_append] at hnodup
    obtain ⟨hfields, -, hdisjoint⟩ := hnodup
    rw [ofList_concat fields entry.1 entry.2, ih hfields, put_of_notMem]
    intro hmem
    exact hdisjoint _ hmem _ (List.mem_map_of_mem List.mem_cons_self) rfl

/-- Values that agree on each name are all found when they are put together. -/
theorem get?_ofList_eq_some_iff {entries : List (String × α)}
    (hagree : ∀ name v w, (name, v) ∈ entries → (name, w) ∈ entries → v = w) :
    (ofList entries).get? name = some v ↔ (name, v) ∈ entries := by
  induction entries using List.reverseRecOn generalizing v with
  | nil => simp [ofList, merge]
  | append_singleton entries entry ih =>
    obtain ⟨key, value⟩ := entry
    -- The entry that is put last decides, but it agrees with those before it.
    have hrest := @ih v fun name v w hv hw =>
      hagree name v w (List.mem_append_left _ hv) (List.mem_append_left _ hw)
    rw [ofList_concat, get?_put, List.mem_append, List.mem_singleton]
    by_cases hname : name = key
    · subst hname
      rw [if_pos rfl]
      constructor
      · intro h
        rw [Option.some.inj h]
        exact .inr rfl
      · rintro (h | h)
        · exact congrArg some (hagree name value v (List.mem_append_right _ List.mem_cons_self)
            (List.mem_append_left _ h))
        · rw [(Prod.mk.inj h).2]
    · rw [if_neg hname, hrest]
      refine ⟨.inl, fun h => h.resolve_right fun heq => hname (Prod.mk.inj heq).1⟩

/-- The names stand in the order in which they are first given. -/
theorem names_ofList (entries : List (String × α)) :
    names (ofList entries) = (entries.map (·.1)).eraseDups := by
  induction entries using List.reverseRecOn with
  | nil => rfl
  | append_singleton entries entry ih =>
    rw [ofList_concat entries entry.1 entry.2, names_put, ih, List.map_append, List.map_singleton,
      eraseDups_concat]
    simp only [List.mem_eraseDups]

/-- Under each name stands what is given last. -/
theorem get?_ofList (entries : List (String × α)) (name : String) :
    (ofList entries).get? name = ((entries.filter (·.1 == name)).getLast?).map (·.2) := by
  induction entries using List.reverseRecOn with
  | nil => rfl
  | append_singleton entries entry ih =>
    rw [ofList_concat entries entry.1 entry.2, get?_put, ih, List.filter_append]
    by_cases hname : name = entry.1
    · simp [hname]
    · simp [hname, Ne.symm hname]

/-! ## Merging -/

/-- What is merged later comes before what stood under its name. -/
theorem get?_merge (fields more : Fields α) (name : String) :
    get? (merge fields more) name = (get? (ofList more) name).or (fields.get? name) := by
  induction more using List.reverseRecOn with
  | nil => rfl
  | append_singleton more entry ih =>
    obtain ⟨key, value⟩ := entry
    have hput (start : Fields α) :
        merge start (more ++ [(key, value)]) = put (merge start more) key value :=
      merge_append start more [(key, value)]
    rw [ofList, hput, hput, get?_put, get?_put, ih, ← ofList]
    by_cases hname : name = key
    · rw [if_pos hname, if_pos hname, Option.some_or]
    · rw [if_neg hname, if_neg hname]

/-- Merging the same values again changes nothing. -/
theorem get?_merge_merge (fields more : Fields α) (name : String) :
    get? (merge (merge fields more) more) name = get? (merge fields more) name := by
  rw [get?_merge, get?_merge, ← Option.or_assoc, Option.or_self]

theorem mem_of_get?_ofList (h : (ofList fields).get? name = some v) : (name, v) ∈ fields := by
  induction fields using List.reverseRecOn with
  | nil => exact absurd h (by simp [ofList, merge])
  | append_singleton fields entry ih =>
    obtain ⟨key, value⟩ := entry
    rw [ofList_concat, get?_put] at h
    by_cases hname : name = key
    · subst hname
      rw [if_pos rfl] at h
      rw [Option.some.inj h]
      exact List.mem_append_right _ List.mem_cons_self
    · rw [if_neg hname] at h
      exact List.mem_append_left _ (ih h)

/-- Under a name for which nothing is merged, nothing changes. -/
theorem get?_merge_of_get?_eq_none {more : Fields α} (h : get? more name = none) :
    get? (merge fields more) name = fields.get? name := by
  have hnone : get? (ofList more) name = none := by
    rw [← Option.not_isSome_iff_eq_none, Option.isSome_iff_exists]
    rintro ⟨v, hv⟩
    exact (get?_eq_none_iff more name).mp h (List.mem_map_of_mem (mem_of_get?_ofList hv))
  rw [get?_merge, hnone, Option.none_or]

/-! ## Changing the values -/

theorem nodup_names_filterMap (hnodup : (names fields).Nodup) (f : String → α → Option β) :
    (names (fields.filterMap fun (name, v) => (f name v).map fun w => (name, w))).Nodup := by
  refine hnodup.sublist ?_
  clear hnodup
  induction fields with
  | nil => exact .slnil
  | cons entry rest ih =>
    obtain ⟨key, value⟩ := entry
    rw [List.filterMap_cons]
    cases hf : f key value with
    | none =>
      simp only [hf, Option.map_none]
      exact .cons key ih
    | some w =>
      simp only [hf, Option.map_some]
      exact .cons_cons key ih

/-- Values that are changed or left out are those found under their names. -/
theorem get?_filterMap (hnodup : (names fields).Nodup) (f : String → α → Option β) :
    get? (fields.filterMap fun (name, v) => (f name v).map fun w => (name, w)) name =
      (fields.get? name).bind (f name) := by
  induction fields with
  | nil => rfl
  | cons entry rest ih =>
    obtain ⟨key, value⟩ := entry
    obtain ⟨hkey, hrest⟩ := List.nodup_cons.mp hnodup
    rw [get?_cons, List.filterMap_cons]
    by_cases hname : name = key
    · subst hname
      have hnone : get? rest name = none := (get?_eq_none_iff rest name).mpr hkey
      rw [if_pos rfl, Option.bind_some]
      cases hf : f name value with
      | none => simp only [hf, Option.map_none, ih hrest, hnone, Option.bind_none]
      | some w => simp only [hf, Option.map_some, get?_cons, ↓reduceIte]
    · rw [if_neg hname, ← ih hrest]
      cases hf : f key value with
      | none => simp only [hf, Option.map_none]
      | some w => simp only [hf, Option.map_some, get?_cons, if_neg hname]

/-! ## Two fields -/

/-- The same names in the same order, with values that are related under each of them. -/
inductive Rel (R : String → α → β → Prop) : Fields α → Fields β → Prop
  | nil : Rel R [] []
  | cons (name : String) {v : α} {w : β} {rest : Fields α} {rest' : Fields β} (h : R name v w)
      (hrest : Rel R rest rest') : Rel R ((name, v) :: rest) ((name, w) :: rest')

/-- What follows from the relation for each value that is held, follows for all of them. -/
theorem Rel.imp_of_mem {R S : String → α → β → Prop} {fields' : Fields β} (h : Rel R fields fields')
    (himp : ∀ name v w, (name, v) ∈ fields → R name v w → S name v w) : Rel S fields fields' := by
  induction h with
  | nil => exact .nil
  | cons name h _ ih =>
    exact .cons name (himp _ _ _ List.mem_cons_self h)
      (ih fun name v w hmem => himp name v w (List.mem_cons_of_mem _ hmem))

end RouteTemplate.Fields
