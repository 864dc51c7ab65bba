/-
# Named values in order

Named values that remember the order in which their names were first given. A name that is given
again keeps its place and takes the new value.

## Main definitions

* `Fields.get?` — the value under a name
* `Fields.put`, `Fields.merge` — the fields with further ones

## Main results

* `Fields.get?_put` — putting a value changes what stands under its name and nothing else
* `Fields.names_put` — putting a value keeps the order of the names
-/

namespace RouteTemplate

/-- Values under names, in the order in which the names were first given. -/
abbrev Fields (α : Type) := List (String × α)

namespace Fields

variable {α : Type}

/-- The value under a name. -/
def get? (fields : Fields α) (name : String) : Option α :=
  fields.lookup name

/-- Some value stands under the name. -/
def has (fields : Fields α) (name : String) : Bool :=
  (fields.get? name).isSome

/-- The names, in order. -/
def names (fields : Fields α) : List String :=
  fields.map (·.1)

/-- The fields with a value under a name: a known name keeps its place, a new one comes last. -/
def put : Fields α → String → α → Fields α
  | [], name, value => [(name, value)]
  | (other, old) :: rest, name, value =>
    if other = name then (name, value) :: rest else (other, old) :: put rest name value

/-- The fields with further ones put after them, one by one. -/
def merge (fields more : Fields α) : Fields α :=
  more.foldl (fun acc (name, value) => put acc name value) fields

/-- The fields whose names are given in any order, repeated ones included. -/
def ofList (entries : List (String × α)) : Fields α :=
  merge [] entries

@[simp]
theorem get?_nil (name : String) : get? ([] : Fields α) name = none := rfl

theorem get?_cons (key : String) (value : α) (rest : Fields α) (name : String) :
    get? ((key, value) :: rest) name = if name = key then some value else get? rest name := by
  by_cases h : name = key
  · simp [get?, h]
  · simp [get?, List.lookup_cons, beq_eq_false_iff_ne.mpr h, h]

/-- Putting a value changes what stands under its name and nothing else. -/
theorem get?_put (fields : Fields α) (name other : String) (value : α) :
    get? (put fields name value) other =
      if other = name then some value else get? fields other := by
  induction fields with
  | nil => simp [put, get?_cons]
  | cons head rest ih =>
    obtain ⟨key, old⟩ := head
    by_cases hk : key = name
    · subst hk
      by_cases h : other = key <;> simp [put, get?_cons, h]
    · by_cases h : other = key
      · subst h
        simp [put, get?_cons, hk]
      · simp [put, get?_cons, hk, h, ih]

/-- The names without a value are those that are not given. -/
theorem get?_eq_none_iff (fields : Fields α) (name : String) :
    get? fields name = none ↔ name ∉ names fields := by
  induction fields with
  | nil => simp [names]
  | cons head rest ih =>
    obtain ⟨key, value⟩ := head
    by_cases h : name = key <;> simp_all [get?_cons, names]

/-- Putting a value keeps the order of the names, and adds a new one at the end. -/
theorem names_put (fields : Fields α) (name : String) (value : α) :
    names (put fields name value) =
      if name ∈ names fields then names fields else names fields ++ [name] := by
  induction fields with
  | nil => simp [put, names]
  | cons head rest ih =>
    obtain ⟨key, old⟩ := head
    by_cases h : key = name
    · simp [put, names, h]
    · have h' : name ≠ key := Ne.symm h
      by_cases hmem : name ∈ names rest <;> simp_all [put, names]

/-- Putting a value gives no name twice. -/
theorem nodup_names_put {fields : Fields α} (h : (names fields).Nodup) (name : String)
    (value : α) : (names (put fields name value)).Nodup := by
  rw [names_put]
  by_cases hmem : name ∈ names fields
  · simpa [hmem] using h
  · simp only [hmem, ↓reduceIte, List.nodup_append, h, List.mem_singleton]
    refine ⟨trivial, by simp, ?_⟩
    rintro _ ha _ rfl rfl
    exact hmem ha

end Fields

end RouteTemplate
