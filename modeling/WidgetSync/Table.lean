/-!
# Tables in Order of Arrival

Named entries that remember the order in which their names first arrived.

Properties of a widget, settings of a file and members of a JSON object are all
written out again in the order in which they came, so the order belongs to the
data. A table is the list of its entries. Writing to a name that is present
replaces the value and moves nothing; a new name goes to the end.

## Main definitions

* `Table.get?`: The value under a name.
* `Table.set`: Writes a value.
* `Table.erase`: Removes a name.
* `Table.ofEntries`: A table from entries that may repeat names.

## Theorems

* `get?_set_self`, `get?_set_of_ne`: What a write changes.
* `get?_erase_self`: An erased name is gone.
-/

namespace WidgetSync

/-- Named entries in the order in which their names first arrived. -/
abbrev Table (α : Type) := List (String × α)

namespace Table

variable {α : Type}

/-- The value under a name. -/
def get? : Table α → String → Option α
  | [], _ => none
  | (k, v) :: t, key => if k = key then some v else get? t key

/-- The name is present. -/
def has (t : Table α) (key : String) : Bool :=
  (get? t key).isSome

/-- The table with the value under the name: in its place if the name is present,
    at the end if it is new. -/
def set : Table α → String → α → Table α
  | [], key, value => [(key, value)]
  | (k, v) :: t, key, value =>
    if k = key then (k, value) :: t else (k, v) :: set t key value

/-- The table without the name. -/
def erase : Table α → String → Table α
  | [], _ => []
  | (k, v) :: t, key => if k = key then t else (k, v) :: erase t key

/-- The names in order. -/
def names (t : Table α) : List String :=
  t.map (·.1)

/-- The table of some entries. A repeated name keeps its first place and its last
    value. -/
def ofEntries (entries : List (String × α)) : Table α :=
  entries.foldl (fun t e => set t e.1 e.2) []

/-- The value written is there. -/
theorem get?_set_self (t : Table α) (key : String) (value : α) :
    get? (set t key value) key = some value := by
  induction t with
  | nil => simp [set, get?]
  | cons e t ih =>
      obtain ⟨k, v⟩ := e
      by_cases h : k = key
      · simp [set, get?, h]
      · simp [set, get?, h, ih]

/-- Other names keep their values. -/
theorem get?_set_of_ne (t : Table α) {key other : String} (value : α) (h : other ≠ key) :
    get? (set t key value) other = get? t other := by
  induction t with
  | nil => simp [set, get?, Ne.symm h]
  | cons e t ih =>
      obtain ⟨k, v⟩ := e
      by_cases hk : k = key
      · subst hk
        simp [set, get?, Ne.symm h]
      · simp [set, get?, hk, ih]

/-- In a table without repeated names an erased name is gone. -/
theorem get?_erase_self (t : Table α) (key : String) (h : (names t).Nodup) :
    get? (erase t key) key = none := by
  induction t with
  | nil => rfl
  | cons e t ih =>
      obtain ⟨k, v⟩ := e
      simp only [names, List.map_cons, List.nodup_cons] at h
      by_cases hk : k = key
      · subst hk
        have absent : ∀ s : Table α, k ∉ names s → get? s k = none := by
          intro s hs
          induction s with
          | nil => rfl
          | cons f s ihs =>
              obtain ⟨j, w⟩ := f
              simp only [names, List.map_cons, List.mem_cons, not_or] at hs
              simp only [get?, if_neg (Ne.symm hs.1)]
              exact ihs hs.2
        simp only [erase, if_true]
        exact absent t h.1
      · simp only [erase, if_neg hk, get?]
        exact ih h.2

end Table

end WidgetSync
